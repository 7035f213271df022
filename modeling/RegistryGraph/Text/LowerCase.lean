import RegistryGraph.Text.CaseTable

/-!
# Lower case

Full Unicode lower-casing.  Every character maps on its own, with one exception: a capital sigma at
the end of a word becomes the final sigma.  It stands at the end of a word when, case-ignorable
characters skipped, a cased character comes before it and none after it.
-/

namespace RegistryGraph.Text

/-- The capital sigma, whose lower case depends on its neighbours. -/
def capitalSigma : Char := '\u03A3'

/-- Lower case of a character that does not depend on its neighbours. -/
def lowerChar (c : Char) : List Char :=
  let n := c.toNat
  if n < 0x80 then [c.toLower]
  else if n = 0x130 then ['i', '\u0307']
  else
    match capitalRuns.find? (·.contains n) with
    | some run => [.ofNat (n + run.offset).toNat]
    | none => [c]

/-- Whether the first character that is not case-ignorable is cased. -/
def nextIsCased : List Char → Bool
  | [] => false
  | c :: rest =>
    if inRanges caseIgnorableRanges c.toNat then nextIsCased rest
    else inRanges casedRanges c.toNat

/-- Lower case of `cs`, which follows the characters `before` (nearest first), behind the lower-case
text `done` (latest first). -/
def lowerCharsFrom (before done : List Char) : List Char → List Char
  | [] => done.reverse
  | c :: rest =>
    let image :=
      if c = capitalSigma then
        if nextIsCased before && !nextIsCased rest then ['\u03C2'] else ['\u03C3']
      else lowerChar c
    lowerCharsFrom (c :: before) (image.reverse ++ done) rest

/-- The lower case of a text. -/
def lowerCase (s : String) : String := .ofList (lowerCharsFrom [] [] s.toList)

/-- Whether `pattern` occurs in `cs` as a contiguous part. -/
def occursIn (pattern : List Char) : List Char → Bool
  | [] => pattern.isEmpty
  | c :: rest => pattern.isPrefixOf (c :: rest) || occursIn pattern rest

end RegistryGraph.Text
