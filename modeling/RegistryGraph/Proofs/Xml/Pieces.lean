import RegistryGraph.Proofs.Xml.Lexing
import RegistryGraph.Proofs.Xml.Spelling

/-!
# Markup

Behind a `<` stands a tag, an end tag, or markup of another kind.  `Markup` keeps a tag as it is spelled, and
other markup as it stands.  A tag is ended by the first `>` outside of quotes, so what is spelled is read in
one piece only if its names hold no quote; `IsElementName` and `IsAttributeName` say which names can stand in
tags.

* `Lexer.cases_of_completes_opened`: the kinds of markup.
* `Markup.completes`: markup that is spelled is read as its lexeme.
-/

namespace RegistryGraph.Xml

open Lexer (Completes Mode Quoting lexemesFrom? next? textLexemes)

/-- Markup that is no tag. -/
def Lexeme.isAside : Lexeme → Bool
  | .cdata _ | .ignored => true
  | _ => false

namespace Lexer

variable {mode mode' : Mode} {b : UInt8} {lexeme : Lexeme} {octets : Octets}

/-! ## Single octets -/

/-- In text an opening bracket ends the run. -/
theorem next?_text (run : Octets) (b : UInt8) :
    next? (.text run) b =
      if b = 0x3C then some (.opened, if run.isEmpty then none else some (.text run.reverse))
      else some (.text (b :: run), none) := by
  simp only [next?, step]
  split_ifs <;> rfl

/-- In a tag a closing bracket outside quotes ends it. -/
theorem next?_tag (quoting : Quoting) (run : Octets) (b : UInt8) :
    next? (.tag quoting run) b =
      if b = 0x3E && quoting = .outside then some (.text [], some (.tag run.reverse))
      else some (.tag (quoting.next b) (b :: run), none) := by
  simp only [next?, step, stepTag]
  split_ifs <;> rfl

/-- In an end tag a closing bracket outside quotes ends it. -/
theorem next?_close (quoting : Quoting) (run : Octets) (b : UInt8) :
    next? (.close quoting run) b =
      if b = 0x3E && quoting = .outside then some (.text [], some (.close run.reverse))
      else some (.close (quoting.next b) (b :: run), none) := by
  simp only [next?, step]
  split_ifs <;> rfl

/-- The octet behind an opening bracket decides what kind of markup begins. -/
theorem next?_opened (b : UInt8) :
    next? .opened b =
      if b = 0x21 then some (.bang, none)
      else if b = 0x2F then some (.close .outside [], none)
      else if b = 0x3F then some (.instruction [b], none)
      else next? (.tag .outside []) b := by
  simp only [next?, step]
  split_ifs <;> rfl

/-- The lexer reads character data. -/
def Mode.isText : Mode → Bool
  | .text _ => true
  | _ => false

/-- The lexer reads markup that is no tag. -/
def Mode.isAside : Mode → Bool
  | .instruction _ | .bang | .comment _ | .cdata _ | .doctype .. => true
  | _ => false

/-- Within markup an octet completes a lexeme, and character data follows, or it does not, and the markup
goes on. -/
theorem next?_markup {lexeme : Option Lexeme} (hmode : mode.isText = false)
    (h : next? mode b = some (mode', lexeme)) :
    (lexeme = none ∧ mode'.isText = false) ∨ (lexeme.isSome = true ∧ mode' = .text []) := by
  cases mode with
  | text run => cases hmode
  | opened | tag | close | instruction | bang | comment | doctype | cdata =>
      grind [next?, step, stepTag, Except.toOption, Mode.isText]

/-- Markup that is no tag stays so. -/
theorem next?_aside {lexeme : Option Lexeme} (hmode : mode.isAside = true)
    (h : next? mode b = some (mode', lexeme)) :
    (lexeme = none → mode'.isAside = true) ∧ ∀ l ∈ lexeme, l.isAside = true := by
  cases mode with
  | text | opened | tag | close => cases hmode
  | instruction | bang | comment | doctype | cdata =>
      grind [next?, step, Except.toOption, Mode.isAside, Lexeme.isAside]

/-! ## Quotes -/

/-- The quoting behind some octets, unless a `>` outside of quotes ends the tag before. -/
def quotingAfter? (quoting : Quoting) : Octets → Option Quoting
  | [] => some quoting
  | b :: rest =>
    if b = 0x3E && quoting = .outside then none else quotingAfter? (quoting.next b) rest

/-- Quotes are followed octet by octet. -/
theorem quotingAfter?_append (quoting : Quoting) (octets more : Octets) :
    quotingAfter? quoting (octets ++ more) =
      (quotingAfter? quoting octets).bind (quotingAfter? · more) := by
  induction octets generalizing quoting with
  | nil => rfl
  | cons b rest ih =>
      rw [List.cons_append, quotingAfter?, quotingAfter?]
      split
      · rfl
      · exact ih _

/-- Neither a quote nor the end of a tag. -/
def IsPlainOctet (b : UInt8) : Prop := b ≠ 0x22 ∧ b ≠ 0x27 ∧ b ≠ 0x3E

instance (b : UInt8) : Decidable (IsPlainOctet b) :=
  inferInstanceAs (Decidable (b ≠ 0x22 ∧ b ≠ 0x27 ∧ b ≠ 0x3E))

/-- A blank neither opens quotes nor closes a tag. -/
theorem isPlainOctet_of_isBlank (h : isBlank b = true) : IsPlainOctet b := by
  refine ⟨?_, ?_, ?_⟩ <;>
  · rintro rfl
    revert h
    decide

/-- Plain octets leave the reader outside quotes. -/
theorem quotingAfter?_plain (h : ∀ b ∈ octets, IsPlainOctet b) :
    quotingAfter? .outside octets = some .outside := by
  induction octets with
  | nil => rfl
  | cons b rest ih =>
      obtain ⟨⟨hdouble, hsingle, hend⟩, hrest⟩ := List.forall_mem_cons.1 h
      simp [quotingAfter?, hend, Quoting.next, hsingle, hdouble, ih hrest]

/-- A quoted value is passed, whatever it holds. -/
theorem quotingAfter?_quoted {quote : UInt8} {value : Octets} (hquote : quote = 0x22 ∨ quote = 0x27)
    (hvalue : ∀ b ∈ value, b ≠ quote) :
    quotingAfter? .outside (quote :: (value ++ [quote])) = some .outside := by
  have hinside : ∀ inside : Quoting, inside ≠ .outside → inside.next quote = .outside →
      (∀ b, b ≠ quote → inside.next b = inside) →
        quotingAfter? inside (value ++ [quote]) = some .outside := by
    intro inside hne hclose hkeep
    induction value with
    | nil => simp [quotingAfter?, hne, hclose]
    | cons b rest ih =>
        obtain ⟨hb, hrest⟩ := List.forall_mem_cons.1 hvalue
        simp [quotingAfter?, hne, hkeep b hb, ih hrest]
  rcases hquote with rfl | rfl
  · refine hinside .double (by decide) (by decide) fun b hb => ?_
    simp [Quoting.next, hb]
  · refine hinside .single (by decide) (by decide) fun b hb => ?_
    simp [Quoting.next, hb]

/-! ## Tags -/

/-- What a tag's reader and an end tag's reader have in common. -/
structure ReadsTag (mode : Quoting → Octets → Mode) (lexeme : Octets → Lexeme) : Prop where
  next : ∀ quoting run b, next? (mode quoting run) b =
    if b = 0x3E && quoting = .outside then some (.text [], some (lexeme run.reverse))
    else some (mode (quoting.next b) (b :: run), none)

/-- Start tags are read up to a closing bracket outside quotes. -/
theorem readsTag_tag : ReadsTag .tag .tag := ⟨next?_tag⟩

/-- End tags are read up to a closing bracket outside quotes. -/
theorem readsTag_close : ReadsTag .close .close := ⟨next?_close⟩

variable {reader : Quoting → Octets → Mode} {found : Octets → Lexeme}

/-- The first `>` outside of quotes ends a tag. -/
theorem ReadsTag.completes (h : ReadsTag reader found) {quoting : Quoting} {content : Octets}
    (hcontent : quotingAfter? quoting content = some .outside) (run : Octets) :
    Completes (reader quoting run) (content ++ [0x3E]) (found (run.reverse ++ content)) := by
  induction content generalizing quoting run with
  | nil =>
      obtain rfl := Option.some.inj hcontent
      exact .last (by simp [h.next])
  | cons b rest ih =>
      rw [quotingAfter?] at hcontent
      split at hcontent
      · cases hcontent
      · next hopen =>
          have hrest := ih hcontent (b :: run)
          rw [List.reverse_cons, List.append_assoc] at hrest
          refine .step ?_ hrest
          rw [h.next, if_neg hopen]

/-- A tag is ended by a `>`, and holds everything before. -/
theorem ReadsTag.eq_of_completes (h : ReadsTag reader found) {quoting : Quoting} {run : Octets}
    (hcompletes : Completes (reader quoting run) octets lexeme) :
    ∃ content, octets = content ++ [0x3E] ∧ lexeme = found (run.reverse ++ content) := by
  generalize hmode : reader quoting run = mode at hcompletes
  induction hcompletes generalizing quoting run with
  | last hnext =>
      subst hmode
      rw [h.next] at hnext
      split at hnext
      · next hend =>
          simp only [Bool.and_eq_true, decide_eq_true_eq] at hend
          cases hnext
          exact ⟨[], by simp [hend.1], by simp⟩
      · simp at hnext
  | @step _ _ b _ _ hnext _ ih =>
      subst hmode
      rw [h.next] at hnext
      split at hnext
      · simp at hnext
      · obtain ⟨content, rfl, rfl⟩ := ih (Prod.mk.inj (Option.some.inj hnext)).1
        exact ⟨b :: content, rfl, by simp⟩

/-- What completes a comment, an instruction or the like is no tag and no text. -/
theorem isAside_of_completes (h : Completes mode octets lexeme) (hmode : mode.isAside = true) :
    lexeme.isAside = true := by
  induction h with
  | last hnext => exact (next?_aside hmode hnext).2 _ rfl
  | step hnext _ ih => exact ih ((next?_aside hmode hnext).1 rfl)

/-- Behind a `<` a tag begins with any octet but three. -/
theorem completes_opened_iff {rest : Octets} (hb : b ≠ 0x21 ∧ b ≠ 0x2F ∧ b ≠ 0x3F) :
    Completes .opened (b :: rest) lexeme ↔ Completes (.tag .outside []) (b :: rest) lexeme := by
  have hopened : next? .opened b = next? (.tag .outside []) b := by
    rw [next?_opened, if_neg hb.1, if_neg hb.2.1, if_neg hb.2.2]
  constructor
  · intro h
    cases h with
    | last hnext => exact .last (hopened ▸ hnext)
    | step hnext tail => exact .step (hopened ▸ hnext) tail
  · intro h
    cases h with
    | last hnext => exact .last (hopened ▸ hnext)
    | step hnext tail => exact .step (hopened ▸ hnext) tail

/-- What can stand behind a `<`. -/
theorem cases_of_completes_opened (h : Completes .opened octets lexeme) :
    (∃ content, octets = content ++ [0x3E] ∧ lexeme = .tag content) ∨
      (∃ content, octets = 0x2F :: (content ++ [0x3E]) ∧ lexeme = .close content) ∨
        lexeme.isAside = true := by
  obtain ⟨b, rest, hoctets⟩ : ∃ b rest, octets = b :: rest := by
    cases h with
    | last | step => exact ⟨_, _, rfl⟩
  by_cases hspecial : b = 0x21 ∨ b = 0x2F ∨ b = 0x3F
  · cases h with
    | last hnext =>
        cases hoctets
        rcases hspecial with rfl | rfl | rfl <;> cases hnext
    | step hnext tail =>
        cases hoctets
        rcases hspecial with rfl | rfl | rfl
        · cases hnext
          exact .inr (.inr (isAside_of_completes tail rfl))
        · cases hnext
          obtain ⟨content, rfl, rfl⟩ := readsTag_close.eq_of_completes tail
          exact .inr (.inl ⟨content, rfl, rfl⟩)
        · cases hnext
          exact .inr (.inr (isAside_of_completes tail rfl))
  · subst hoctets
    rw [completes_opened_iff (by simpa only [not_or] using hspecial)] at h
    obtain ⟨content, hcontent, rfl⟩ := readsTag_tag.eq_of_completes h
    exact .inl ⟨content, hcontent, rfl⟩

end Lexer

open Lexer (IsPlainOctet)

/-! ## Names -/

/-- A name that can stand in a start tag and in an end tag. -/
structure IsElementName (name : Octets) : Prop where
  nonempty : name ≠ []
  solid : ∀ b ∈ name, isBlank b = false
  plain : ∀ b ∈ name, IsPlainOctet b
  /-- What begins with one of these octets is markup of another kind. -/
  head : ∀ b ∈ name.head?, b ≠ 0x21 ∧ b ≠ 0x2F ∧ b ≠ 0x3F
  /-- A slash at the end of a start tag makes an empty element. -/
  last : name.getLast? ≠ some 0x2F

instance (name : Octets) : Decidable (IsElementName name) :=
  decidable_of_iff (name ≠ [] ∧ name.all (!isBlank ·) ∧ name.all (IsPlainOctet ·) ∧
      name.head?.all (fun b => b ≠ 0x21 ∧ b ≠ 0x2F ∧ b ≠ 0x3F) ∧ name.getLast? ≠ some 0x2F)
    ⟨fun ⟨nonempty, solid, plain, head, last⟩ =>
        ⟨nonempty, by simpa using solid, by simpa using plain, by simpa [Option.all_eq_true] using head, last⟩,
      fun h => ⟨h.nonempty, by simpa using h.solid, by simpa using h.plain,
        by simpa [Option.all_eq_true] using h.head, h.last⟩⟩

/-- A name that can stand in front of an equals sign. -/
structure IsAttributeName (name : Octets) : Prop where
  isKey : IsKey name
  plain : ∀ b ∈ name, IsPlainOctet b

instance (name : Octets) : Decidable (IsAttributeName name) :=
  decidable_of_iff (IsKey name ∧ name.all (IsPlainOctet ·))
    ⟨fun h => ⟨h.1, by simpa using h.2⟩, fun h => ⟨h.isKey, by simpa using h.plain⟩⟩

/-- The names of a tag are such names. -/
structure Tag.IsPlain (t : Tag) : Prop where
  name : IsElementName t.name
  keys : ∀ a ∈ t.attributes.list, IsAttributeName a.key

instance (t : Tag) : Decidable t.IsPlain :=
  decidable_of_iff (IsElementName t.name ∧ ∀ a ∈ t.attributes.list, IsAttributeName a.key)
    ⟨fun h => ⟨h.1, h.2⟩, fun h => ⟨h.name, h.keys⟩⟩

/-- Behind an attribute the lexer is outside of quotes again. -/
theorem AttributeSpelling.quotingAfter?_octets (a : AttributeSpelling)
    (hkey : ∀ b ∈ a.key, IsPlainOctet b) : Lexer.quotingAfter? .outside a.octets = some .outside := by
  have hsplit : a.octets = (a.gap ++ a.key ++ a.before ++ [0x3D] ++ a.after) ++
      a.quote :: (a.value ++ [a.quote]) := by
    simp [octets]
  have hblank : ∀ {octets}, AllBlank octets → ∀ b ∈ octets, IsPlainOctet b := fun h b hb =>
    Lexer.isPlainOctet_of_isBlank (h b hb)
  have hfront : ∀ b ∈ a.gap ++ a.key ++ a.before ++ [0x3D] ++ a.after, IsPlainOctet b := by
    simp only [List.forall_mem_append, List.forall_mem_singleton]
    exact ⟨⟨⟨⟨hblank a.gap_blank, hkey⟩, hblank a.before_blank⟩, by unfold IsPlainOctet; decide⟩,
      hblank a.after_blank⟩
  rw [hsplit, Lexer.quotingAfter?_append, Lexer.quotingAfter?_plain hfront]
  exact Lexer.quotingAfter?_quoted a.quoted a.closed

/-- Attributes with plain keys open and close their own quotes. -/
theorem quotingAfter?_attributes {as : List AttributeSpelling}
    (h : ∀ a ∈ as, ∀ b ∈ a.key, IsPlainOctet b) :
    Lexer.quotingAfter? .outside (as.flatMap AttributeSpelling.octets) = some .outside := by
  induction as with
  | nil => rfl
  | cons a rest ih =>
      obtain ⟨hkey, hrest⟩ := List.forall_mem_cons.1 h
      rw [List.flatMap_cons, Lexer.quotingAfter?_append, a.quotingAfter?_octets hkey]
      exact ih hrest

/-- Attributes end with a quote. -/
theorem getLast?_attributes (as : List AttributeSpelling) :
    ∀ b ∈ (as.flatMap AttributeSpelling.octets).getLast?, b = 0x22 ∨ b = 0x27 := by
  induction as with
  | nil => simp
  | cons a rest ih =>
      have ha : a.octets.getLast? = some a.quote := by
        simp [AttributeSpelling.octets, List.getLast?_append, List.getLast?_cons]
      intro b hb
      rw [List.flatMap_cons, List.getLast?_append, ha] at hb
      cases hrest : (rest.flatMap AttributeSpelling.octets).getLast? with
      | none =>
          rw [hrest] at hb
          exact Option.some.inj hb ▸ a.quoted
      | some c => exact ih b (by rw [hrest] at hb ⊢; exact hb)

namespace TagSpelling

variable {t : TagSpelling}

/-- The names of a tag are those of its spelling. -/
theorem isPlain_tag_iff :
    t.tag.IsPlain ↔ IsElementName t.name ∧ ∀ a ∈ t.attributes, IsAttributeName a.key := by
  have hkeys : (∀ a ∈ t.tag.attributes.list, IsAttributeName a.key) ↔
      ∀ a ∈ t.attributes, IsAttributeName a.key := by
    rw [t.attributes_tag]
    exact List.forall_mem_map
  rw [← hkeys, ← t.name_tag]
  exact ⟨fun h => ⟨h.name, h.keys⟩, fun h => ⟨h.1, h.2⟩⟩

/-- The content of a plain tag ends outside quotes. -/
theorem quotingAfter?_content (h : t.tag.IsPlain) :
    Lexer.quotingAfter? .outside t.content = some .outside := by
  obtain ⟨hname, hattributes⟩ := isPlain_tag_iff.1 h
  have hkeys : ∀ a ∈ t.attributes, ∀ b ∈ a.key, IsPlainOctet b := fun a ha => (hattributes a ha).plain
  rw [content, Lexer.quotingAfter?_append, Lexer.quotingAfter?_plain hname.plain,
    Option.bind_some, Lexer.quotingAfter?_append, quotingAfter?_attributes hkeys, Option.bind_some]
  exact Lexer.quotingAfter?_plain fun b hb => Lexer.isPlainOctet_of_isBlank (t.blank b hb)

/-- A start tag does not end with a slash. -/
theorem getLast?_content (h : t.tag.IsPlain) : t.content.getLast? ≠ some 0x2F := by
  rw [content, List.getLast?_append, List.getLast?_append]
  intro hlast
  cases hblanks : t.blanks.getLast? with
  | some b =>
      have hb : isBlank b = true := t.blank b (List.mem_of_getLast? hblanks)
      rw [hblanks] at hlast
      cases hlast
      revert hb
      decide
  | none =>
      cases hattributes : (t.attributes.flatMap AttributeSpelling.octets).getLast? with
      | some b =>
          have hb := getLast?_attributes t.attributes b hattributes
          rw [hblanks, hattributes] at hlast
          cases hlast
          revert hb
          decide
      | none =>
          rw [hblanks, hattributes] at hlast
          exact h.name.last (t.name_tag ▸ hlast)

/-- A tag begins as its name does. -/
theorem exists_content_eq_cons (h : t.tag.IsPlain) :
    ∃ b rest, t.content = b :: rest ∧ b ≠ 0x21 ∧ b ≠ 0x2F ∧ b ≠ 0x3F := by
  have hname : IsElementName t.name := t.name_tag ▸ h.name
  obtain ⟨b, name, hcons⟩ := List.exists_cons_of_ne_nil hname.nonempty
  exact ⟨b, _, by rw [content, hcons, List.cons_append], hname.head b (by rw [hcons]; rfl)⟩

end TagSpelling

/-! ## Pieces -/

/-- A piece of markup. -/
inductive Markup where
  | start (t : TagSpelling) (plain : t.tag.IsPlain)
  | empty (t : TagSpelling) (plain : t.tag.IsPlain)
  | close (name blanks : Octets) (isName : IsElementName name) (blank : AllBlank blanks)
  /-- Anything else, as it stands. -/
  | aside (octets : Octets) (lexeme : Lexeme) (completes : Completes .opened octets lexeme)
    (isAside : lexeme.isAside = true)

namespace Markup

/-- What stands behind the `<`. -/
def octets : Markup → Octets
  | .start t _ => t.content ++ [0x3E]
  | .empty t _ => t.content ++ [0x2F] ++ [0x3E]
  | .close name blanks _ _ => 0x2F :: (name ++ blanks ++ [0x3E])
  | .aside octets _ _ _ => octets

/-- The lexeme of the markup. -/
def lexeme : Markup → Lexeme
  | .start t _ => .tag t.content
  | .empty t _ => .tag (t.content ++ [0x2F])
  | .close name blanks _ _ => .close (name ++ blanks)
  | .aside _ lexeme _ _ => lexeme

/-- **Markup is read as its lexeme.** -/
theorem completes (m : Markup) : Completes .opened m.octets m.lexeme := by
  cases m with
  | start t plain =>
      have htag := Lexer.readsTag_tag.completes (TagSpelling.quotingAfter?_content plain) []
      obtain ⟨b, rest, hcontent, hb⟩ := TagSpelling.exists_content_eq_cons plain
      rw [octets, lexeme]
      rw [hcontent] at htag ⊢
      exact (Lexer.completes_opened_iff hb).2 htag
  | empty t plain =>
      have hslash : Lexer.quotingAfter? .outside (t.content ++ [0x2F]) = some .outside := by
        rw [Lexer.quotingAfter?_append, TagSpelling.quotingAfter?_content plain]
        rfl
      have htag := Lexer.readsTag_tag.completes hslash []
      obtain ⟨b, rest, hcontent, hb⟩ := TagSpelling.exists_content_eq_cons plain
      rw [octets, lexeme]
      rw [hcontent] at htag ⊢
      exact (Lexer.completes_opened_iff hb).2 htag
  | close name blanks isName blank =>
      have hplain : ∀ b ∈ name ++ blanks, IsPlainOctet b := by
        rw [List.forall_mem_append]
        exact ⟨isName.plain, fun b hb => Lexer.isPlainOctet_of_isBlank (blank b hb)⟩
      exact .step rfl (Lexer.readsTag_close.completes (Lexer.quotingAfter?_plain hplain) [])
  | aside octets lexeme completes isAside => exact completes

end Markup

end RegistryGraph.Xml
