import RegistryGraph.Cli.Program

/-!
# The executable

Carries out on the real file system and the standard streams what the library decides.
-/

namespace RegistryGraph.Main

/-- What an error of the system means for the path that was read. -/
def faultOf : IO.Error → FileFault
  | .noFileOrDirectory .. => .notFound
  | .inappropriateType _ code _ => if code = 21 then .isADirectory else .notADirectory
  | .permissionDenied _ code details => .refused code.toNat details
  | e => .refused 5 (toString e)

/-- Carries out a computation that reads files. -/
def perform {α : Type} : Reading α → IO α
  | .done a => pure a
  | .read path next => do
    let answer ←
      try
        let content ← IO.FS.readBinFile path
        pure (Except.ok content.toList)
      catch e => pure (Except.error (faultOf e))
    perform (next answer)

/-- Reads octets up to the end of a line or of the input, behind those in `line` (latest first). -/
partial def nextLine (input : IO.FS.Stream) (line : Octets) : IO Octets := do
  match (← input.read 1).toList with
  | [] => return line.reverse
  | b :: _ => if b = 0x0A then return (b :: line).reverse else nextLine input (b :: line)

/-- Answers the lines of the input, each at once. -/
partial def converse (ctx : ToolContext) (start : Nat) (stats : Rpc.Statistics)
    (input output : IO.FS.Stream) : IO (Option IoFault) := do
  let line ← nextLine input []
  if line.isEmpty then return none
  let uptime := ((← IO.monoMsNow) - start) / 1000
  match Rpc.Conversation.answerLine ctx uptime stats line with
  | .error fault => return some fault
  | .ok (stats, text) =>
    output.putStr text
    output.flush
    converse ctx start stats input output

/-- Writes an outcome and delivers its code. -/
def report (outcome : Cli.Outcome) : IO UInt32 := do
  IO.print outcome.output
  IO.eprint outcome.diagnostic
  return outcome.code.toUInt32

/-- Runs the program. A service needs a transport, and this executable has none. -/
def run (arguments : List String) : IO UInt32 := do
  match ← perform (Cli.start (arguments.map Utf8.encode)) with
  | .finished outcome => report outcome
  | .converse ctx =>
    match ← converse ctx (← IO.monoMsNow) .zero (← IO.getStdin) (← IO.getStdout) with
    | none => return 0
    | some fault => report (.failure "" (.io fault))
  | .listen .. =>
    IO.eprintln "There is no transport to serve with."
    return 1

end RegistryGraph.Main

/-- The entry of the program. -/
def main (arguments : List String) : IO UInt32 := RegistryGraph.Main.run arguments
