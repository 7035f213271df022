import RegistryGraph.Rpc.Dispatch

/-!
# Conversations

A conversation on one context: every line of the input is a message, and every response is a line of the
output.  Lines are trimmed, and blank lines are left out.  The conversation ends with the input, or at a
line that is no text.
-/

namespace RegistryGraph.Rpc.Conversation

/-- Cuts octets into lines. Every line but the last keeps the line feed at its end. -/
def lines : Octets → List Octets
  | [] => []
  | b :: rest =>
    if b = 0x0A then [b] :: lines rest
    else
      match lines rest with
      | [] => [[b]]
      | line :: others => (b :: line) :: others

/-- What a line adds to the output. -/
def answerLine (ctx : ToolContext) (uptime : Nat) (stats : Statistics) (line : Octets) :
    Except IoFault (Statistics × String) :=
  match Utf8.decode line with
  | .error fault => .error (.encoding fault)
  | .ok s =>
    let message := Text.trim s
    if message.isEmpty then .ok (stats, "")
    else
      match Dispatch.handle ctx uptime stats (Utf8.encode message) with
      | (stats, some response) => .ok (stats, response.serialize ++ "\n")
      | (stats, none) => .ok (stats, "")

/-- The outputs of the lines, and the fault that ends the conversation early, if there is one. -/
def answerLines (ctx : ToolContext) (uptime : Nat) (stats : Statistics) :
    List Octets → List String × Option IoFault
  | [] => ([], none)
  | line :: rest =>
    match answerLine ctx uptime stats line with
    | .error fault => ([], some fault)
    | .ok (stats, output) =>
      let (outputs, fault) := answerLines ctx uptime stats rest
      (output :: outputs, fault)

/-- The output of a conversation with the given input. -/
def run (ctx : ToolContext) (uptime : Nat) (input : Octets) : String × Option IoFault :=
  let (outputs, fault) := answerLines ctx uptime .zero (lines input)
  (String.join outputs, fault)

end RegistryGraph.Rpc.Conversation
