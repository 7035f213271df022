import RegistryGraph.Rpc.Message
import RegistryGraph.Text.Pieces

/-!
# Events

What a server writes into a stream of events: first the address to post to, then answers, and now and
then a sign of life.  A frame is the text of one event and ends with a blank line.
-/

namespace RegistryGraph

/-- An event. -/
inductive Event where
  /-- The address to which requests are posted. -/
  | endpoint (address : String)
  | message (response : Rpc.Response)
  /-- A sign of life, which clients ignore. -/
  | keepalive

namespace Event

/-- The fields for the data of an event, one for each of its lines. -/
def dataFields (data : String) : String :=
  .join ((Text.pieces '\n' data.toList).map fun line => "data: " ++ .ofList line ++ "\n")

/-- The frame of an event with a kind and data. -/
def frameOf (kind data : String) : String := "event: " ++ kind ++ "\n" ++ dataFields data ++ "\n"

/-- The frame of an event. -/
def frame : Event → String
  | .endpoint address => frameOf "endpoint" address
  | .message response => frameOf "message" response.serialize
  | .keepalive => ": keepalive\n\n"

end Event

end RegistryGraph
