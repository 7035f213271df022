import RegistryGraph.Text.Blank
import RegistryGraph.Text.Percent

/-!
# HTTP messages

Requests and responses above the wire: a request has a method, a target, header fields and a body that
arrives in parts; a response has a status, header fields, and a text or a stream of events.
-/

namespace RegistryGraph

/-- What a request is about. -/
structure Target where
  path : String
  query : String
deriving DecidableEq, Repr

namespace Target

/-- The part of an address that starts with the path: all of it, or what follows the authority. -/
def pathAndQuery (cs : List Char) : List Char :=
  match cs with
  | '/' :: _ | '*' :: _ => cs
  | _ =>
    match cs.dropWhile (· ≠ ':') with
    | ':' :: '/' :: '/' :: rest =>
      match rest.dropWhile fun c => c ≠ '/' && c ≠ '?' with
      | '/' :: path => '/' :: path
      | query => '/' :: query
    | _ => []

/-- The target that an address stands for. A fragment is no part of it. -/
def ofAddress (s : String) : Target :=
  let cs := pathAndQuery (Text.before '#' s.toList)
  ⟨.ofList (Text.before '?' cs), .ofList (Text.behind '?' cs)⟩

/-- The value of a field of the query, which is a form; the last one if there are several. -/
def field? (t : Target) (name : String) : Option String :=
  ((Percent.formPairs t.query).reverse.find? (·.1 = name)).map (·.2)

end Target

/-- What arrives of a body. -/
inductive BodyPart where
  | data (octets : Octets)
  /-- The connection fails. -/
  | failure
deriving DecidableEq, Repr

/-- Why a body cannot be used. -/
inductive BodyFault where
  | tooLarge
  | broken
deriving DecidableEq, Repr

/-- Collects a body of at most `limit` octets behind those that have arrived. -/
def collectBody (limit : Nat) (arrived : Octets) : List BodyPart → Except BodyFault Octets
  | [] => .ok arrived
  | .failure :: _ => .error .broken
  | .data octets :: rest =>
    if limit < arrived.length + octets.length then .error .tooLarge
    else collectBody limit (arrived ++ octets) rest

/-- A request. -/
structure HttpRequest where
  method : String
  target : Target
  headers : List (String × Octets)
  body : List BodyPart
deriving Repr

namespace HttpRequest

/-- The value of the first header field with a name, which is given in lower case. -/
def header? (r : HttpRequest) (name : String) : Option Octets :=
  (r.headers.find? fun h => Text.asciiLower h.1 = name).map (·.2)

end HttpRequest

/-- The text of a header value; none if it has octets other than tabs and visible ASCII characters. -/
def headerText? (value : Octets) : Option (List Char) :=
  if value.all fun b => b = 0x09 || (0x20 ≤ b && b < 0x7F) then
    some (value.map fun b => .ofNat b.toNat)
  else none

/-- The media type in a header value, in lower case and without parameters. -/
def mediaType (value : List Char) : String :=
  Text.asciiLower (.ofList (Text.trimChars (Text.before ';' value)))

/-- The body of a response. -/
inductive HttpBody where
  | text (s : String)
  /-- The events of the stream with a number. -/
  | stream (number : Nat)
deriving DecidableEq, Repr

/-- A response. -/
structure HttpResponse where
  status : Nat
  headers : List (String × String)
  body : HttpBody
deriving DecidableEq, Repr

namespace HttpResponse

/-- A response without a body. -/
def bare (status : Nat) : HttpResponse := ⟨status, [], .text ""⟩

/-- A response with a plain text. -/
def plain (status : Nat) (text : String) : HttpResponse :=
  ⟨status, [("content-type", "text/plain; charset=utf-8")], .text text⟩

/-- A response with a JSON text. -/
def json (status : Nat) (text : String) : HttpResponse :=
  ⟨status, [("content-type", "application/json")], .text text⟩

/-- The response with further header fields. -/
def withHeaders (r : HttpResponse) (headers : List (String × String)) : HttpResponse :=
  { r with headers := r.headers ++ headers }

/-- The response with its body left out. -/
def withoutBody (r : HttpResponse) : HttpResponse := { r with body := .text "" }

end HttpResponse

end RegistryGraph
