import Stylus.Failure
import Stylus.Document.Record

/-!
# Replies

Every request is answered by one line of text: a success, with a result if there is something to
say, or a failure with the kind and the wording of its cause.
-/

set_option autoImplicit false

namespace Stylus

/-- Kind and wording of a cause. -/
structure Refusal where
  kind : String
  message : String
deriving DecidableEq, Repr

/-- The answer to a request. -/
structure Response where
  success : Bool
  /-- the name that the client gave with the request -/
  id : Option String := none
  result : Option Json := none
  error : Option Refusal := none

namespace Refusal

/-- A failure as it is told to a client. -/
def ofFailure (f : Failure) : Refusal :=
  ⟨f.kind, f.message⟩

/-- A refusal as a document. -/
def toJson (r : Refusal) : Json :=
  .table [("kind", .text r.kind), ("message", .text r.message)]

/-- The members of a refusal in a document. -/
def record : Record Refusal :=
  Refusal.mk <$> Record.required "kind" Reader.text <*> Record.required "message" Reader.text

end Refusal

namespace Response

/-- A success. -/
def ok (result : Option Json) : Response :=
  { success := true, result }

/-- A refused request. -/
def refused (r : Refusal) : Response :=
  { success := false, error := some r }

/-- A failed request. -/
def failed (f : Failure) : Response :=
  refused (.ofFailure f)

/-- The answer to whatever came out. -/
def ofResult : Except Failure (Option Json) → Response
  | .ok result => ok result
  | .error f => failed f

/-- The same answer under a name. -/
def withId (response : Response) (id : Option String) : Response :=
  { response with id }

/-- An answer as a document; what there is not is left out. -/
def toJson (response : Response) : Json :=
  .table <|
    [("success", .boolean response.success)]
      ++ (response.id.map fun id => ("id", Json.text id)).toList
      ++ (response.result.map fun result => ("result", result)).toList
      ++ (response.error.map fun error => ("error", error.toJson)).toList

/-- The line of an answer, without the newline. -/
def text (response : Response) : String :=
  response.toJson.compact

/-- The line of an answer. -/
def line (response : Response) : String :=
  response.text ++ "\n"

/-- The members of an answer in a document. -/
def record : Record Response :=
  Response.mk
    <$> Record.required "success" Reader.boolean
    <*> Record.defaulted "id" none (Reader.optional Reader.text)
    <*> Record.defaulted "result" none (Reader.optional Reader.json)
    <*> Record.defaulted "error" none (Reader.optional (Refusal.record.reader "struct ErrorBody"))

/-- An answer in a document. -/
def reader : Reader Response :=
  record.reader "struct ClientResponse"

end Response

end Stylus
