import CrmQuery.Interpretation
import CrmQuery.Json.Reader

/-!
# The query endpoint

A `Request` has a method, a path, headers whose names are read regardless of case, and a body; a
`Response` has a status and a JSON body.  `postQuery` answers a question that is posted with the
tenant in a header.  The text of the query and its parameters are shown only if the interpretation
exposes them.
-/

namespace CrmQuery.Api

open Checked

/-! ### Requests and responses -/

/-- What a request carries. -/
inductive Body where
  | none
  | json (value : Json)
  /-- A text that is called JSON. -/
  | raw (text : String)

/-- A request. -/
structure Request where
  method : String
  path : String
  headers : List (String × String)
  body : Body

/-- The value of a header. -/
def Request.header? (r : Request) (name : String) : Option String :=
  (r.headers.find? fun h => h.1.toLower == name).map (·.2)

/-- A response. -/
structure Response where
  status : Nat
  body : Json

/-- A response that consists of a detail. -/
def Response.detail (status : Nat) (detail : Json) : Response :=
  ⟨status, .object [("detail", detail)]⟩

/-- A response that consists of a text. -/
def Response.note (status : Nat) (text : String) : Response := .detail status (.string text)

/-! ### Posted questions -/

/-- A question as it is posted. -/
structure Posted where
  question : String
  context : Option Domain

/-- The name of the header that holds the tenant. -/
def tenantHeader : String := "x-tenant-id"

/-- The tenant of a request. -/
def tenantOf (r : Request) : Checked String :=
  under (.key "header") (under (.key tenantHeader) (match r.header? tenantHeader with
    | none => fault .missing
    | some v => Lenient.boundedString 1 v.length (.string v)))

/-- The question of a body. -/
def Posted.ofJson (v : Json) : Checked Posted :=
  match v with
  | .object _ => do
    let (question, context) ←
      both (required "query" (Lenient.boundedString 3 500) v)
        (optional "context" none (Lenient.nullable (Lenient.named Domain.all Domain.name)) v)
    return ⟨question, context⟩
  | _ => fault .noFields

/-- A text without the byte order mark that it may begin with. -/
def withoutMark (text : String) : String :=
  match text.toList with
  | '\uFEFF' :: rest => String.ofList rest
  | _ => text

/-- The value that a body holds, if it holds any; a text of more digits than can be read makes no
value at all. -/
def bodyValue (b : Body) : Except Response (Checked (Option Json)) :=
  match b with
  | .none => .ok (.ok none)
  | .json v => .ok (.ok (some v))
  | .raw text =>
    if text.isEmpty then .ok (.ok none)
    else
      match Json.read (withoutMark text) with
      | .ok v => .ok (.ok (some v))
      | .error (.malformed pos) => .ok (under (.index pos) (fault .malformedJson))
      | .error (.numeralTooLong _) => .error (.note 400 "There was an error parsing the body")

/-- The question that a body holds. -/
def postedOf (value : Option Json) : Checked Posted :=
  match value with
  | none => fault .missing
  | some v => Posted.ofJson v

/-- The response to a request with faults. -/
def refuse (faults : List Fault) : Response := .detail 422 (.array (faults.map Fault.toJson))

/-- A classification as it is shown. -/
def classificationJson (c : Classification) : Json :=
  .object [
    ("query_type", .string c.domain.name),
    ("intent", .string c.intent.name),
    ("interpreted_query", .string c.interpretedQuery),
    ("entities", .object c.entities),
    ("filters", .array (c.filters.map Filter.toJson)),
    ("timeframe", Json.ofOption Timeframe.toJson c.timeframe),
    ("confidence", .float c.confidence),
    ("language", .string c.language.name),
    ("low_confidence", .bool c.isAmbiguous)]

/-- The query of an interpretation as it is shown: with the text that may be shown, and with its
parameters if the query is exposed. -/
def queryJson (r : Interpretation) (q : Sql.Query) : Json :=
  .object [
    ("sql", Json.ofOption .string r.visibleSql),
    ("params", .array (if r.sqlExposed then q.params else [])),
    ("tables", Json.strings q.tables),
    ("visualization_type", .string q.visualization.name),
    ("expected_columns", Json.strings q.expectedColumns)]

/-- An interpretation as it is shown. -/
def interpretationJson (r : Interpretation) : Json :=
  .object [
    ("query", .string r.question),
    ("success", .bool r.success),
    ("classification", Json.ofOption classificationJson r.classification),
    ("built_query", Json.ofOption (queryJson r) r.query),
    ("error_code", Json.ofOption (fun e => .string e.code) r.refusal),
    ("input_errors", Json.strings (r.inputFaults.map InputFault.message)),
    ("warnings", Json.strings r.warnings),
    ("explanation", .string r.explanation),
    ("suggestions", Json.strings r.suggestions)]

/-- The response to a well-formed question. -/
def answer (settings : Checked Settings) (clock : Clock) (tenant : String) (p : Posted) :
    Response :=
  let failure := Response.note 500 "Failed to process query"
  match settings with
  | .error _ => failure
  | .ok settings =>
    match interpret settings p.question tenant p.context clock with
    | .ok r => ⟨200, interpretationJson r⟩
    | .error _ => failure

/-- The response to a posted question.  A body that is no JSON is refused before the header is
looked at; otherwise the faults of the header come first. -/
def postQuery (settings : Checked Settings) (clock : Clock) (r : Request) : Response :=
  match bodyValue r.body with
  | .error response => response
  | .ok (.error faults) => refuse (faults.map fun f => { f with path := .key "body" :: f.path })
  | .ok (.ok value) =>
    match both (tenantOf r) (under (.key "body") (postedOf value)) with
    | .error faults => refuse faults
    | .ok (tenant, posted) => answer settings clock tenant posted

end CrmQuery.Api
