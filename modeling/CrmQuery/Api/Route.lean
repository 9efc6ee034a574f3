import CrmQuery.Api.Query
import CrmQuery.Capabilities

/-!
# Routes

`respond` finds the endpoint of a path and lets it answer.  A path may end with slashes or lack
the first one, and what follows a question mark is ignored.
-/

namespace CrmQuery.Api

/-- The endpoints. -/
inductive Endpoint where
  | health
  | query
  | capabilities
  deriving DecidableEq, Repr

namespace Endpoint

/-- Every endpoint. -/
def all : List Endpoint := [health, query, capabilities]

/-- The path of an endpoint. -/
def path : Endpoint → String
  | health => "/health"
  | query => "/query"
  | capabilities => "/query/capabilities"

/-- The method that an endpoint answers. -/
def method : Endpoint → String
  | query => "POST"
  | health | capabilities => "GET"

/-- The endpoint of a path. -/
def ofPath? (path : String) : Option Endpoint :=
  let bare := path.toList.takeWhile fun c => c != '?' && c != '#'
  let rooted := if bare.head? = some '/' then bare else '/' :: bare
  let trimmed := (rooted.reverse.dropWhile (· == '/')).reverse
  named? all Endpoint.path (String.ofList trimmed)

end Endpoint

/-- The response to a request under given settings, at the time that a clock shows. -/
def respond (settings : Checked Settings) (clock : Clock) (r : Request) : Response :=
  match Endpoint.ofPath? r.path with
  | none => .note 404 "Not Found"
  | some e =>
    if e.method ≠ r.method.toUpper then .note 405 "Method Not Allowed"
    else
      match e with
      | .health => ⟨200, .object [("status", .string "ok")]⟩
      | .capabilities => ⟨200, capabilitiesJson⟩
      | .query => postQuery settings clock r

end CrmQuery.Api
