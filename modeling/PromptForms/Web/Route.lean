/-
  PromptForms.Web.Route
  ─────────────────────
  **ENDPOINTS.**

  A path may belong to several endpoints, which differ in their methods; the first one
  with the method of the request is meant.  A path of no endpoint that would belong to
  one with a slash more or less at its end is redirected there.

      Endpoint          the endpoints with the variable parts of their paths
      endpoints         all endpoints of a path, in order
      route             what is to be done with a request
-/
import PromptForms.Text.Blank

namespace PromptForms.Web

/-- The endpoints.  Ids are still texts. -/
inductive Endpoint where
  | createForm
  | listForms
  | publicForm (token : String)
  | getForm (form : String)
  | updateForm (form : String)
  | deleteForm (form : String)
  | getPipeline (form : String)
  | savePipeline (form : String)
  | deletePipeline (form : String)
  | stepVariables (form : String)
  | submit (token : String)
  | listSubmissions (form : String)
  | stats (form : String)
  | getSubmission (submission : String)
  | rerun (submission : String)
  | cancel (submission : String)
  | deleteSubmission (submission : String)
  | health
  deriving DecidableEq, Repr

namespace Endpoint

/-- The method of an endpoint. -/
def method : Endpoint → String
  | createForm | submit _ | rerun _ | cancel _ => "POST"
  | updateForm _ | savePipeline _ => "PUT"
  | deleteForm _ | deletePipeline _ | deleteSubmission _ => "DELETE"
  | _ => "GET"

end Endpoint

/-- The endpoints below the path of submissions that have two more segments. -/
def submissionPairs (first second : String) : List Endpoint :=
  (if first = "public" then [.submit second] else []) ++
    (if first = "form" then [.listSubmissions second] else []) ++
    (if second = "rerun" then [.rerun first] else []) ++
    (if second = "cancel" then [.cancel first] else [])

/-- All endpoints of a path, given by its segments.  A variable segment is not empty. -/
def endpoints (segments : List String) : List Endpoint :=
  match segments with
  | ["api", "forms", ""] => [.createForm, .listForms]
  | ["api", "health"] => [.health]
  | "api" :: rest =>
    if rest.contains "" then []
    else match rest with
      | ["forms", "public", token] => [.publicForm token]
      | ["forms", form] => [.getForm form, .updateForm form, .deleteForm form]
      | ["pipelines", "form", form] => [.getPipeline form, .savePipeline form, .deletePipeline form]
      | ["pipelines", "form", form, "variables"] => [.stepVariables form]
      | ["submissions", "form", form, "stats"] => [.stats form]
      | ["submissions", first, second] => submissionPairs first second
      | ["submissions", submission] => [.getSubmission submission, .deleteSubmission submission]
      | _ => []
  | _ => []

/-- What is to be done with a request. -/
inductive Routing where
  | found (endpoint : Endpoint)
  | wrongMethod
  /-- The path with a slash more or less. -/
  | redirected (path : String)
  | notFound
  deriving DecidableEq, Repr

/-- The segments of a path after its first slash. -/
def segmentsOf (path : String) : List String := (Text.pieces '/' path).drop 1

/-- A path with a slash at its end if it has none, and without slashes at its end if it has. -/
def toggled (path : String) : String :=
  let reversed := path.toList.reverse
  if reversed.head? = some '/' then String.ofList (reversed.dropWhile (· == '/')).reverse
  else path ++ "/"

/-- What is to be done with a request. -/
def route (method path : String) : Routing :=
  match endpoints (segmentsOf path) with
  | [] =>
    if path != "/" && !(endpoints (segmentsOf (toggled path))).isEmpty then
      .redirected (toggled path)
    else .notFound
  | candidates => match candidates.find? (·.method == method) with
    | some endpoint => .found endpoint
    | none => .wrongMethod

end PromptForms.Web
