/-
  PromptForms.Web.Action
  ──────────────────────
  **READING REQUESTS.**

  An endpoint and a request together are an action, with every id, number and document
  in it checked.  A request that is not understood is refused with all issues of its
  query, its path and its body, in that order; a body that is no JSON is refused at once.

      HttpRequest       a request
      Action            what a request asks for
      readAction        a request as an action, or why it is refused
-/
import PromptForms.Form.Draft
import PromptForms.Json.Reader
import PromptForms.Pipeline.Step
import PromptForms.Service.Submissions
import PromptForms.Web.Address
import PromptForms.Web.Route

namespace PromptForms.Web

open Schema

/-! ## §1. Requests. -/

/-- A request. -/
structure HttpRequest where
  method : String
  /-- The path and perhaps a query, as they came. -/
  target : String
  /-- Names in any case, each once. -/
  headers : List (String × String) := []
  /-- The name under which the server is addressed. -/
  host : String := "localhost"
  /-- Where the request comes from, if that is known. -/
  client : Option String := none
  body : String := ""

/-- A text in lower case, as far as it is ASCII. -/
def lowered (s : String) : String := String.ofList (s.toList.map Char.toLower)

/-- The value of a header. -/
def HttpRequest.header? (q : HttpRequest) (name : String) : Option String :=
  (q.headers.find? fun pair => lowered pair.1 == name).map (·.2)

/-- Is a media type one of JSON? -/
def isJsonType (value : String) : Bool :=
  let type := lowered (Text.trim (String.ofList (value.toList.takeWhile (· != ';'))))
  match Text.pieces '/' type with
  | ["application", kind] => kind == "json" || "nosj+".toList.isPrefixOf kind.toList.reverse
  | _ => false

/-- Why a request is refused. -/
inductive Refusal where
  | invalid (issues : List Issue)
  /-- The body cannot be read at all. -/
  | unreadable
  /-- Reading the request fails for another reason. -/
  | failed (failure : Failure)

/-- A text without the byte order mark that may stand in front of it. -/
def withoutMark (text : String) : String :=
  match text.toList with
  | '\uFEFF' :: rest => String.ofList rest
  | _ => text

/-- The document in the body; none if there is no body.  A body of another type is no document
of any use, and is taken as a text. -/
def HttpRequest.document (q : HttpRequest) : Except Refusal (Option Json) :=
  if q.body.isEmpty then .ok none
  else if !isJsonType ((q.header? "content-type").getD "") then .ok (some (.str q.body))
  else match Json.read (withoutMark q.body) with
    | .ok value => .ok (some value)
    | .error (.malformed position) => .error (.invalid [⟨["body", toString position], .notJson⟩])
    | .error .hugeInteger => .error .unreadable

/-! ## §2. Parts of a request. -/

/-- A number in the path. -/
def pathNumber (name part : String) : Checked Int := ((int (.str part)).under name).under "path"

/-- A value in the query. -/
def queryValue {α : Type} (t : Target) (name : String) (default : α) (check : Json → Checked α) :
    Checked α :=
  match t.query? name with
  | some value => ((check (.str value)).under name).under "query"
  | none => .good default

/-- A document in the body. -/
def bodyDocument {α : Type} (document : Option Json) (check : Json → Checked α) : Checked α :=
  match document with
  | some value => (check value).under "body"
  | none => (Checked.fault .missing).under "body"

/-- The part of a list that is asked for. -/
structure Page where
  skip : Int
  limit : Int
  deriving DecidableEq, Repr

/-- The part of a list that the query asks for. -/
def pageOf (t : Target) : Checked Page :=
  Page.mk <$> queryValue t "skip" 0 (intFrom 0) <*> queryValue t "limit" 100 (intBetween 1 1000)

/-- The data of a submission. -/
def submittedData (value : Json) : Checked Members :=
  (record value).andThen fun m => m.optional "data" [] dictionary

/-! ## §3. Actions. -/

/-- What a request asks for if its answer is a submission that is to be run. -/
inductive Start where
  | submit (token : String) (data : Members) (sender : Submissions.Sender)
  | rerun (submission : Int)

/-- What a request asks for. -/
inductive Action where
  | createForm (draft : FormDraft)
  | listForms (page : Page)
  | publicForm (token : String)
  | getForm (form : Int)
  | updateForm (form : Int) (patch : FormPatch)
  | deleteForm (form : Int)
  | getPipeline (form : Int)
  | savePipeline (form : Int) (draft : PipelineDraft)
  | deletePipeline (form : Int)
  | stepVariables (form step : Int)
  | start (what : Start)
  | listSubmissions (form : Int) (status : Option Status) (page : Page)
  | stats (form : Int)
  | getSubmission (submission : Int)
  | cancel (submission : Int)
  | deleteSubmission (submission : Int)
  | health

/-- Does an endpoint read the body? -/
def Endpoint.hasBody : Endpoint → Bool
  | createForm | updateForm _ | savePipeline _ | submit _ => true
  | _ => false

/-- The parts of a request that an endpoint needs. -/
def Endpoint.check (q : HttpRequest) (t : Target) (document : Option Json) :
    Endpoint → Checked Action
  | createForm => .createForm <$> bodyDocument document FormDraft.check
  | listForms => .listForms <$> pageOf t
  | publicForm token => .good (.publicForm token)
  | getForm form => .getForm <$> pathNumber "form_id" form
  | updateForm form =>
    .updateForm <$> pathNumber "form_id" form <*> bodyDocument document FormPatch.check
  | deleteForm form => .deleteForm <$> pathNumber "form_id" form
  | getPipeline form => .getPipeline <$> pathNumber "form_id" form
  | savePipeline form =>
    .savePipeline <$> pathNumber "form_id" form <*> bodyDocument document PipelineDraft.check
  | deletePipeline form => .deletePipeline <$> pathNumber "form_id" form
  | stepVariables form =>
    .stepVariables <$> pathNumber "form_id" form <*> queryValue t "step_number" 1 (intFrom 1)
  | submit token =>
    (fun data => .start (.submit token data ⟨q.client, q.header? "user-agent"⟩)) <$>
      bodyDocument document submittedData
  | listSubmissions form =>
    (fun page form status => .listSubmissions form status page) <$> pageOf t <*>
      pathNumber "form_id" form <*>
      queryValue t "status" none (fun value => (Status.check value).map some)
  | stats form => .stats <$> pathNumber "form_id" form
  | getSubmission submission => .getSubmission <$> pathNumber "submission_id" submission
  | rerun submission => (fun id => .start (.rerun id)) <$> pathNumber "submission_id" submission
  | cancel submission => .cancel <$> pathNumber "submission_id" submission
  | deleteSubmission submission => .deleteSubmission <$> pathNumber "submission_id" submission
  | health => .good .health

/-- A request to an endpoint as an action, or why it is refused. -/
def readAction (q : HttpRequest) (endpoint : Endpoint) : Except Refusal Action := do
  let document ← if endpoint.hasBody then q.document else .ok none
  match (endpoint.check q (Target.ofText q.target) document).orFail with
  | .ok action => return action
  | .error (.invalid issues) => throw (.invalid issues)
  | .error failure => throw (.failed failure)

end PromptForms.Web
