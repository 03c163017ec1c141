/-
  PromptForms.Generation.Messages
  ───────────────────────────────
  **GENERATING TEXT WITH A MESSAGE SERVICE.**

  A prompt is sent as the one message of a user.  The service answers with blocks, of
  which the text blocks together are the generated text, or it fails.  Its own errors
  become refusals with their name; other errors are passed on as they are.

      Client.payload   what is sent
      Client.receive   what an answer means
-/
import PromptForms.Run.Plan

namespace PromptForms.Generation

/-- A block of an answer. -/
structure Block where
  type : String
  text : String := ""
  deriving DecidableEq, Repr

/-- What comes back from the service. -/
inductive Answer where
  | message (model : String) (blocks : List Block) (inputTokens outputTokens : Int)
  /-- The service cannot be reached. -/
  | unreachable
  /-- The service does not answer in time. -/
  | late
  /-- The service reports an error of its own. -/
  | serviceError (name message : String)
  /-- Another error on the way. -/
  | otherError (name message : String)
  deriving DecidableEq, Repr

/-- A generated text. -/
structure Generated where
  text : String
  model : String
  tokenCount : Int
  deriving DecidableEq, Repr

/-- A client of the service; without a key it refuses every request. -/
structure Client where
  hasKey : Bool
  maxTokens : Int
  deriving DecidableEq, Repr

namespace Client

/-- The client that the settings describe. -/
def ofKey (key : Option String) (maxTokens : Int) : Client :=
  ⟨!(key.getD "").isEmpty, maxTokens⟩

/-- Why a client without a key refuses. -/
def missingKey : String := "Anthropic API key is not configured (set FORMCHAIN_ANTHROPIC_API_KEY)"

/-- What is sent for a request. -/
def payload (c : Client) (request : Request) : Json :=
  .obj [("model", .str request.model), ("max_tokens", .int c.maxTokens),
    ("messages", .arr [.obj [("role", .str "user"), ("content", .str request.prompt)]])]

/-- The wording for a service that does not answer in time. -/
def lateMessage : String :=
  "Request timed out or interrupted. This could be due to a network timeout, dropped connection, " ++
    "or request cancellation. See https://docs.anthropic.com/en/api/errors#long-requests for more " ++
    "details."

/-- The generated text of an answer, or the failure that it is. -/
def receive : Answer → Except Failure Generated
  | .message model blocks inputTokens outputTokens =>
    .ok ⟨"".intercalate ((blocks.filter (·.type == "text")).map (·.text)), model,
      inputTokens + outputTokens⟩
  | .unreachable => refuse "APIConnectionError: Connection error."
  | .late => refuse ("APITimeoutError: " ++ lateMessage)
  | .serviceError name message => refuse s!"{name}: {message}"
  | .otherError name message => .error (.outside name message)
where
  /-- A refusal. -/
  refuse (message : String) : Except Failure Generated :=
    .error (Failure.ofCause (.generation message))

/-- A request of a client, answered by the service; without a key nothing is sent. -/
def generate (c : Client) (answer : Answer) : Except Failure Generated :=
  if c.hasKey then receive answer else .error (Failure.ofCause (.generation missingKey))

/-- What a client without a key answers to a step. -/
def withoutKey : Outcome := .refused missingKey

end Client

end PromptForms.Generation
