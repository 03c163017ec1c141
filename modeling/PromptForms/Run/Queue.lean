/-
  PromptForms.Run.Queue
  ─────────────────────
  **THE QUEUE OF RUNS.**

  With the queue trigger, runs are requested by messages.  A queue is bound to an
  exchange by the last part of its dotted name.  What goes wrong with a message stays in
  its result, which nobody waits for.

      routingKey      the part of a queue name that messages carry
      Binding         how a queue is declared
      runSubmission   what a message asks for
      execute         carries out messages
-/
import PromptForms.Run.Runner
import PromptForms.Settings

namespace PromptForms.Queue

/-! ## §1. Queues. -/

/-- The part of a queue name after its last point. -/
def routingKey (queue : String) : String :=
  String.ofList (queue.toList.reverse.takeWhile (· != '.')).reverse

/-- How a queue is declared at the broker. -/
structure Binding where
  url : String
  exchange : String
  queue : String
  key : String
  deriving DecidableEq, Repr

/-- The binding of a queue; without a name it is the queue of the settings. -/
def bindingOf (settings : Settings) (name : Option String) : Binding :=
  let given := name.getD ""
  let queue := if given.isEmpty then settings.queue else given
  { url := settings.amqpUrl, exchange := settings.rabbitExchange, queue, key := routingKey queue }

/-- The document of a binding. -/
def Binding.toJson (b : Binding) : Json :=
  .obj [("url", .str b.url), ("exchange_name", .str b.exchange), ("exchange_type", .str "direct"),
    ("queue_name", .str b.queue), ("routing_key", .str b.key), ("declare_exchange", .bool true),
    ("declare_queues", .bool true)]

/-! ## §2. Messages. -/

/-- What a message asks for: the run of a submission.  Its value is the word for the final
status. -/
def runSubmission (r : Runner) (submission : Int) : Job String := do
  let row ← r.run submission
  return row.status.name

/-- Carries out messages one after the other; there is a result for each of them. -/
def execute (r : Runner) (messages : List Int) : Plan (List (Except Failure String)) :=
  messages.mapM fun submission => (runSubmission r submission).run

end PromptForms.Queue
