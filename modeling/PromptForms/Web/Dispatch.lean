/-
  PromptForms.Web.Dispatch
  ────────────────────────
  **RUNS THAT REQUESTS LEAVE.**

  A request may leave a run to be started, and the settings say how.  Inline, the run
  goes with the answer and is carried out behind it; a request without an answer has
  nothing to go with.  With a queue, a message asks for the run as soon as the request
  has written its row, and whatever becomes of the answer.

      background     runs behind an answer
      followUp       runs in the way of the trigger
      serve          a request and all that follows from it
-/
import PromptForms.Run.Queue
import PromptForms.Web.Handle

namespace PromptForms.Web

/-- Carries out the runs that go with an answer, one after the other.  Nobody hears of their
failures. -/
def background (r : Runner) (handled : Handled) : Plan Unit :=
  match handled.outcome with
  | .ok _ => handled.dispatched.forM fun submission => do
    let _ ← (r.runUnattended submission).run
  | .error _ => return

/-- Carries out the runs that a request leaves; the results of messages, if there are any. -/
def followUp (trigger : Trigger) (r : Runner) (handled : Handled) :
    Plan (List (Except Failure String)) :=
  match trigger with
  | .inline => do
    background r handled
    return []
  | .queue => Queue.execute r handled.dispatched

/-- A request and all that follows from it before the next one. -/
def serve (trigger : Trigger) (r : Runner) (q : HttpRequest) : Plan (Except Failure Answer) := do
  let handled ← handle r q
  let _ ← followUp trigger r handled
  return handled.outcome

end PromptForms.Web
