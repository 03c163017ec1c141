/-
  PromptForms.Run.Registry
  ────────────────────────
  **ACTIVE RUNS OF A PROCESS.**

  A process has at most one active run per submission.  A run holds the slot of its
  submission from its start to its end and may be asked to stop.  Each run that ever
  started has a number, by which it learns whether it has been asked.

      start, finish    take and free a slot
      cancel           ask the run in a slot to stop
      isCancelled      has a run been asked?
-/
import PromptForms.Failure

namespace PromptForms

/-- The slots of a process and the requests to stop. -/
structure Registry where
  /-- The active submissions in order of their starts, each with the number of its run. -/
  slots : List (Int × Nat) := []
  /-- For every run that ever started, by its number: was it asked to stop? -/
  flags : List Bool := []
  deriving DecidableEq, Repr

namespace Registry

/-- Is the slot of a submission taken? -/
def isActive (r : Registry) (submission : Int) : Bool := r.slots.any (·.1 == submission)

/-- The active submissions in order of their starts. -/
def active (r : Registry) : List Int := r.slots.map (·.1)

/-- Takes the slot of a submission; the run has the returned number. -/
def start (r : Registry) (submission : Int) : Except Cause (Nat × Registry) :=
  if r.isActive submission then .error (.concurrentRun submission)
  else
    let run := r.flags.length
    .ok (run, { slots := r.slots ++ [(submission, run)], flags := r.flags ++ [false] })

/-- Frees the slot of a submission, whoever holds it. -/
def finish (r : Registry) (submission : Int) : Registry :=
  { r with slots := r.slots.filter (·.1 != submission) }

/-- Asks the run in the slot of a submission to stop, and says whether there is one. -/
def cancel (r : Registry) (submission : Int) : Bool × Registry :=
  match r.slots.lookup submission with
  | some run => (true, { r with flags := r.flags.set run true })
  | none => (false, r)

/-- Has a run been asked to stop? -/
def isCancelled (r : Registry) (run : Nat) : Bool := r.flags.getD run false

end Registry

end PromptForms
