/-
  PromptForms.Proofs.Rejections
  ─────────────────────────────
  **REJECTED REQUESTS CHANGE NOTHING.**

  A request may be rejected for its path, its body, the rows that it names, or what these
  rows are doing.  Each operation tests all of this before its one statement that writes,
  and what an operation may still meet after that statement is answered as a failure of
  the server, if at all.  So a request with an answer from 400 to 499 has written nothing.

      Web.Handled.Rejected     the request was answered with a status from 400 to 499
      Lifecycle.Cautioned      how a task has to end

  Main result:
    • `rejections_change_nothing` — for a request by itself in any world, and for every
      request in every scene that can be reached.
-/
import PromptForms.Proofs.Refusals
import PromptForms.Proofs.Served

namespace PromptForms

/-! ## §1. Rejected requests. -/

/-- The request was answered with a status from 400 to 499. -/
def Web.Handled.Rejected (handled : Web.Handled) : Prop :=
  ∃ answer, handled.outcome = .ok answer ∧ 400 ≤ answer.status ∧ answer.status < 500

instance (handled : Web.Handled) : Decidable handled.Rejected :=
  decidable_of_iff (handled.outcome.toOption.any fun answer =>
      decide (400 ≤ answer.status) && decide (answer.status < 500)) (by
    unfold Web.Handled.Rejected
    cases handled.outcome with
    | ok answer => simp [Except.toOption]
    | error e => simp [Except.toOption])

namespace Lifecycle

variable {b : Prop}

/-- The status tells that a request was rejected. -/
def Rejecting (status : Nat) : Prop := 400 ≤ status ∧ status < 500

theorem noSuccess_rejecting : NoSuccess Rejecting := by
  intro status hs hr
  obtain ⟨hlow, -⟩ := hr
  omega

/-- A request that is rejected has written nothing and starts nothing.  Among interleaved threads
this is not known of a rerun: the row that it has restarted may be gone when it reads it. -/
def Cautioned (b : Prop) : Task → Ending → Deeds → Prop
  | .request _ q, .handled handled, g =>
    handled.Rejected → (b → ∀ id, ¬q.Asks (.start (.rerun id))) →
      WritesNothing g ∧ handled.dispatched = []
  | _, _, _ => True

theorem cautioned_request (r : Runner) (q : Web.HttpRequest) (w : World) :
    (lifecycle b).Meets (Task.request r q).plan
      (fun ending g _ => Cautioned b (.request r q) ending g) [] w := by
  apply (Contract.meets_bind ..).2
  by_cases halone : b → ∀ id, ¬q.Asks (.start (.rerun id))
  · refine Contract.Meets.mono (fun handled g w h hrejected _ => h hrejected) _ [] w
      (meets_handle noSuccess_rejecting r (fun id hasks hb => ?_) w)
    exact absurd hasks (halone hb id)
  · -- Such a rerun keeps to the contract like any other request.
    refine Contract.Meets.mono (fun handled g w _ _ h => absurd h halone) _ [] w
      (meets_handle noSuccess_contested r (fun _ _ _ => by decide) w)

theorem cautioned_task (task : Task) (w : World) :
    (lifecycle b).Meets task.plan (fun ending g _ => Cautioned b task ending g) [] w := by
  cases task with
  | request r q => exact cautioned_request r q w
  | run | newAttempt | rerun | cancel =>
    exact Contract.Meets.mono (fun _ _ _ _ => trivial) _ [] w (meets_task _ w)

/-- **The agreement** of all tasks, with rejections in place of conflicts. -/
def rejecters (b : Prop) : Agreement (traffic b) (lifecycle b) :=
  (travellers b).ending (fun task ending g _ => Cautioned b task ending g)
    (fun _ _ _ _ _ h _ => h) fun task _ _ w' _ _ _ => cautioned_task task w'

end Lifecycle

/-- A request by itself that is rejected has changed nothing. -/
theorem Backend.serve_rejected {b : Backend} {r : Runner} {q : Web.HttpRequest} {w : World}
    {sent : List Request} (h : (b.serve r q w sent).1.Rejected) :
    (b.serve r q w sent).2.1.store = w.store ∧ (b.serve r q w sent).1.dispatched = [] := by
  have hmeets := Lifecycle.meets_handle (b := False) Lifecycle.noSuccess_rejecting r (q := q)
    (fun _ _ hinterleaved => hinterleaved.elim) w
  have hends := b.serve_of_meets sent (C := lifecycle False) (fun _ _ => .inr ⟨rfl, rfl⟩)
    (fun _ _ _ => trivial) hmeets
  obtain ⟨hwrites, hdispatched⟩ := hends h
  exact ⟨store_of_writesNothing _ w sent hwrites, hdispatched⟩

/-! ## §2. The result. -/

/-- **Rejected requests change nothing.**

  1. A request by itself, in any world, sends nothing to the generator; if it is rejected, then all
     tables are as they were, and no run is to be started.
  2. In every scene that can be reached from an empty store, whether threads take turns or their
     statements are interleaved in any way, no request is going to ask the generator for anything;
     and a request that was rejected has written nothing, and no run is to be started.  Among
     interleaved threads a rerun may lose the row that it has just restarted. -/
theorem rejections_change_nothing :
    (∀ (b : Backend) (r : Runner) (q : Web.HttpRequest) (w : World) (sent : List Request),
      (b.serve r q w sent).2.2 = sent ∧
        ((b.serve r q w sent).1.Rejected →
          (b.serve r q w sent).2.1.store = w.store ∧ (b.serve r q w sent).1.dispatched = [])) ∧
    (∀ (interleaved : Prop) (start : World) (s : Scene), start.store = {} →
      Scene.Reaches (traffic interleaved) { world := start } s →
      ∀ (i : Nat) (r : Runner) (q : Web.HttpRequest) (plan : Plan Ending),
        s.threads[i]? = some ⟨.request r q, plan⟩ →
        plan.Silent ∧ ∀ handled, plan = .done (.handled handled) → handled.Rejected →
          (interleaved → ∀ id, ¬q.Asks (.start (.rerun id))) →
          WritesNothing (deedsOf i s.log) ∧ handled.dispatched = []) := by
  refine ⟨fun b r q w sent => ⟨b.sent_serve r q, fun h => b.serve_rejected h⟩, ?_⟩
  intro interleaved start s hempty hs i r q plan hi
  refine ⟨hs.silent_request hi, ?_⟩
  rintro handled rfl hrejected hrerun
  have hsafe := Agreement.safe_of_reaches (Lifecycle.rejecters interleaved) (.empty hempty) hs
  exact hsafe.ends hi hrejected hrerun

namespace Rejections

open Served (idle sending)

/-- There is a form. -/
def created : World :=
  (idle.serve Audit.runner (sending "POST" "/api/forms/" "\x7b\"name\": \"Poem\"\x7d")
    Audit.start []).2.1

/-- The form gets another name, it is closed, and it gets a field with a name of the program's
own. -/
def reserving : Web.HttpRequest :=
  let field := "\x7b\"id\": \"all_fields\", \"type\": \"text\", \"label\": \"All\"\x7d"
  sending "PUT" "/api/forms/1"
    ("\x7b\"name\": \"Prose\", \"is_active\": false, \"fields\": [" ++ field ++ "]\x7d")

end Rejections

open Rejections Served in
/-- The name and the state of activity are as they were. -/
theorem rejections_change_nothing_reserved :
    (idle.serve Audit.runner reserving created []).2.1.store.forms.map
      (fun row => (row.name, row.isActive)) = [("Poem", true)] := by
  have hrejected : (idle.serve Audit.runner reserving created []).1.Rejected := by decide +kernel
  obtain ⟨-, hunchanged⟩ := rejections_change_nothing.1 idle Audit.runner reserving created []
  rw [(hunchanged hrejected).1]
  decide +kernel

end PromptForms
