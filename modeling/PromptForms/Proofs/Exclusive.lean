/-
  PromptForms.Proofs.Exclusive
  ────────────────────────────
  **ONE EXECUTION PER ATTEMPT.**

  Runs, reruns and new attempts of one submission begin in any process and as often as
  one likes, and their statements are interleaved in any way.  What a run knows of the
  status is old by the time it tries to change it; still only one run at a time holds the
  submission, and a run that comes too late does no harm.

      rivalry           the setting
      exclusive         what the tasks on one submission may do and put up with
      rivals            the agreement of these tasks

  Main result:
    • `single_execution` — in every scene that can be reached, at most one thread holds
      the submission, only a holder moves it out of `processing`, there are at most as
      many claims as attempts, and a run that loses reports it and writes nothing.
-/
import PromptForms.Proofs.Outline
import PromptForms.Proofs.Register
import PromptForms.Proofs.Statements

namespace PromptForms

/-! ## §1. The contract. -/

/-- The submission is there. -/
def Present (id : Int) (w : World) : Prop := ∃ row, w.store.submissions.get? id = some row

/-- A task makes no other move than those that `Deed.Move` lists.  Around it anything may happen
to the world, except that the submission stays, and stays in `processing` while it is held. -/
def exclusive (id : Int) : Contract where
  allows g d := (Present id d.before → Present id d.after) ∧ d.Move id g
  calm g w w' := (Present id w → Present id w') ∧
    (Deeds.Holds id g → w.status? id = some .processing → w'.status? id = some .processing)
  pause g w w' := (Present id w → Present id w') ∧
    (Deeds.Holds id g → w.status? id = some .processing → w'.status? id = some .processing)

/-- A conflict with another run, or a status that does not lead where the task wants to go. -/
def Refused (id : Int) (e : Failure) : Prop :=
  e = Failure.ofCause (.concurrentRun id) ∨
    ∃ current target, e = Failure.ofCause (.statusTransition current target)

/-- The row of the submission was this one before one of the deeds. -/
def Saw (id : Int) (row : SubmissionRow) (g : Deeds) : Prop :=
  ∃ d ∈ g, d.before.store.submissions.get? id = some row

/-- The steps of the form of the submission could not be read. -/
def StepsUnreadable (id : Int) (g : Deeds) (e : Failure) : Prop :=
  ∃ row, Saw id row g ∧ ∃ d ∈ g, d.before.store.activeSteps row.formId = .error e

/-- How a run loses. -/
def Loses (id : Int) (g : Deeds) (e : Failure) : Prop := Refused id e ∨ StepsUnreadable id g e

/-- None of the deeds writes. -/
def WritesNothing (g : Deeds) : Prop := ∀ d ∈ g, d.after.store = d.before.store

/-- One of the deeds claims the submission. -/
def Claimed (id : Int) (g : Deeds) : Prop := ∃ d ∈ g, d.claims id

namespace Exclusive

variable {id : Int} {g g₀ g₁ : Deeds} {d : Deed} {w w' : World}

theorem present_of_submissions_eq (h : w'.store.submissions = w.store.submissions)
    (hp : Present id w) : Present id w' := by
  unfold Present
  rw [h]
  exact hp

theorem progress?_of_submissions_eq (h : w'.store.submissions = w.store.submissions) :
    w'.progress? id = w.progress? id := by
  unfold World.progress?
  rw [h]

theorem writesNothing_concat (hg : WritesNothing g) (hd : d.after.store = d.before.store) :
    WritesNothing (g ++ [d]) := by
  intro e he
  rcases List.mem_append.1 he with he | he
  · exact hg e he
  · rw [List.mem_singleton.1 he]
    exact hd

theorem claimed_concat (hg : Claimed id g) : Claimed id (g ++ [d]) := by
  obtain ⟨e, he, hc⟩ := hg
  exact ⟨e, List.mem_append_left _ he, hc⟩

/-! ## §2. The conditions on the way. -/

/-- After the deeds `g₀`, only deeds with a property were done. -/
def Since (g₀ g : Deeds) (P : Deeds → Prop) : Prop := ∃ g₁, g = g₀ ++ g₁ ∧ P g₁

theorem since_concat {P P' : Deeds → Prop} (h : Since g₀ g P) (hP : ∀ g₁, P g₁ → P' (g₁ ++ [d])) :
    Since g₀ (g ++ [d]) P' := by
  obtain ⟨g₁, rfl, hg⟩ := h
  exact ⟨g₁ ++ [d], List.append_assoc .., hP g₁ hg⟩

/-- The run has written nothing so far. -/
def idle (id : Int) (g₀ g : Deeds) (w : World) : Prop := Present id w ∧ Since g₀ g WritesNothing

/-- The run has read the row and has written nothing so far. -/
def seen (id : Int) (g₀ : Deeds) (row : SubmissionRow) (g : Deeds) (w : World) : Prop :=
  Present id w ∧ Since g₀ g fun g₁ => WritesNothing g₁ ∧ Saw id row g₁

/-- The run holds the submission. -/
def held (id : Int) (g₀ : Deeds) (row : SubmissionRow) (g : Deeds) (w : World) : Prop :=
  (row.id = id ∧ Deeds.Holds id g ∧ w.status? id = some .processing) ∧ Since g₀ g (Claimed id)

/-- The run has claimed the submission. -/
def closed (id : Int) (g₀ g : Deeds) (w : World) : Prop := Present id w ∧ Since g₀ g (Claimed id)

/-- The run has lost. -/
def lost (id : Int) (g₀ : Deeds) (e : Failure) (g : Deeds) (w : World) : Prop :=
  Present id w ∧ Since g₀ g fun g₁ => WritesNothing g₁ ∧ Loses id g₁ e

/-- The run has claimed the submission or lost. -/
def ended (id : Int) (g₀ : Deeds) (res : Except Failure SubmissionRow) (g : Deeds) (_ : World) :
    Prop :=
  Since g₀ g fun g₁ => Claimed id g₁ ∨ ∃ e, res = .error e ∧ WritesNothing g₁ ∧ Loses id g₁ e

/-- A deed that keeps the submissions is allowed. -/
theorem leads_of_submissions_eq {P : Deeds → World → Prop}
    (hsub : d.after.store.submissions = d.before.store.submissions)
    (hP : ∀ w, (exclusive id).calm (g ++ [d]) d.after w → P (g ++ [d]) w) :
    (exclusive id).Leads P g d :=
  ⟨⟨present_of_submissions_eq hsub, .stay (progress?_of_submissions_eq hsub)⟩, hP⟩

/-- A condition on the deeds since `g₀` survives statements that keep the store. -/
theorem quiet_since {P : Deeds → Prop}
    (hP : ∀ g₁ d, P g₁ → d.after.store = d.before.store → P (g₁ ++ [d])) :
    (exclusive id).Quiet fun g w => Present id w ∧ Since g₀ g P := by
  intro g d h hstore
  have hsub := congrArg Store.submissions hstore
  exact leads_of_submissions_eq hsub fun w hw =>
    ⟨hw.1 (present_of_submissions_eq hsub h.1), since_concat h.2 fun g₁ hg => hP g₁ d hg hstore⟩

theorem quiet_idle : (exclusive id).Quiet (idle id g₀) :=
  quiet_since fun _ _ hg hstore => writesNothing_concat hg hstore

theorem quiet_closed : (exclusive id).Quiet (closed id g₀) :=
  quiet_since fun _ _ hg _ => claimed_concat hg

theorem saw_concat {row : SubmissionRow} (h : Saw id row g) : Saw id row (g ++ [d]) := by
  obtain ⟨d', hd, hrow⟩ := h
  exact ⟨d', List.mem_append_left _ hd, hrow⟩

theorem quiet_seen (row : SubmissionRow) : (exclusive id).Quiet (seen id g₀ row) :=
  quiet_since fun _ _ hg hstore => ⟨writesNothing_concat hg.1 hstore, saw_concat hg.2⟩

theorem idle_of_seen {row : SubmissionRow} (h : seen id g₀ row g w) : idle id g₀ g w := by
  obtain ⟨hp, g₁, hg, hw, -⟩ := h
  exact ⟨hp, g₁, hg, hw⟩

theorem id_of_seen {row : SubmissionRow} (h : seen id g₀ row g w) : row.id = id := by
  obtain ⟨-, -, -, -, d, -, hrow⟩ := h
  exact Table.id_of_get? hrow

theorem loses_concat {e : Failure} (h : Loses id g e) : Loses id (g ++ [d]) e := by
  rcases h with h | ⟨row, hsaw, d', hd, h⟩
  · exact .inl h
  · exact .inr ⟨row, saw_concat hsaw, d', List.mem_append_left _ hd, h⟩

theorem quiet_lost (e : Failure) : (exclusive id).Quiet (lost id g₀ e) :=
  quiet_since fun _ _ hg hstore => ⟨writesNothing_concat hg.1 hstore, loses_concat hg.2⟩

/-- The holder may do anything that keeps the submissions. -/
theorem held_leads {row : SubmissionRow} (h : held id g₀ row g d.before)
    (hsub : d.after.store.submissions = d.before.store.submissions) :
    (exclusive id).Leads (held id g₀ row) g d := by
  obtain ⟨⟨hid, hholds, hs⟩, hsince⟩ := h
  have hstatus := World.status?_of_submissions_eq hsub id
  have hholds' := (Deeds.holds_concat_of_status?_eq hstatus).2 hholds
  exact leads_of_submissions_eq hsub fun w hw =>
    ⟨⟨hid, hholds', hw.2 hholds' (hstatus.trans hs)⟩, since_concat hsince fun _ => claimed_concat⟩

theorem quiet_held (row : SubmissionRow) : (exclusive id).Quiet (held id g₀ row) :=
  fun _ _ h hstore => held_leads h (congrArg Store.submissions hstore)

/-- A run that has written nothing loses by being refused. -/
theorem lost_of_idle {e : Failure} (h : idle id g₀ g w) (he : Refused id e) :
    lost id g₀ e g w := by
  obtain ⟨hp, g₁, hg, hw⟩ := h
  exact ⟨hp, g₁, hg, hw, .inl he⟩

theorem refused_concurrentRun : Refused id (Failure.ofCause (.concurrentRun id)) := .inl rfl

theorem refused_of_transition {status target : Status} {c : Cause}
    (h : status.transition target = .error c) : Refused id (Failure.ofCause c) := by
  unfold Status.transition at h
  split at h <;> cases h
  exact .inr ⟨_, _, rfl⟩

theorem refused_of_newAttempt {status : Status} {c : Cause} (h : status.newAttempt = .error c) :
    Refused id (Failure.ofCause c) := by
  unfold Status.newAttempt at h
  split at h <;> cases h
  exact .inr ⟨_, _, rfl⟩

/-! ## §3. The outline of a run. -/

theorem progress?_withSubmission {row : SubmissionRow} (change : SubmissionRow → SubmissionRow)
    (hc : ∀ row, (change row).id = row.id) (hrow : w.store.submissions.get? id = some row) :
    (w.withSubmission id change).progress? id = some ((change row).status, (change row).attempt) :=
  World.progress?_of_get? (World.get?_withSubmission_self change hc hrow)

theorem present_of_progress? {status : Status} {attempt : Int}
    (h : w.progress? id = some (status, attempt)) : Present id w := by
  obtain ⟨row, hrow, -⟩ := World.progress?_eq_some.1 h
  exact ⟨row, hrow⟩

/-- Leaving `pending` is a claim. -/
theorem triple_leavePending {target : Status} (ht : target = .processing ∨ target = .completed)
    {Q : Deeds → World → Prop}
    (hQ : ∀ g d w, idle id g₀ g d.before → d.claims id → d.after.status? id = some target →
      (exclusive id).calm (g ++ [d]) d.after w → Present id w → Q (g ++ [d]) w) :
    (exclusive id).Triple (idle id g₀) (Runner.leavePending id target) fun
      | .ok () => Q
      | .error e => lost id g₀ e := by
  refine Contract.triple_leavePending (fun g w row h hrow hs => ?_) fun g w h _ => ?_
  · -- The row that the statement finds counts, not the one that was read before.
    have hbefore := World.progress?_of_get? hrow
    rw [hs] at hbefore
    have hafter := progress?_withSubmission (fun row => row.movedOn target w.now) (fun _ => rfl) hrow
    have hpresent := present_of_progress? hafter
    have hstatus := World.status?_of_progress? hafter
    have hclaims : Deed.claims id ⟨w, w.withSubmission id fun row => row.movedOn target w.now⟩ := by
      refine ⟨World.status?_of_progress? hbefore, ?_⟩
      rw [hstatus]
      exact ht.imp (congrArg some) (congrArg some)
    exact ⟨⟨fun _ => hpresent, .claim target row.attempt ht hbefore hafter⟩, fun w' hw =>
      hQ g _ w' h hclaims hstatus hw (hw.1 hpresent)⟩
  · exact (quiet_idle g ⟨w, w⟩ h rfl).mono fun w' h' => lost_of_idle h' refused_concurrentRun

/-- Ending the attempt. -/
theorem triple_finish (hfits : Store.fits id = true) (row : SubmissionRow) (target : Status)
    (message : Option String) (ht : target = .completed ∨ target = .failed) :
    (exclusive id).Triple (held id g₀ row) (Runner.finish id target message)
      (Contract.surely fun _ => closed id g₀) := by
  refine Contract.triple_finish (fun g w row' h hrow hs => ?_) (fun g w h => h.1.2.2) quiet_closed
    fun g w h => ?_
  · have hbefore := World.progress?_of_get? hrow
    rw [hs] at hbefore
    have hafter := progress?_withSubmission (fun row => row.settled target message w.now)
      (fun _ => rfl) hrow
    have hpresent := present_of_progress? hafter
    exact ⟨⟨fun _ => hpresent, .settle target row'.attempt ht h.1.2.1 hbefore hafter⟩, fun w' hw =>
      ⟨hw.1 hpresent, since_concat h.2 fun _ => claimed_concat⟩⟩
  · obtain ⟨⟨row, hrow⟩, -⟩ := h
    exact ⟨row, Store.submission_eq_ok.2 ⟨hfits, hrow⟩⟩

/-- **The outline** of a run among others that began with the deeds `g₀`. -/
def outline (r : Runner) (hfits : Store.fits id = true) (g₀ : Deeds) :
    Outline (exclusive id) r id where
  before := idle id g₀
  idle := idle id g₀
  seen := seen id g₀
  ready := fun row _ => seen id g₀ row
  held := fun row _ _ => held id g₀ row
  closed := closed id g₀
  lost := lost id g₀
  mishap := fun _ => True
  ended := ended id g₀
  mishap_of_not_isCollision := fun _ _ => trivial
  held_id := fun _ _ _ _ _ h => h.1.1
  lost_of_processing := fun _ _ _ _ h => lost_of_idle (idle_of_seen h) refused_concurrentRun
  lost_of_transition := fun _ _ _ _ hc _ _ h => lost_of_idle (idle_of_seen h) (refused_of_transition hc)
  claimSlot := (Contract.triple_claimSlot quiet_idle).mono (fun _ _ h => h) fun res g w h => by
    cases res with
    | ok number => exact h.1
    | error e =>
      obtain ⟨⟨-, g₁, hg, hw⟩, he⟩ := h
      exact ⟨g₁, hg, .inr ⟨e, rfl, hw, .inl (.inl (he e rfl))⟩⟩
  reload := Contract.triple_read fun g w h => by
    obtain ⟨row, hrow⟩ := h.1
    rw [Store.submission_eq_ok.2 ⟨hfits, hrow⟩]
    refine leads_of_submissions_eq rfl fun w' hw => ⟨hw.1 h.1, since_concat h.2 fun g₁ hg => ?_⟩
    exact ⟨writesNothing_concat hg rfl, ⟨w, w⟩, by simp, hrow⟩
  stepsFor := fun row => Contract.triple_read fun g w h => by
    cases hsteps : w.store.activeSteps row.formId with
    | ok steps => exact quiet_seen row g ⟨w, w⟩ h rfl
    | error e =>
      refine leads_of_submissions_eq rfl fun w' hw => ⟨hw.1 h.1, since_concat h.2 fun g₁ hg => ⟨?_, ?_⟩⟩
      · exact writesNothing_concat hg.1 rfl
      · exact .inr ⟨row, saw_concat hg.2, ⟨w, w⟩, by simp, hsteps⟩
  complete := fun row =>
    (triple_leavePending (.inr rfl) fun g d w h hc _ _ hp =>
      ⟨hp, since_concat h.2 fun g₁ _ => ⟨d, by simp, hc⟩⟩).mono (fun _ _ h => idle_of_seen h)
      fun _ _ _ h => h
  reload_held := fun row _ _ => by
    refine ((quiet_held row).read (R := fun res => ∃ row, res = .ok row)
      fun g w h => World.exists_submission hfits h.1.2.2).mono (fun _ _ h => h) fun res g w h => ?_
    obtain ⟨hheld, row, rfl⟩ := h
    exact hheld
  reload_closed := ((quiet_closed).read (R := fun _ => True) fun _ _ _ => trivial).mono
    (fun _ _ h => h) fun _ _ _ h => ⟨h.1, fun _ _ => trivial⟩
  start := fun row steps _ => by
    refine Contract.Triple.of_fact (fun g w h => id_of_seen h) fun hid => ?_
    refine (triple_leavePending (.inl rfl) fun g d w h hc hs hw _ => ?_).mono
      (fun _ _ h => idle_of_seen h) fun _ _ _ h => h
    have hholds : Deeds.Holds id (g ++ [d]) := Deeds.holds_concat.2 (.inl ⟨hc.1, hs⟩)
    exact ⟨⟨hid, hholds, hw.2 hholds hs⟩, since_concat h.2 fun g₁ _ => ⟨d, by simp, hc⟩⟩
  isCancelled := fun row _ _ run => Contract.triple_isCancelled (quiet_held row) run
  fieldsFor := fun row _ _ => (Contract.triple_fieldsFor (quiet_held row) row).mono (fun _ _ h => h)
    fun _ _ _ h => ⟨h.1, fun _ _ => trivial⟩
  request := fun row _ _ _ => Contract.triple_waiting fun g w w' h hw =>
    ⟨⟨h.1.1, h.1.2.1, hw.2 h.1.2.1 h.1.2.2⟩, h.2⟩
  storeOutput := fun row _ _ result _ => by
    refine Contract.triple_storeOutput (fun g w store h hi => ?_)
      fun g w e h _ => (quiet_held row g ⟨w, w⟩ h rfl).mono fun _ h => ⟨h, trivial⟩
    obtain rfl := Store.eq_append_of_insertOutput rfl hi
    exact held_leads h rfl
  finish_completed := fun row _ => triple_finish hfits row .completed none (.inl rfl)
  finish_failed := fun row _ _ message => triple_finish hfits row .failed (some message) (.inr rfl)
  freeSlot_lost := fun e => (Contract.triple_freeSlot (quiet_lost e)).mono (fun _ _ h => h)
    fun _ _ _ h => by
      obtain ⟨-, g₁, hg, hw, hl⟩ := h
      exact ⟨g₁, hg, .inr ⟨e, rfl, hw, hl⟩⟩
  freeSlot_closed := fun _ _ => (Contract.triple_freeSlot quiet_closed).mono (fun _ _ h => h)
    fun _ _ _ h => by
      obtain ⟨-, g₁, hg, hc⟩ := h
      exact ⟨g₁, hg, .inl hc⟩

/-! ## §4. New attempts and reruns. -/

/-- The deeds claim nothing, and each writes nothing or restarts the submission. -/
def Renews (id : Int) (g : Deeds) : Prop :=
  ∀ d ∈ g, ¬d.claims id ∧ (d.after.store = d.before.store ∨ d.restarts id)

theorem renews_of_writesNothing (h : WritesNothing g) : Renews id g := fun d hd =>
  ⟨Deed.not_claims_of_status?_eq (Deed.status?_eq_of_store_eq (h d hd) id), .inl (h d hd)⟩

theorem renews_append (hg : Renews id g₀) (hw : WritesNothing g₁) : Renews id (g₀ ++ g₁) := by
  intro d hd
  rcases List.mem_append.1 hd with hd | hd
  · exact hg d hd
  · exact renews_of_writesNothing hw d hd

theorem stepsUnreadable_append_left {e : Failure} (h : StepsUnreadable id g₁ e) :
    StepsUnreadable id (g₀ ++ g₁) e := by
  obtain ⟨row, ⟨d, hd, hrow⟩, d', hd', he⟩ := h
  exact ⟨row, ⟨d, List.mem_append_right _ hd, hrow⟩, d', List.mem_append_right _ hd', he⟩

theorem renews_concat (hg : Renews id g)
    (hd : ¬d.claims id ∧ (d.after.store = d.before.store ∨ d.restarts id)) : Renews id (g ++ [d]) := by
  intro e he
  rcases List.mem_append.1 he with he | he
  · exact hg e he
  · rw [List.mem_singleton.1 he]
    exact hd

/-- A new attempt may have been started. -/
def renewed (id : Int) (g : Deeds) (w : World) : Prop := Present id w ∧ Since [] g (Renews id)

theorem quiet_renewed : (exclusive id).Quiet (renewed id) :=
  quiet_since fun _ _ hg hstore =>
    renews_concat hg ⟨Deed.not_claims_of_status?_eq (Deed.status?_eq_of_store_eq hstore id), .inl hstore⟩

theorem not_claims_of_restarts (h : d.restarts id) : ¬d.claims id := by
  obtain ⟨status, attempt, hs, hb, -⟩ := h
  intro hc
  have := hc.1
  rw [World.status?_of_progress? hb] at this
  rcases hs with rfl | rfl <;> cases this

theorem newAttempt (r : Runner) (hfits : Store.fits id = true) :
    (exclusive id).Triple (idle id []) (r.newAttempt id) fun
      | .ok _ => renewed id
      | .error e => fun g w => idle id [] g w ∧ Refused id e := by
  refine Contract.triple_newAttempt quiet_idle refused_concurrentRun
    (fun _ _ => refused_of_newAttempt) (fun g w h e he => ?_) (fun g w row h hrow hs => ?_)
    ((quiet_renewed.read (R := fun res => ∃ row, res = .ok row) fun g w h => ?_).mono
      (fun _ _ h => h) fun res g w h => ?_) fun e g w h he => ⟨h, he⟩
  · obtain ⟨⟨row, hrow⟩, -⟩ := h
    rw [Store.submission_eq_ok.2 ⟨hfits, hrow⟩] at he
    cases he
  · have hafter := progress?_withSubmission (fun row => row.restarted .pending) (fun _ => rfl) hrow
    have hpresent := present_of_progress? hafter
    have hrestarts : Deed.restarts id ⟨w, w.withSubmission id fun row => row.restarted .pending⟩ :=
      ⟨row.status, row.attempt, hs, World.progress?_of_get? hrow, hafter⟩
    exact ⟨⟨fun _ => hpresent, .restart hrestarts⟩, fun w' hw => ⟨hw.1 hpresent,
      since_concat h.2 fun g₁ hg =>
        renews_concat (renews_of_writesNothing hg) ⟨not_claims_of_restarts hrestarts, .inr hrestarts⟩⟩⟩
  · obtain ⟨⟨row, hrow⟩, -⟩ := h
    exact ⟨row, Store.submission_eq_ok.2 ⟨hfits, hrow⟩⟩
  · obtain ⟨hrenewed, row, rfl⟩ := h
    exact hrenewed

/-- How a rerun ends: it lost at once, or it has renewed the submission and then ends as a run. -/
def rerunEnded (id : Int) (res : Except Failure SubmissionRow) (g : Deeds) : Prop :=
  ∃ g₀ g₁, g = g₀ ++ g₁ ∧ Renews id g₀ ∧
    (Claimed id g₁ ∨ ∃ e, res = .error e ∧ WritesNothing g₁ ∧ Loses id g₁ e)

theorem rerun (r : Runner) (hfits : Store.fits id = true) :
    (exclusive id).Triple (idle id []) (r.rerun id) fun res g _ => rerunEnded id res g := by
  unfold Runner.rerun
  refine Contract.triple_bind (newAttempt r hfits) (fun _ => ?_) fun e g w h => ?_
  · intro g w h
    obtain ⟨hp, g₀, hg, hr⟩ := h
    -- The run of a rerun begins where the new attempt ended: it has done nothing since.
    have hstart : idle id g g w := ⟨hp, [], (List.append_nil g).symm, fun d hd => nomatch hd⟩
    refine Contract.Meets.mono (fun res g' w' h' => ?_) _ g w ((outline r hfits g).run g w hstart)
    obtain ⟨g₁, hg', hcase⟩ := h'
    exact ⟨g, g₁, hg', by rw [hg]; exact hr, hcase⟩
  · obtain ⟨⟨-, g₁, hg, hw⟩, hl⟩ := h
    exact ⟨[], g₁, hg, fun _ hd => absurd hd List.not_mem_nil, .inr ⟨e, rfl, hw, .inl hl⟩⟩

/-! ## §5. The agreement. -/

/-- How a task has to end. -/
def taskEnded (id : Int) : Task → Ending → Deeds → Prop
  | .run _ _, .row res, g =>
    Claimed id g ∨ ∃ e, res = .error e ∧ WritesNothing g ∧ Loses id g e
  | .newAttempt _ _, .row (.ok _), g => Renews id g
  | .newAttempt _ _, .row (.error e), g => WritesNothing g ∧ Refused id e
  | .rerun _ _, .row res, g => rerunEnded id res g
  | _, _, _ => False

theorem meets_task (hfits : Store.fits id = true) (r : Runner) (task : Task)
    (ht : task = .run r id ∨ task = .newAttempt r id ∨ task = .rerun r id) (hp : Present id w) :
    (exclusive id).Meets task.plan (fun ending g _ => taskEnded id task ending g) [] w := by
  have hstart : idle id [] [] w := ⟨hp, [], rfl, fun d hd => nomatch hd⟩
  rcases ht with rfl | rfl | rfl
  · refine (Contract.meets_bind ..).2 (Contract.Meets.mono (fun res g w h => ?_) _ _ _
      ((outline r hfits []).run [] w hstart))
    obtain ⟨g₁, rfl, h⟩ := h
    exact h
  · refine (Contract.meets_bind ..).2 (Contract.Meets.mono (fun res g w h => ?_) _ _ _
      (newAttempt r hfits [] w hstart))
    cases res with
    | ok row =>
      obtain ⟨-, g₁, rfl, h⟩ := h
      exact h
    | error e =>
      obtain ⟨⟨-, g₁, rfl, h⟩, hl⟩ := h
      exact ⟨h, hl⟩
  · exact (Contract.meets_bind ..).2 (Contract.Meets.mono (fun res g w h => h) _ _ _
      (rerun r hfits [] w hstart))

end Exclusive

/-- Any number of runs, new attempts and reruns of one submission, in any processes.  Apart from
them nothing changes its status and attempt; everything else may change at any time. -/
def rivalry (id : Int) : Setting where
  begins task := ∃ r, task = .run r id ∨ task = .newAttempt r id ∨ task = .rerun r id
  drifts w w' := w'.progress? id = w.progress? id
  interleaved := True

namespace Exclusive

variable {id : Int}

/-- What a task does is what the others put up with. -/
theorem registered_statement {log : List Entry} {i : Nat} {w w' : World} {status : Status}
    {attempt : Int} (h : Registered id log w status attempt)
    (hd : Deed.Move id (deedsOf i log) ⟨w, w'⟩) :
    (∃ status' attempt', Registered id (log ++ [⟨i, ⟨w, w'⟩⟩]) w' status' attempt') ∧
      ∀ j, j ≠ i → Deeds.Holds id (deedsOf j log) → w.status? id = some .processing →
        w'.status? id = some .processing := by
  have hnow : ∀ {s a}, w.progress? id = some (s, a) → status = s ∧ attempt = a := by
    intro s a hs
    have := h.progress.symm.trans hs
    simpa using this
  cases hd with
  | stay hs =>
    refine ⟨⟨status, attempt, h.stay hs⟩, fun j _ _ hp => ?_⟩
    rw [World.status?_eq_map_progress?] at hp ⊢
    rw [hs]
    exact hp
  | claim target a ht hb ha =>
    obtain ⟨rfl, rfl⟩ := hnow hb
    refine ⟨⟨target, attempt, h.claim ht ha⟩, fun j _ _ hp => ?_⟩
    rw [World.status?_of_progress? hb] at hp
    cases hp
  | settle target a ht hold hb ha =>
    obtain ⟨rfl, rfl⟩ := hnow hb
    exact ⟨⟨target, attempt, h.settle ht hold ha⟩, fun j hji hj _ => absurd (h.single j i hj hold) hji⟩
  | restart hr =>
    obtain ⟨s, a, hs, hb, ha⟩ := hr
    obtain ⟨rfl, rfl⟩ := hnow hb
    refine ⟨⟨.pending, attempt + 1, h.restart hs ha⟩, fun j _ _ hp => ?_⟩
    rw [World.status?_of_progress? hb] at hp
    rcases hs with rfl | rfl <;> cases hp

/-- **The agreement** of all tasks on a submission. -/
def rivals (hfits : Store.fits id = true) : Agreement (rivalry id) (exclusive id) where
  ends := fun task ending g _ => taskEnded id task ending g
  inv := fun log w => ∃ status attempt, Registered id log w status attempt
  calm_refl := fun _ _ => ⟨fun h => h, fun _ h => h⟩
  calm_trans := fun _ _ _ _ h h' => ⟨fun hp => h'.1 (h.1 hp), fun hh hs => h'.2 hh (h.2 hh hs)⟩
  pause_trans := fun _ _ _ _ h h' => ⟨fun hp => h'.1 (h.1 hp), fun hh hs => h'.2 hh (h.2 hh hs)⟩
  pause_of_calm := fun _ _ _ h => h
  calm_of_pause := fun _ _ _ _ h => h
  ends_of_pause := fun _ _ _ _ _ h _ => h
  begins := by
    rintro task log w w' ⟨r, ht⟩ ⟨status, attempt, h⟩ hw
    exact meets_task hfits r task ht (hw.1 (present_of_progress? h.progress))
  statement := by
    rintro log i w w' ⟨status, attempt, h⟩ ⟨hp, hmove⟩
    obtain ⟨hinv, hothers⟩ := registered_statement h hmove
    exact ⟨hinv, fun j hj => ⟨hp, hothers j hj⟩⟩
  drift := by
    rintro log w w' ⟨status, attempt, h⟩ hd
    refine ⟨⟨status, attempt, hd.trans h.progress, h.held, h.single, h.claims⟩, fun g => ⟨?_, ?_⟩⟩
    · intro _
      exact present_of_progress? (hd.trans h.progress)
    · intro _ hs
      rw [World.status?_eq_map_progress?] at hs ⊢
      rw [hd]
      exact hs

end Exclusive

/-! ## §6. The result. -/

/-- **Single execution per attempt.**  From a submission that has just been accepted, whatever
tasks begin on it and however their statements are interleaved:

  1. at most one thread holds the submission;
  2. only a thread that holds it moves it out of `processing`;
  3. the claims on it, those of runs that complete it at once included, are at most as many as its
     attempts;
  4. a run that ends without a claim has written nothing, and if its steps could be read, it
     reports a conflict or the refused change of status;
  5. so does a rerun, but it may have started the next attempt;
  6. a new attempt that fails reports the same and has written nothing. -/
theorem single_execution (id : Int) (start : World) (s : Scene) (hfits : Store.fits id = true)
    (hstart : start.progress? id = some (.pending, 1))
    (hs : Scene.Reaches (rivalry id) { world := start } s) :
    (∀ i j, Deeds.Holds id (deedsOf i s.log) → Deeds.Holds id (deedsOf j s.log) → i = j) ∧
    (∀ earlier e later, s.log = earlier ++ e :: later → e.deed.leaves id →
      Deeds.Holds id (deedsOf e.thread earlier)) ∧
    (∃ row, s.world.store.submissions.get? id = some row ∧
      ((allDeeds s.log).countP (·.claims id) : Int) ≤ row.attempt) ∧
    (∀ i r res, s.threads[i]? = some ⟨.run r id, .done (.row res)⟩ →
      ¬Claimed id (deedsOf i s.log) → WritesNothing (deedsOf i s.log) ∧
        ((∀ e, ¬StepsUnreadable id (deedsOf i s.log) e) → ∃ e, res = .error e ∧ Refused id e)) ∧
    (∀ i r res, s.threads[i]? = some ⟨.rerun r id, .done (.row res)⟩ →
      ¬Claimed id (deedsOf i s.log) → Exclusive.Renews id (deedsOf i s.log) ∧
        ((∀ e, ¬StepsUnreadable id (deedsOf i s.log) e) → ∃ e, res = .error e ∧ Refused id e)) ∧
    (∀ i r e, s.threads[i]? = some ⟨.newAttempt r id, .done (.row (.error e))⟩ →
      WritesNothing (deedsOf i s.log) ∧ Refused id e) := by
  have hinit : Registered id [] start .pending 1 := by
    refine ⟨hstart, fun i hi => absurd hi (Deeds.not_holds_nil id),
      fun i j hi => absurd hi (Deeds.not_holds_nil id), ?_⟩
    show ((0 : Nat) : Int) + 1 ≤ 1
    omega
  have hsafe := Agreement.safe_of_reaches (Exclusive.rivals hfits) ⟨_, _, hinit⟩ hs
  obtain ⟨status, attempt, hreg⟩ := hsafe.inv
  refine ⟨hreg.single, fun earlier e later hlog hl => ?_, ?_, fun i r res hi hc => ?_,
    fun i r res hi hc => ?_, fun i r e hi => hsafe.ends hi⟩
  · exact (hsafe.allowed earlier e later hlog).2.holds_of_leaves hl
  · obtain ⟨row, hrow, -, rfl⟩ := World.progress?_eq_some.1 hreg.progress
    refine ⟨row, hrow, ?_⟩
    have hcount := hreg.claims
    split at hcount <;> omega
  · rcases hsafe.ends hi with hclaimed | ⟨e, rfl, hw, hl⟩
    · exact absurd hclaimed hc
    · exact ⟨hw, fun hread => ⟨e, rfl, hl.resolve_right (hread e)⟩⟩
  · obtain ⟨g₀, g₁, hg, hr, hclaimed | ⟨e, rfl, hw, hl⟩⟩ := hsafe.ends hi
    · obtain ⟨d, hd, hdc⟩ := hclaimed
      exact absurd ⟨d, by rw [hg]; exact List.mem_append_right _ hd, hdc⟩ hc
    · rw [hg]
      refine ⟨Exclusive.renews_append hr hw, fun hread => ⟨e, rfl, hl.resolve_right fun hu => ?_⟩⟩
      exact hread e (Exclusive.stepsUnreadable_append_left hu)

/-- A message for the run of a submission that has just been accepted is delivered twice, to two
processes.  Both runs see the pending row; the first one completes it. -/
def Exclusive.twoDeliveries : Scene :=
  let executor : Executor := { defaultModel := "base", timeout := .int 1 }
  let accepted : World :=
    { store := { submissions := [{ id := 1, formId := 1, submittedAt := ⟨0⟩ }] }
      tokens := fun _ => "" }
  (((⟨accepted, [], none, []⟩ : Scene).begin (.run ⟨0, executor⟩ 1)).begin
    (.run ⟨1, executor⟩ 1)).follow [0, 1, 0, 1, 0, 1, 0, 1, 0, 0, 1]

theorem writesNothing_twoDeliveries : WritesNothing (deedsOf 1 Exclusive.twoDeliveries.log) := by
  have hreaches : Scene.Reaches (rivalry 1) _ Exclusive.twoDeliveries :=
    Scene.Reaches.follow trivial _ (.step (.step .refl
      (.begin _ (.run _ 1) ⟨_, .inl rfl⟩ (.inl trivial)))
      (.begin _ (.run _ 1) ⟨_, .inl rfl⟩ (.inl trivial)))
  have hclaimed : ¬Claimed 1 (deedsOf 1 Exclusive.twoDeliveries.log) := by
    unfold Claimed
    decide
  exact ((single_execution 1 _ _ (by decide) rfl hreaches).2.2.2.1 1 _ _ rfl hclaimed).1

end PromptForms
