/-
  PromptForms.Proofs.OneStep
  ──────────────────────────
  **HOW A STEP ENDS.**

  A generator may do anything: refuse, fail with an error of any name, take too long,
  or reply with documents in place of texts and numbers.  A step asks it at most once and
  turns what comes of it into a result or a failure of its own, with one exception.  A
  reply with a visible text is taken for a result before its other parts are looked at,
  and if one of them does not fit, the step ends as an invalid document.

      Plan.requests     the requests that a plan sends
      Reply.Fits        what a reply reports besides its text can be stored in a result
      Outcome.Usable    what comes of a request can be told as a result or a failure
      Step.Settles      a result of the step, or a failure with its number

  Main results:
    • `execute_ends` — a step settles exactly if what comes of its request is usable, for
      every step, context, and mode, in any surroundings.
-/
import PromptForms.Proofs.Collision
import PromptForms.Proofs.Documents

namespace PromptForms

open Schema

/-! ## §1. The requests of a plan. -/

/-- The requests that a plan sends in given surroundings, in order. -/
def Plan.requests {α σ : Type} (around : Plan.Surroundings σ) : Plan α → World → σ → List Request
  | .done _, _, _ => []
  | .act _ update next, w, s =>
    let (w', s') := around.react w (update w) s
    (next w).requests around w' s'
  | .generate request next, w, s =>
    let (outcome, w', s') := around.answer request w s
    request :: (next outcome).requests around w' s'

/-! ## §2. Replies that fit. -/

/-- What a reply reports besides its text can be stored in a result: a number of tokens or none,
and a model or nothing that counts as one. -/
structure Reply.Fits (reply : Reply) : Prop where
  tokens : ∃ n, orNull int reply.tokenCount = .good n
  model : reply.model.truthy = true → ∃ name, reply.model = .str name

/-- What comes of a request can be told as a result of the step or as its failure. -/
def Outcome.Usable : Outcome → Prop
  | .replied reply _ => Executor.visibleText? reply ≠ none → reply.Fits
  | .interrupted => False
  | .refused _ | .failed .. | .timedOut => True

namespace Executor

theorem visibleText?_eq_some {reply : Reply} {text : String} :
    visibleText? reply = some text ↔ reply.text = .str text ∧ Text.blankText text = false := by
  unfold visibleText?
  cases reply.text with
  | str s =>
    cases hb : Text.blankText s with
    | false =>
      simp only [hb, Bool.false_eq_true, if_false, Option.some.injEq, Json.str.injEq]
      constructor
      · rintro rfl
        exact ⟨rfl, hb⟩
      · exact And.left
    | true =>
      simp only [hb, if_true, reduceCtorEq, Json.str.injEq, false_iff, not_and]
      rintro rfl
      rw [hb]
      exact Bool.noConfusion
  | null | bool | int | real | arr | obj => simp

/-- The model of a result is a text exactly if the reply has one or none. -/
theorem text_modelOf (reply : Reply) (asked : String) :
    (∃ name, Schema.text (modelOf reply asked) = .good name) ↔
      (reply.model.truthy = true → ∃ name, reply.model = .str name) := by
  unfold modelOf
  by_cases htruthy : reply.model.truthy = true
  · simp only [htruthy, if_true, true_implies]
    constructor
    · rintro ⟨name, hname⟩
      exact ⟨name, keepsTexts_text _ _ hname⟩
    · rintro ⟨name, hname⟩
      exact ⟨name, by rw [hname]; rfl⟩
  · rw [if_neg htruthy]
    exact ⟨fun _ h => absurd h htruthy, fun _ => ⟨asked, rfl⟩⟩

section

variable {step : Step} {sent : Request} {text : String} {reply : Reply} {seconds : Binary64}

/-- A result keeps the number of the step, the prompt that was sent and the text of the reply. -/
theorem resultOf_eq_good {result : StepResult}
    (h : resultOf step sent text reply seconds = .good result) :
    reply.Fits ∧ result.number = step.number ∧ result.prompt = sent.prompt ∧
      result.output = text := by
  obtain ⟨_, name, hleft, hmodel, rfl⟩ := Checked.seq_eq_good.1 h
  obtain ⟨n, htokens, rfl⟩ := Checked.map_eq_good.1 hleft
  exact ⟨⟨⟨n, Checked.under_eq_good.1 htokens⟩,
    (text_modelOf _ _).1 ⟨name, Checked.under_eq_good.1 hmodel⟩⟩, rfl, rfl, rfl⟩

theorem exists_resultOf (h : reply.Fits) (step : Step) (sent : Request) (text : String)
    (seconds : Binary64) : ∃ result, resultOf step sent text reply seconds = .good result := by
  obtain ⟨n, hn⟩ := h.tokens
  obtain ⟨name, hname⟩ := (text_modelOf reply sent.model).2 h.model
  exact ⟨_, Checked.seq_eq_good.2 ⟨_, name, Checked.map_eq_good.2
    ⟨n, Checked.under_eq_good.2 hn, rfl⟩, Checked.under_eq_good.2 hname, rfl⟩⟩

end

end Executor

/-! ## §3. Documents that are only invalid. -/

/-- None of the issues is that a number is too large for what it counts. -/
def Schema.Checked.InRange {α : Type} (x : Checked α) : Prop :=
  ∀ issue ∈ x.issues, ∀ reason, issue.fault ≠ .beyondRange reason

namespace Schema.Checked.InRange

variable {α β : Type}

theorem good (a : α) : (Checked.good a).InRange := fun _ h => nomatch h

theorem fault {f : Fault} (h : ∀ reason, f ≠ .beyondRange reason) :
    (Checked.fault f : Checked α).InRange := by
  intro issue hissue
  rw [List.mem_singleton.1 hissue]
  exact h

theorem under {x : Checked α} (h : x.InRange) (step : String) : (x.under step).InRange := by
  cases x with
  | good a => exact good a
  | bad first more =>
    intro issue hissue
    obtain ⟨inner, hinner, rfl⟩ := List.mem_map.1
      (show issue ∈ (first :: more).map (Issue.under step) from hissue)
    exact h inner hinner

theorem map {x : Checked α} (h : x.InRange) (f : α → β) : (f <$> x).InRange := by
  cases x with
  | good a => exact good (f a)
  | bad first more => exact h

theorem seq {f : Checked (α → β)} {x : Checked α} (hf : f.InRange) (hx : x.InRange) :
    (f <*> x).InRange := by
  intro issue hissue
  rcases List.mem_append.1
    ((issues_ap f fun _ => x) ▸ (show issue ∈ (f.ap fun _ => x).issues from hissue)) with h | h
  · exact hf issue h
  · exact hx issue h

/-- The failure is that the document is invalid, and nothing else. -/
theorem orFail {x : Checked α} (h : x.InRange) (hbad : ∀ a, x ≠ .good a) :
    ∃ issues, x.orFail = .error (.invalid issues) := by
  cases x with
  | good a => exact absurd rfl (hbad a)
  | bad first more =>
    refine ⟨first :: more, ?_⟩
    unfold Checked.orFail
    dsimp only
    split
    · rename_i reason hreason
      obtain ⟨issue, hissue, hfault⟩ := List.exists_of_findSome?_eq_some hreason
      split at hfault
      · exact absurd ‹_› (h issue hissue _)
      · cases hfault
    · rfl

end Schema.Checked.InRange

theorem Schema.inRange_text (value : Json) : (text value).InRange := by
  cases value with
  | str s => exact .good s
  | null | bool | int | real | arr | obj => exact .fault fun _ h => nomatch h

theorem Schema.inRange_int (value : Json) : (int value).InRange := by
  unfold int intOfText
  -- Whichever test an integer fails, its size is no fault of a count.
  repeat' split
  all_goals first | exact .good _ | exact .fault fun _ h => nomatch h

theorem Schema.inRange_orNull {α : Type} {check : Json → Checked α}
    (h : ∀ value, (check value).InRange) (value : Json) : (orNull check value).InRange := by
  unfold orNull
  split
  · exact .good none
  · exact (h value).map some

theorem Executor.inRange_resultOf (step : Step) (sent : Request) (text : String) (reply : Reply)
    (seconds : Binary64) : (resultOf step sent text reply seconds).InRange :=
  (((inRange_orNull inRange_int reply.tokenCount).under "token_count").map _).seq
    ((inRange_text _).under "model")

/-! ## §4. The end of a step. -/

/-- The step has a result of its own with a visible text that was replied to it, under its prompt;
or it fails with its own number. -/
def Step.Settles (step : Step) (prompt : Except (List String) String) (came : Outcome → Prop) :
    Except Failure StepResult → Prop
  | .ok result => result.number = step.number ∧ prompt = .ok result.prompt ∧
      (∃ c ∈ result.output.toList, Text.isBlank c = false) ∧
      ∃ reply seconds, came (.replied reply seconds) ∧ reply.text = .str result.output
  | .error e => ∃ cause, e = Failure.ofCause (.step step.number cause)

section

variable {x : Executor} {step : Step} {sent : Request} {reply : Reply} {seconds : Binary64}

/-- A reply with a visible text makes a result if its other parts fit, and otherwise an invalid
document. -/
theorem Executor.judge_visible {text : String} (h : visibleText? reply = some text) :
    x.judge step sent (.replied reply seconds) =
      (resultOf step sent text reply seconds).orFail := by
  unfold judge
  simp only [h]

theorem Executor.judge_misfit (x : Executor) (step : Step) (sent : Request) (seconds : Binary64)
    (hvisible : visibleText? reply ≠ none) (hmisfit : ¬reply.Fits) :
    ∃ issues, x.judge step sent (.replied reply seconds) = .error (.invalid issues) := by
  obtain ⟨text, htext⟩ := Option.ne_none_iff_exists'.1 hvisible
  rw [judge_visible htext]
  exact (inRange_resultOf step sent text reply seconds).orFail fun result hresult =>
    hmisfit (resultOf_eq_good hresult).1

/-- **What comes of a request decides.** -/
theorem Executor.settles_judge (x : Executor) (step : Step) (sent : Request) (outcome : Outcome) :
    step.Settles (.ok sent.prompt) (· = outcome) (x.judge step sent outcome) ↔ outcome.Usable := by
  cases outcome with
  | replied reply seconds =>
    cases hvisible : visibleText? reply with
    | none =>
      have hjudge : x.judge step sent (.replied reply seconds) =
          .error (Failure.ofCause (.step step.number emptyReply)) := by
        unfold judge
        simp only [hvisible]
        rfl
      rw [hjudge]
      exact ⟨fun _ h => absurd hvisible h, fun _ => ⟨emptyReply, rfl⟩⟩
    | some text =>
      have hsome : visibleText? reply ≠ none := by simp [hvisible]
      obtain ⟨htext, hblank⟩ := visibleText?_eq_some.1 hvisible
      by_cases hfits : reply.Fits
      · obtain ⟨result, hresult⟩ := exists_resultOf hfits step sent text seconds
        obtain ⟨-, hnumber, hprompt, houtput⟩ := resultOf_eq_good hresult
        rw [judge_visible hvisible, hresult]
        refine ⟨fun _ _ => hfits, fun _ => ⟨hnumber, by rw [hprompt], ?_, reply, seconds, rfl, ?_⟩⟩
        · rw [houtput]
          simpa [Text.blankText] using hblank
        · rw [houtput, htext]
      · obtain ⟨issues, hjudge⟩ := x.judge_misfit step sent seconds hsome hfits
        rw [hjudge]
        constructor
        · rintro ⟨cause, ⟨⟩⟩
        · exact fun h => absurd (h hsome) hfits
  | refused message => exact ⟨fun _ => trivial, fun _ => ⟨message, rfl⟩⟩
  | failed error message => exact ⟨fun _ => trivial, fun _ => ⟨_, rfl⟩⟩
  | timedOut => exact ⟨fun _ => trivial, fun _ => ⟨_, rfl⟩⟩
  | interrupted =>
    constructor
    · rintro ⟨cause, ⟨⟩⟩
    · exact False.elim

end

/-- **How a step ends.**  In any surroundings, a step in any context and mode sends at most one
request, and its prompt is the resolved one.

The step settles, that is, it has a result with a visible text that was replied to it or fails with
its own number, exactly if what comes of the request is usable.  The generator may refuse, fail
with any error, or take too long, and its reply may lack a text or have anything else in its
place.  What is not usable is an interruption of the whole plan, and a reply with a visible text and
a number of tokens or a model that does not fit.  Such a reply ends the step as an invalid
document, which is no failure of the step. -/
theorem execute_ends {σ : Type} (x : Executor) (step : Step) (context : Template.Context)
    (around : Plan.Surroundings σ) (w : World) (s : σ) :
    let prompt := Template.resolve x.mode step.prompt context
    let sent := (x.execute step context).run.requests around w s
    let answer := fun request => (around.answer request w s).1
    let ended := ((x.execute step context).run.run around w s).1
    sent.length ≤ 1 ∧ (∀ request ∈ sent, prompt = .ok request.prompt) ∧
    (step.Settles prompt (fun outcome => ∃ request ∈ sent, outcome = answer request) ended ↔
      ∀ request ∈ sent, (answer request).Usable) ∧
    ∀ request ∈ sent, ∀ reply seconds, answer request = .replied reply seconds →
      Executor.visibleText? reply ≠ none → ¬reply.Fits → ∃ issues, ended = .error (.invalid issues) := by
  intro prompt sent answer ended
  cases hp : Template.resolve x.mode step.prompt context with
  | error names =>
    have hplan : (x.execute step context).run =
        .done (.error (Failure.ofCause (.step step.number
          (Cause.unresolvedVariable names).message))) := by
      unfold Executor.execute
      rw [hp]
      rfl
    have hsent : sent = [] := by
      show (x.execute step context).run.requests around w s = []
      rw [hplan]
      rfl
    have hended : ended = .error (Failure.ofCause (.step step.number
        (Cause.unresolvedVariable names).message)) := by
      show ((x.execute step context).run.run around w s).1 = _
      rw [hplan]
      rfl
    rw [hsent, hended]
    exact ⟨Nat.zero_le 1, fun _ h => absurd h List.not_mem_nil,
      ⟨fun _ _ h => absurd h List.not_mem_nil, fun _ => ⟨_, rfl⟩⟩,
      fun _ h => absurd h List.not_mem_nil⟩
  | ok text =>
    obtain ⟨request, hq⟩ : ∃ request : Request, request = ⟨text, x.modelFor step⟩ := ⟨_, rfl⟩
    have hplan : (x.execute step context).run =
        .generate request fun outcome => .done (x.judge step request outcome) := by
      unfold Executor.execute
      rw [hp, hq]
      rfl
    have hsent : sent = [request] := by
      show (x.execute step context).run.requests around w s = [request]
      rw [hplan]
      rfl
    have hended : ended = x.judge step request (answer request) := by
      show ((x.execute step context).run.run around w s).1 = _
      rw [hplan]
      rfl
    have hprompt : prompt = .ok request.prompt := by rw [hq]; exact hp
    rw [hsent, hended, hprompt]
    simp only [List.mem_singleton, forall_eq, exists_eq_left, List.length_singleton, Nat.le_refl,
      true_and]
    refine ⟨x.settles_judge step request (answer request), ?_⟩
    intro reply seconds hreply hvisible hmisfit
    rw [hreply]
    exact x.judge_misfit step request seconds hvisible hmisfit

namespace OneStep

/-- A generator that tells the number of tokens by a word. -/
def careless : Plan.Surroundings Unit where
  answer _ w s :=
    (.replied { text := .str "a rhyme", tokenCount := .str "many" } (.finite false 3 (-1)), w, s)
  react _ after s := (after, s)

def step : Step := ⟨1, "Draft", "Write", none, none⟩

def executor : Executor := { defaultModel := "base", timeout := .int 1 }

def world : World := { tokens := fun _ => "" }

/-- How the step ends. -/
def ended : Except Failure StepResult := ((executor.execute step []).run.run careless world ()).1

end OneStep

/-- A visible text with a word for the number of tokens: the step has no result, and it does not
fail with its number. -/
theorem unsettled_careless :
    OneStep.ended = .error (.invalid [⟨["token_count"], .unclearInt⟩]) ∧
      ∀ came, ¬OneStep.step.Settles (.ok "Write") came OneStep.ended := by
  have hended : OneStep.ended = .error (.invalid [⟨["token_count"], .unclearInt⟩]) := rfl
  refine ⟨hended, ?_⟩
  intro came
  rw [hended]
  rintro ⟨cause, ⟨⟩⟩

end PromptForms
