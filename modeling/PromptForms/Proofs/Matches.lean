/-
  PromptForms.Proofs.Matches
  ──────────────────────────
  **WHERE A MATCH GETS TO.**

  The matcher hands every spot that it gets to on to what is still to be matched, and takes the
  first answer.  So an answer tells of a spot that was handed on.  Whatever the pattern, such a
  spot is not before the one that the matcher started from; of a run of single characters it is
  known where it ends, and that all of its characters are of the kind that was asked for.

      Gets        a relation between the spots that a construct starts from and gets to
      Onward      further on in the text, with the same groups
      Spans       further on by characters of one kind

  Main results:
    • Node.gets_onward      every construct goes onward
    • gets_many             a repeated character spans characters of its kind
-/
import Mathlib.Data.List.Basic
import PromptForms.Pattern.Matcher

namespace PromptForms.Pattern

/-! ## §1. Answers. -/

/-- An answer of a step is the answer of what follows, at a spot that the step gets to. -/
def Gets (step : Step) (R : Spot → Spot → Prop) : Prop :=
  ∀ ⦃s next r⦄, step s next = some r → ∃ t, R s t ∧ next t = some r

theorem orElse_eq_some {a b : Option Spot} {r : Spot} (h : (a <|> b) = some r) :
    a = some r ∨ b = some r := by
  cases a with
  | none => exact .inr h
  | some t => exact .inl h

section

variable {step : Step} {R : Spot → Spot → Prop} (hrefl : ∀ s, R s s)
  (htrans : ∀ {s t u}, R s t → R t u → R s u) (h : Gets step R)

include hrefl htrans h

/-- A reflexive and transitive relation holds for rounds if it holds for each of them. -/
theorem Gets.rounds (n : Nat) : Gets (rounds step n) R := by
  induction n with
  | zero => exact fun s next r hr => ⟨s, hrefl s, hr⟩
  | succ n ih =>
    intro s next r hr
    obtain ⟨t, hst, hr⟩ := h hr
    obtain ⟨u, htu, hr⟩ := ih hr
    exact ⟨u, htrans hst htu, hr⟩

theorem Gets.greedyRounds (fuel : Nat) (left last : Option Nat) :
    Gets (greedyRounds step fuel left last) R := by
  induction fuel generalizing left last with
  | zero => exact fun s next r hr => ⟨s, hrefl s, hr⟩
  | succ fuel ih =>
    intro s next r hr
    unfold Pattern.greedyRounds at hr
    split at hr
    · rcases orElse_eq_some hr with hr | hr
      · obtain ⟨t, hst, hr⟩ := h hr
        obtain ⟨u, htu, hr⟩ := ih _ _ hr
        exact ⟨u, htrans hst htu, hr⟩
      · exact ⟨s, hrefl s, hr⟩
    · exact ⟨s, hrefl s, hr⟩

theorem Gets.lazyRounds (fuel : Nat) (left last : Option Nat) :
    Gets (lazyRounds step fuel left last) R := by
  induction fuel generalizing left last with
  | zero => exact fun s next r hr => ⟨s, hrefl s, hr⟩
  | succ fuel ih =>
    intro s next r hr
    unfold Pattern.lazyRounds at hr
    rcases orElse_eq_some hr with hr | hr
    · exact ⟨s, hrefl s, hr⟩
    · split at hr
      · obtain ⟨t, hst, hr⟩ := h hr
        obtain ⟨u, htu, hr⟩ := ih _ _ hr
        exact ⟨u, htrans hst htu, hr⟩
      · cases hr

theorem Gets.firmRounds {n : Nat} {s r : Spot} (hr : firmRounds step n s = some r) : R s r := by
  induction n generalizing s with
  | zero => exact Option.some.inj hr ▸ hrefl s
  | succ n ih =>
    obtain ⟨t, hst, hr⟩ := Option.bind_eq_some_iff.1 hr
    obtain ⟨u, hsu, heq⟩ := h hst
    cases heq
    exact htrans hsu (ih hr)

theorem Gets.firmMore (fuel : Nat) (left last : Option Nat) (s : Spot) :
    R s (firmMore step fuel left last s) := by
  induction fuel generalizing left last s with
  | zero => exact hrefl s
  | succ fuel ih =>
    unfold Pattern.firmMore
    split
    · cases hst : step s some with
      | none => exact hrefl s
      | some t =>
        obtain ⟨u, hsu, heq⟩ := h hst
        cases heq
        exact htrans hsu (ih _ _ t)
    · exact hrefl s

/-- A reflexive and transitive relation holds for a repetition if it holds for each round. -/
theorem Gets.repeatStep (size least : Nat) (greatest : Option Nat) (greed : Greed) :
    Gets (repeatStep size least greatest greed step) R := by
  intro s next r hr
  cases greed with
  | greedy =>
    obtain ⟨t, hst, hr⟩ := h.rounds hrefl htrans least hr
    obtain ⟨u, htu, hr⟩ := h.greedyRounds hrefl htrans _ _ _ hr
    exact ⟨u, htrans hst htu, hr⟩
  | lazy =>
    obtain ⟨t, hst, hr⟩ := h.rounds hrefl htrans least hr
    obtain ⟨u, htu, hr⟩ := h.lazyRounds hrefl htrans _ _ _ hr
    exact ⟨u, htrans hst htu, hr⟩
  | possessive =>
    -- The rounds are settled before what follows is asked, so the only spot is the last one.
    obtain ⟨t, ht, hr⟩ := Option.bind_eq_some_iff.1 hr
    exact ⟨_, htrans (h.firmRounds hrefl htrans ht) (h.firmMore hrefl htrans _ _ _ t), hr⟩

end

/-! ## §2. Onward. -/

/-- A spot is not before another one, and has as many groups. -/
structure Onward (s t : Spot) : Prop where
  position : s.position ≤ t.position
  starts : t.starts.size = s.starts.size
  ends : t.ends.size = s.ends.size

theorem Onward.refl (s : Spot) : Onward s s := ⟨Nat.le_refl _, rfl, rfl⟩

theorem Onward.trans {s t u : Spot} (h : Onward s t) (h' : Onward t u) : Onward s u :=
  ⟨Nat.le_trans h.position h'.position, h'.starts.trans h.starts, h'.ends.trans h.ends⟩

section

variable (text : Array Char) (widths : Nat → Widths)

theorem gets_oneChar (p : Char → Bool) : Gets (oneChar text p) fun s t =>
    charHolds text s.position p = true ∧ t = { s with position := s.position + 1 } := by
  intro s next r hr
  unfold oneChar at hr
  split at hr
  · exact ⟨_, ⟨‹_›, rfl⟩, hr⟩
  · cases hr

theorem gets_oneChar_onward (p : Char → Bool) : Gets (oneChar text p) Onward := by
  intro s next r hr
  obtain ⟨t, ⟨-, rfl⟩, hr⟩ := gets_oneChar text p hr
  refine ⟨_, ?_, hr⟩
  exact ⟨Nat.le_succ _, rfl, rfl⟩

theorem gets_again (flags : Flags) (group : Nat) : Gets (again text flags group) Onward := by
  intro s next r hr
  unfold again at hr
  split at hr
  · cases hr
  · simp only [Option.ite_none_right_eq_some] at hr
    refine ⟨_, ?_, hr.2⟩
    exact ⟨Nat.le_add_right _ _, rfl, rfl⟩

variable {text widths} in
theorem Gets.singleton {flags : Flags} {node : Node} {R : Spot → Spot → Prop}
    (h : Gets (node.run text widths flags) R) : Gets (runAll text widths flags [node]) R := by
  intro s next r hr
  simp only [runAll] at hr
  exact h hr

variable {text widths} in
/-- A group notes where it starts and where it ends. -/
theorem Gets.group {flags on off : Flags} {body : List Node} {R : Spot → Spot → Prop} (g : Nat)
    (h : Gets (runAll text widths (flags.inside on off) body) R) :
    Gets ((Node.group (some g) on off body).run text widths flags) fun s t => ∃ u,
      R { s with starts := s.starts.setIfInBounds g (some s.position) } u ∧
        t = { u with ends := u.ends.setIfInBounds g (some u.position) } := by
  intro s next r hr
  rw [Node.run] at hr
  obtain ⟨u, hu, hr⟩ := h hr
  exact ⟨_, ⟨u, hu, rfl⟩, hr⟩

-- The induction is on the construct; a sequence hands on through all of its parts, a choice
-- through one of them.
mutual

/-- **Every construct goes onward.** -/
theorem Node.gets_onward (flags : Flags) : (node : Node) → Gets (node.run text widths flags) Onward
  | .point .. => by
    rw [Node.run]
    exact gets_oneChar_onward text _
  | .any => by
    rw [Node.run]
    exact gets_oneChar_onward text _
  | .set .. => by
    rw [Node.run]
    exact gets_oneChar_onward text _
  | .anchor kind => by
    intro s next r hr
    simp only [Node.run] at hr
    split at hr
    · exact ⟨s, .refl s, hr⟩
    · cases hr
  | .reference group => by
    rw [Node.run]
    exact gets_again text flags group
  | .condition group yes no => by
    intro s next r hr
    simp only [Node.run] at hr
    split at hr
    · exact gets_onward_all flags yes hr
    · exact gets_onward_all flags no hr
  | .choice alternatives => by
    rw [Node.run]
    exact gets_onward_first flags alternatives
  | .group none on off body => by
    rw [Node.run]
    exact gets_onward_all _ body
  | .group (some g) on off body => by
    intro s next r hr
    obtain ⟨_, ⟨t, hst, rfl⟩, hr⟩ := (gets_onward_all _ body).group g hr
    refine ⟨_, ?_, hr⟩
    exact ⟨hst.position, by simpa using hst.starts, by simpa using hst.ends⟩
  | .atomic body => by
    intro s next r hr
    rw [Node.run] at hr
    obtain ⟨t, ht, hr⟩ := Option.bind_eq_some_iff.1 hr
    obtain ⟨u, hsu, heq⟩ := gets_onward_all flags body ht
    cases heq
    exact ⟨t, hsu, hr⟩
  | .look ahead negated body => by
    intro s next r hr
    simp only [Node.run] at hr
    split at hr
    -- A look goes nowhere; it only may note groups.
    · rename_i t hfound
      obtain ⟨-, hfound⟩ := Option.ite_none_right_eq_some.1 hfound
      obtain ⟨u, hsu, heq⟩ := gets_onward_all flags body hfound
      cases heq
      refine ⟨_, ?_, hr⟩
      exact ⟨Nat.le_refl _, hsu.starts, hsu.ends⟩
    · exact ⟨s, .refl s, hr⟩
    · cases hr
  | .repeated least greatest greed body => by
    rw [Node.run]
    exact (gets_onward_all flags body).repeatStep .refl .trans _ _ _ _

/-- A sequence goes onward. -/
theorem gets_onward_all (flags : Flags) : (body : List Node) → Gets (runAll text widths flags body) Onward
  | [] => by
    intro s next r hr
    rw [runAll] at hr
    exact ⟨s, .refl s, hr⟩
  | node :: rest => by
    intro s next r hr
    rw [runAll] at hr
    obtain ⟨t, hst, hr⟩ := Node.gets_onward flags node hr
    obtain ⟨u, htu, hr⟩ := gets_onward_all flags rest hr
    exact ⟨u, hst.trans htu, hr⟩

/-- A choice goes onward. -/
theorem gets_onward_first (flags : Flags) :
    (alternatives : List (List Node)) → Gets (runFirst text widths flags alternatives) Onward
  | [] => by
    intro s next r hr
    rw [runFirst] at hr
    cases hr
  | body :: rest => by
    intro s next r hr
    rw [runFirst] at hr
    rcases orElse_eq_some hr with hr | hr
    · exact gets_onward_all flags body hr
    · exact gets_onward_first flags rest hr

end

/-! ## §3. Runs of characters. -/

/-- A spot is further on by characters of one kind. -/
structure Spans (p : Char → Bool) (s t : Spot) : Prop where
  position : s.position ≤ t.position
  rest : t = { s with position := t.position }
  chars : ∀ i, s.position ≤ i → i < t.position → charHolds text i p = true

theorem Spans.refl (p : Char → Bool) (s : Spot) : Spans text p s s :=
  ⟨Nat.le_refl _, rfl, fun _ hle hlt => absurd hle (Nat.not_le.2 hlt)⟩

theorem Spans.trans {p : Char → Bool} {s t u : Spot} (h : Spans text p s t) (h' : Spans text p t u) :
    Spans text p s u where
  position := Nat.le_trans h.position h'.position
  rest := by
    rw [h'.rest, h.rest]
  chars := by
    intro i hle hlt
    rcases Nat.lt_or_ge i t.position with hi | hi
    · exact h.chars i hle hi
    · exact h'.chars i hi hlt

theorem gets_oneChar_spans (p : Char → Bool) : Gets (oneChar text p) (Spans text p) := by
  intro s next r hr
  obtain ⟨t, ⟨hp, rfl⟩, hr⟩ := gets_oneChar text p hr
  refine ⟨_, ⟨Nat.le_succ _, rfl, ?_⟩, hr⟩
  intro i hle hlt
  rwa [Nat.le_antisymm (Nat.le_of_lt_succ hlt) hle]

/-- **A repeated character** spans characters of its kind. -/
theorem gets_many {flags : Flags} {node : Node} {p : Char → Bool}
    (hnode : node.run text widths flags = oneChar text p) (least : Nat) (greatest : Option Nat)
    (greed : Greed) :
    Gets ((Node.repeated least greatest greed [node]).run text widths flags) (Spans text p) := by
  have hbody : (fun s next => runAll text widths flags [node] s next) = oneChar text p := by
    funext s next
    simp only [runAll, hnode]
  rw [Node.run, hbody]
  exact (gets_oneChar_spans text p).repeatStep (.refl text p) (.trans text) _ _ _ _

end

/-! ## §4. Constructs that match alike. -/

section

variable {text : Array Char} {widths : Nat → Widths} {flags : Flags}

theorem runAll_congr {node node' : Node} {rest rest' : List Node}
    (h : node.run text widths flags = node'.run text widths flags)
    (hrest : runAll text widths flags rest = runAll text widths flags rest') :
    runAll text widths flags (node :: rest) = runAll text widths flags (node' :: rest') := by
  funext s next
  simp only [runAll, h, hrest]

theorem runFirst_congr {body body' : List Node} {rest rest' : List (List Node)}
    (h : runAll text widths flags body = runAll text widths flags body')
    (hrest : runFirst text widths flags rest = runFirst text widths flags rest') :
    runFirst text widths flags (body :: rest) = runFirst text widths flags (body' :: rest') := by
  funext s next
  simp only [runFirst, h, hrest]

theorem run_choice_congr {bodies bodies' : List (List Node)}
    (h : runFirst text widths flags bodies = runFirst text widths flags bodies') :
    (Node.choice bodies).run text widths flags = (Node.choice bodies').run text widths flags := by
  rw [Node.run, Node.run, h]

theorem run_group_congr {index : Option Nat} {on off : Flags} {body body' : List Node}
    (h : runAll text widths (flags.inside on off) body =
      runAll text widths (flags.inside on off) body') :
    (Node.group index on off body).run text widths flags =
      (Node.group index on off body').run text widths flags := by
  simp only [Node.run, h]

theorem run_repeated_congr {least : Nat} {greatest : Option Nat} {greed : Greed}
    {body body' : List Node} (h : runAll text widths flags body = runAll text widths flags body') :
    (Node.repeated least greatest greed body).run text widths flags =
      (Node.repeated least greatest greed body').run text widths flags := by
  rw [Node.run, Node.run, h]

end

end PromptForms.Pattern
