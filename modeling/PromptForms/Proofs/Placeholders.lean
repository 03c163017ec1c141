/-
  PromptForms.Proofs.Placeholders
  ───────────────────────────────
  **WHERE PLACEHOLDERS STAND.**

  The scan reads a template once, from left to right, and never turns back.  The grammar
  knows no direction: a placeholder stands wherever an opening brace, a name and a closing
  brace follow each other.  The scan finds exactly these, however braces and line breaks
  are arranged, because a name ends at the first brace or line break behind its opening
  brace: an attempt that fails gives up nothing but characters in which no other one starts.

      IsName          what may stand between the braces
      OccursAt        a placeholder at a position, said without the scan
      placedFrom      the placeholders among pieces, with their positions
      splice          a text whose placeholders are replaced at their positions

  Main results:
    • OccursAt.apart       two placeholders do not overlap
    • finds_scanFrom       the scan finds the placeholders of the grammar
    • splice_placedFrom    rendering pieces replaces them where they stand
    • placeholders_exact   the placeholders and the variables of a template
-/
import PromptForms.Template.Scan

namespace PromptForms.Template

/-! ## §1. The grammar. -/

/-- A name holds no brace and no line break. -/
def IsName (name : List Char) : Prop :=
  '{' ∉ name ∧ '}' ∉ name ∧ '\r' ∉ name ∧ '\n' ∉ name

/-- A placeholder with the name stands in the text at the position. -/
def OccursAt (text : List Char) (i : Nat) (name : List Char) : Prop :=
  IsName name ∧ '{' :: name ++ ['}'] <+: text.drop i

theorem endsName_iff {c : Char} :
    endsName c = true ↔ c = '{' ∨ c = '}' ∨ c = '\r' ∨ c = '\n' := by
  simp [endsName, or_assoc]

/-- The characters that no name holds are the ones at which the scan ends a name. -/
theorem isName_iff {name : List Char} : IsName name ↔ ∀ c ∈ name, endsName c = false := by
  constructor
  · rintro ⟨h1, h2, h3, h4⟩ c hc
    rw [Bool.eq_false_iff]
    intro hends
    rcases endsName_iff.1 hends with rfl | rfl | rfl | rfl
    · exact h1 hc
    · exact h2 hc
    · exact h3 hc
    · exact h4 hc
  · intro h
    refine ⟨?_, ?_, ?_, ?_⟩ <;>
    · intro hc
      exact absurd (h _ hc) (by decide)

section

variable {text part rest name other : List Char} {c : Char} {i j : Nat}

theorem OccursAt.closes (h : OccursAt text i name) : '}' ∈ text := by
  have hclosed : '}' ∈ '{' :: name ++ ['}'] := List.mem_append_right _ List.mem_cons_self
  exact List.mem_of_mem_drop (h.2.mem hclosed)

/-- A name goes on up to the first character that ends it. -/
theorem takeWhile_name (hname : IsName name) (hc : endsName c = true) :
    (name ++ c :: rest).takeWhile (fun d => !endsName d) = name := by
  rw [List.takeWhile_append_of_pos fun d hd => by rw [isName_iff.1 hname d hd]; rfl,
    List.takeWhile_cons_of_neg (by simp [hc]), List.append_nil]

/-- No placeholder starts in characters that are no opening braces. -/
theorem occursAt_append (hpart : '{' ∉ part) (text : List Char) :
    OccursAt (part ++ text) i name ↔
      part.length ≤ i ∧ OccursAt text (i - part.length) name := by
  induction part generalizing i with
  | nil => simp
  | cons c part ih =>
    cases i with
    | zero =>
      constructor
      · rintro ⟨-, hprefix⟩
        have hc : '{' = c := (List.cons_prefix_cons.1 hprefix).1
        exact absurd (hc ▸ List.mem_cons_self) hpart
      · rintro ⟨hle, -⟩
        exact absurd hle (Nat.not_succ_le_zero _)
    | succ i =>
      have hrest : '{' ∉ part := fun hmem => hpart (List.mem_cons_of_mem c hmem)
      show OccursAt (part ++ text) i name ↔ _
      rw [ih hrest, List.length_cons, Nat.add_le_add_iff_right, Nat.add_sub_add_right]

theorem occursAt_cons (hc : c ≠ '{') :
    OccursAt (c :: text) i name ↔ 1 ≤ i ∧ OccursAt text (i - 1) name :=
  occursAt_append (by simpa using hc.symm : '{' ∉ [c]) text

/-- Behind an opening brace and characters of a name, what ends the name decides: only a closing
brace makes a placeholder of them. -/
theorem occursAt_opened (hpart : IsName part) (hc : endsName c = true) :
    OccursAt ('{' :: part ++ c :: rest) i name ↔
      (i = 0 ∧ c = '}' ∧ name = part) ∨
        (part.length + 1 ≤ i ∧ OccursAt (c :: rest) (i - (part.length + 1)) name) := by
  cases i with
  | zero =>
    constructor
    · rintro ⟨hname, after, hafter⟩
      have hspelled : part ++ c :: rest = name ++ '}' :: after := by simpa using hafter.symm
      have hsame : part = name := by
        rw [← takeWhile_name hpart hc, hspelled, takeWhile_name hname (by decide)]
      rw [hsame, List.append_cancel_left_eq, List.cons.injEq] at hspelled
      exact .inl ⟨rfl, hspelled.1, hsame.symm⟩
    · rintro (⟨-, rfl, rfl⟩ | ⟨hle, -⟩)
      · exact ⟨hpart, rest, by simp⟩
      · exact absurd hle (Nat.not_succ_le_zero _)
  | succ i =>
    show OccursAt (part ++ c :: rest) i name ↔ _
    rw [occursAt_append hpart.1, Nat.add_le_add_iff_right, Nat.add_sub_add_right]
    simp

/-- The text up to a placeholder can be left out. -/
theorem occursAt_drop : OccursAt (text.drop i) j name ↔ OccursAt text (i + j) name := by
  unfold OccursAt
  rw [List.drop_drop]

theorem OccursAt.exists_drop (h : OccursAt text i name) :
    ∃ after, text.drop i = '{' :: name ++ '}' :: after := by
  obtain ⟨after, hafter⟩ := h.2
  exact ⟨after, by rw [← hafter]; simp⟩

/-- **Two placeholders do not overlap.** -/
theorem OccursAt.apart (hi : OccursAt text i name) (hj : OccursAt text j other) (hij : i < j) :
    i + name.length + 2 ≤ j := by
  obtain ⟨after, hafter⟩ := hi.exists_drop
  have hlater : OccursAt (text.drop i) (j - i) other := by
    rw [occursAt_drop, Nat.add_sub_cancel' (Nat.le_of_lt hij)]
    exact hj
  rw [hafter] at hlater
  rcases (occursAt_opened hi.1 (by decide)).1 hlater with ⟨hzero, -⟩ | ⟨-, hbehind⟩
  · omega
  · -- The closing brace itself opens nothing.
    have hmore := ((occursAt_cons (by decide)).1 hbehind).1
    omega

theorem OccursAt.unique (hi : OccursAt text i name) (hj : OccursAt text i other) : name = other := by
  obtain ⟨after, hafter⟩ := hi.exists_drop
  have hsame : OccursAt (text.drop i) 0 other := occursAt_drop.2 hj
  rw [hafter] at hsame
  rcases (occursAt_opened hi.1 (by decide)).1 hsame with ⟨-, -, heq⟩ | ⟨hle, -⟩
  · exact heq.symm
  · exact absurd hle (Nat.not_succ_le_zero _)

end

/-! ## §2. What the scan finds. -/

-- What a character does, outside a name and inside one.
section

variable {c : Char}

theorem scanFrom_outside (hc : c ≠ '{') (rest : List Char) :
    scanFrom none (c :: rest) = .literal c :: scanFrom none rest := by
  simp [scanFrom, hc]

theorem scanFrom_reopened (part rest : List Char) :
    scanFrom (some part) ('{' :: rest) =
      ('{' :: part.reverse).map .literal ++ scanFrom (some []) rest := by
  simp [scanFrom]

theorem scanFrom_closed (part rest : List Char) :
    scanFrom (some part) ('}' :: rest) = .placeholder part.reverse :: scanFrom none rest := by
  simp [scanFrom]

theorem scanFrom_broken (hc : c = '\r' ∨ c = '\n') (part rest : List Char) :
    scanFrom (some part) (c :: rest) =
      ('{' :: part.reverse).map .literal ++ .literal c :: scanFrom none rest := by
  rcases hc with rfl | rfl <;> simp [scanFrom, endsName]

theorem scanFrom_inside (hc : endsName c = false) (part rest : List Char) :
    scanFrom (some part) (c :: rest) = scanFrom (some (c :: part)) rest := by
  have hother : c ≠ '{' ∧ c ≠ '}' := by
    constructor <;> rintro rfl <;> cases hc
  simp [scanFrom, hother, hc]

end

/-- The placeholders among pieces that start at a position, with the positions at which they
stand. -/
def placedFrom (start : Nat) : List Piece → List (Nat × List Char)
  | [] => []
  | .literal _ :: rest => placedFrom (start + 1) rest
  | .placeholder name :: rest => (start, name) :: placedFrom (start + name.length + 2) rest

/-- The placeholders of a template, with the positions at which they stand. -/
def placeholders (template : String) : List (Nat × List Char) := placedFrom 0 (scan template)

/-- The pieces have exactly the placeholders of the text, which starts at the position. -/
def Finds (start : Nat) (text : List Char) (pieces : List Piece) : Prop :=
  ∀ i name, (i, name) ∈ placedFrom start pieces ↔ start ≤ i ∧ OccursAt text (i - start) name

section

variable {start : Nat} {text part rest : List Char} {pieces : List Piece} {c : Char}

theorem placedFrom_literals (start : Nat) (chars : List Char) (pieces : List Piece) :
    placedFrom start (chars.map Piece.literal ++ pieces) =
      placedFrom (start + chars.length) pieces := by
  induction chars generalizing start with
  | nil => rfl
  | cons c chars ih =>
    show placedFrom (start + 1) (chars.map Piece.literal ++ pieces) = _
    rw [ih, List.length_cons, Nat.add_assoc, Nat.add_comm 1]

theorem finds_nil : Finds start [] [] := by
  intro i name
  refine iff_of_false List.not_mem_nil ?_
  rintro ⟨-, hoccurs⟩
  exact absurd hoccurs.closes List.not_mem_nil

/-- A character other than an opening brace is a literal. -/
theorem Finds.literal (h : Finds (start + 1) text pieces) (hc : c ≠ '{') :
    Finds start (c :: text) (.literal c :: pieces) := by
  intro i name
  rw [placedFrom, h, occursAt_cons hc, ← and_assoc, Nat.sub_sub]
  exact and_congr_left fun _ => by omega

/-- So is an opening brace with characters of a name behind it that are not closed. -/
theorem Finds.stray (h : Finds (start + (part.length + 1)) (c :: rest) pieces) (hpart : IsName part)
    (hc : endsName c = true) (hopen : c ≠ '}') :
    Finds start ('{' :: part ++ c :: rest) (('{' :: part).map .literal ++ pieces) := by
  intro i name
  have hno : ¬(i - start = 0 ∧ c = '}' ∧ name = part) := fun ⟨_, hclosed, _⟩ => hopen hclosed
  rw [placedFrom_literals, List.length_cons, h, occursAt_opened hpart hc, or_iff_right hno,
    ← and_assoc, Nat.sub_sub]
  exact and_congr_left fun _ => by omega

theorem finds_unclosed (hpart : IsName part) :
    Finds start ('{' :: part) (('{' :: part).map .literal) := by
  intro i name
  have hnone := placedFrom_literals start ('{' :: part) []
  rw [List.append_nil] at hnone
  rw [hnone]
  refine iff_of_false List.not_mem_nil ?_
  rintro ⟨-, hoccurs⟩
  rcases List.mem_cons.1 hoccurs.closes with hbrace | hmem
  · exact absurd hbrace (by decide)
  · exact hpart.2.1 hmem

theorem Finds.placeholder (h : Finds (start + part.length + 2) rest pieces) (hpart : IsName part) :
    Finds start ('{' :: part ++ '}' :: rest) (.placeholder part :: pieces) := by
  intro i name
  -- The closing brace opens nothing, so what follows starts behind it.
  rw [placedFrom, List.mem_cons, h, occursAt_opened hpart (by decide), occursAt_cons (by decide),
    Prod.mk.injEq]
  constructor
  · rintro (⟨rfl, rfl⟩ | ⟨hle, hoccurs⟩)
    · exact ⟨Nat.le_refl _, .inl ⟨Nat.sub_self _, rfl, rfl⟩⟩
    · refine ⟨by omega, .inr ⟨by omega, by omega, ?_⟩⟩
      rwa [Nat.sub_sub, Nat.sub_sub]
  · rintro ⟨hle, ⟨hzero, -, rfl⟩ | ⟨hpast, hclosing, hoccurs⟩⟩
    · exact .inl ⟨by omega, rfl⟩
    · refine .inr ⟨by omega, ?_⟩
      rwa [Nat.sub_sub, Nat.sub_sub] at hoccurs

/-- **The scan finds the placeholders of the grammar.**  By induction on the text that is still to
be read; the part of a name that has been read since the last opening brace stands before it. -/
theorem finds_scanFrom (open? : Option (List Char))
    (hopen : ∀ part, open? = some part → IsName part.reverse) (start : Nat) (cs : List Char) :
    Finds start ((open?.elim [] fun part => '{' :: part.reverse) ++ cs) (scanFrom open? cs) := by
  have fresh : ∀ part, some [] = some part → IsName part.reverse := by
    rintro _ ⟨⟩
    exact isName_iff.2 fun c hc => absurd hc List.not_mem_nil
  have closed : ∀ part, (none : Option (List Char)) = some part → IsName part.reverse := nofun
  induction cs generalizing open? start with
  | nil =>
    cases open? with
    | none => exact finds_nil
    | some part =>
      rw [Option.elim_some, List.append_nil]
      exact finds_unclosed (hopen part rfl)
  | cons c rest ih =>
    cases open? with
    | none =>
      by_cases hbrace : c = '{'
      · subst hbrace
        exact ih (some []) fresh start
      · rw [scanFrom_outside hbrace]
        exact (ih none closed (start + 1)).literal hbrace
    | some part =>
      have hpart := hopen part rfl
      rw [Option.elim_some]
      by_cases hends : endsName c = true
      · rcases endsName_iff.1 hends with rfl | rfl | hbreak
        · rw [scanFrom_reopened]
          exact (ih (some []) fresh _).stray hpart hends (by decide)
        · rw [scanFrom_closed]
          exact (ih none closed _).placeholder hpart
        · -- A line break is a literal as well, and the scan starts anew behind it.
          have hother : c ≠ '{' ∧ c ≠ '}' := by rcases hbreak with rfl | rfl <;> decide
          rw [scanFrom_broken hbreak]
          exact ((ih none closed _).literal hother.1).stray hpart hends hother.2
      · have hgoes : endsName c = false := by simpa using hends
        have hlonger : IsName (c :: part).reverse := by
          rw [isName_iff] at hpart ⊢
          intro d hd
          rcases List.mem_cons.1 (List.mem_reverse.1 hd) with rfl | hmem
          · exact hgoes
          · exact hpart d (List.mem_reverse.2 hmem)
        have hnext := ih (some (c :: part)) (by rintro _ ⟨⟩; exact hlonger) start
        rw [scanFrom_inside hgoes]
        simpa using hnext

end

theorem mem_placeholders (template : String) {i : Nat} {name : List Char} :
    (i, name) ∈ placeholders template ↔ OccursAt template.toList i name := by
  have hfound := finds_scanFrom none nofun 0 template.toList i name
  rwa [Nat.sub_zero, and_iff_right (Nat.zero_le i)] at hfound

theorem le_of_mem_placedFrom {start : Nat} {pieces : List Piece} {place : Nat × List Char}
    (h : place ∈ placedFrom start pieces) : start ≤ place.1 := by
  induction pieces generalizing start with
  | nil => cases h
  | cons piece rest ih =>
    cases piece with
    | literal c => exact Nat.le_of_succ_le (ih h)
    | placeholder name =>
      rcases List.mem_cons.1 h with rfl | hlater
      · exact Nat.le_refl _
      · have := ih hlater
        omega

/-- The placeholders of pieces are listed from left to right, and none reaches into the next. -/
theorem pairwise_placedFrom (start : Nat) (pieces : List Piece) :
    (placedFrom start pieces).Pairwise fun a b => a.1 + a.2.length + 2 ≤ b.1 := by
  induction pieces generalizing start with
  | nil => exact List.Pairwise.nil
  | cons piece rest ih =>
    cases piece with
    | literal c => exact ih (start + 1)
    | placeholder name =>
      exact List.pairwise_cons.2 ⟨fun _ hlater => le_of_mem_placedFrom hlater, ih _⟩

theorem pairwise_placeholders (template : String) :
    (placeholders template).Pairwise fun a b => a.1 < b.1 :=
  (pairwise_placedFrom 0 (scan template)).imp fun hle => by omega

/-! ## §3. Variables. -/

/-- The first placeholder with one name stands before all with the other name. -/
def AppearsBefore (text : List Char) (name other : String) : Prop :=
  ∃ i, OccursAt text i name.toList ∧ ∀ j, OccursAt text j other.toList → i < j

/-- What is left of a list without repetitions is in the order of first appearance. -/
theorem pairwise_eraseDups_map {α β : Type} [BEq β] [LawfulBEq β] (f : α → β) {R : α → α → Prop}
    {items : List α} (h : items.Pairwise R) :
    (items.map f).eraseDups.Pairwise fun a b =>
      ∃ x ∈ items, f x = a ∧ ∀ y ∈ items, f y = b → R x y := by
  induction hn : items.length using Nat.strongRecOn generalizing items with
  | ind n ih =>
    cases items with
    | nil => exact List.Pairwise.nil
    | cons x rest =>
      obtain ⟨hfirst, hrest⟩ := List.pairwise_cons.1 h
      -- The items with another value than the first one.
      let others := rest.filter fun y => !f y == f x
      have hothers : ((rest.map f).filter fun b => !b == f x) = others.map f := List.filter_map
      have hshorter : others.length < n := by
        rw [← hn, List.length_cons]
        exact Nat.lt_succ_of_le (List.length_filter_le _ rest)
      have differs : ∀ {b}, b ∈ (others.map f).eraseDups → b ≠ f x := by
        intro b hb
        rw [List.mem_eraseDups, List.mem_map] at hb
        obtain ⟨y, hy, rfl⟩ := hb
        simpa using (List.mem_filter.1 hy).2
      rw [List.map_cons, List.eraseDups_cons, hothers]
      refine List.pairwise_cons.2 ⟨?_, ?_⟩
      · intro b hb
        refine ⟨x, List.mem_cons_self, rfl, ?_⟩
        rintro y hy rfl
        rcases List.mem_cons.1 hy with rfl | hlater
        · exact absurd rfl (differs hb)
        · exact hfirst y hlater
      · refine (ih others.length hshorter (hrest.sublist List.filter_sublist) rfl).imp_of_mem ?_
        rintro a b - hb ⟨z, hz, hza, hbefore⟩
        refine ⟨z, List.mem_cons_of_mem x (List.mem_filter.1 hz).1, hza, ?_⟩
        rintro y hy rfl
        rcases List.mem_cons.1 hy with rfl | hlater
        · exact absurd rfl (differs hb)
        · exact hbefore y (List.mem_filter.2 ⟨hlater, by simpa using differs hb⟩) rfl

theorem map_placedFrom (start : Nat) (pieces : List Piece) :
    (placedFrom start pieces).map (fun place => String.ofList place.2) =
      pieces.filterMap Piece.name? := by
  induction pieces generalizing start with
  | nil => rfl
  | cons piece rest ih =>
    cases piece with
    | literal c => exact ih (start + 1)
    | placeholder name => exact congrArg (String.ofList name :: ·) (ih _)

/-- The variables of a template are the names of its placeholders. -/
theorem findVariables_eq (template : String) :
    findVariables template =
      ((placeholders template).map fun place => String.ofList place.2).eraseDups := by
  rw [placeholders, map_placedFrom]
  rfl

theorem mem_findVariables {template name : String} :
    name ∈ findVariables template ↔ ∃ i, OccursAt template.toList i name.toList := by
  rw [findVariables_eq, List.mem_eraseDups, List.mem_map]
  constructor
  · rintro ⟨⟨i, chars⟩, hplace, rfl⟩
    rw [String.toList_ofList]
    exact ⟨i, (mem_placeholders template).1 hplace⟩
  · rintro ⟨i, hoccurs⟩
    exact ⟨(i, name.toList), (mem_placeholders template).2 hoccurs, String.ofList_toList⟩

/-- No variable holds a line feed. -/
theorem not_feed_mem_of_mem_findVariables {template name : String}
    (h : name ∈ findVariables template) : '\n' ∉ name.toList := by
  obtain ⟨i, ⟨-, -, -, hfeed⟩, -⟩ := mem_findVariables.1 h
  exact hfeed

/-- The variables are listed in the order of first appearance. -/
theorem pairwise_findVariables (template : String) :
    (findVariables template).Pairwise (AppearsBefore template.toList) := by
  rw [findVariables_eq]
  refine (pairwise_eraseDups_map _ (pairwise_placeholders template)).imp ?_
  rintro name other ⟨⟨i, chars⟩, hplace, rfl, hbefore⟩
  refine ⟨i, ?_, ?_⟩
  · rw [String.toList_ofList]
    exact (mem_placeholders template).1 hplace
  · intro j hoccurs
    exact hbefore (j, other.toList) ((mem_placeholders template).2 hoccurs) String.ofList_toList

theorem nodup_findVariables (template : String) : (findVariables template).Nodup := by
  refine (pairwise_findVariables template).imp ?_
  rintro name _ ⟨i, hoccurs, hbefore⟩ rfl
  exact absurd (hbefore i hoccurs) (Nat.lt_irrefl i)

/-! ## §4. Texts in place of placeholders. -/

/-- A text that starts at a position, cut at the places of placeholders; what `fill` has for the name
of a placeholder stands in its place. -/
def splice (fill : List Char → Option (List Char)) (start : Nat) (text : List Char) :
    List (Nat × List Char) → List Char
  | [] => text
  | (i, name) :: more =>
    text.take (i - start) ++ (fill name).getD ('{' :: name ++ ['}']) ++
      splice fill (i + name.length + 2) (text.drop (i - start + name.length + 2)) more

/-- The text of a variable. -/
def textOf (context : Context) (name : List Char) : Option (List Char) :=
  (context.lookup (String.ofList name)).map String.toList

/-- Characters before the first place are left as they are. -/
theorem splice_cons (fill : List Char → Option (List Char)) {start : Nat} (c : Char)
    (text : List Char) {places : List (Nat × List Char)} (h : ∀ place ∈ places, start + 1 ≤ place.1) :
    splice fill start (c :: text) places = c :: splice fill (start + 1) text places := by
  cases places with
  | nil => rfl
  | cons place more =>
    obtain ⟨i, name⟩ := place
    have hbefore : start + 1 ≤ i := h _ List.mem_cons_self
    have hgap : i - start = (i - (start + 1)) + 1 := by omega
    have hpast : i - start + name.length + 2 = (i - (start + 1) + name.length + 2) + 1 := by omega
    unfold splice
    rw [hpast, hgap, List.take_succ_cons, List.drop_succ_cons]
    rfl

theorem Piece.render_placeholder (context : Context) (name : List Char) :
    (Piece.placeholder name).render context =
      (textOf context name).getD ('{' :: name ++ ['}']) := by
  simp only [render, name?, source, textOf, Option.bind_some]
  cases context.lookup (String.ofList name) <;> rfl

/-- **Rendering pieces** replaces the placeholders where they stand. -/
theorem splice_placedFrom (context : Context) (start : Nat) (pieces : List Piece) :
    splice (textOf context) start (pieces.flatMap Piece.source) (placedFrom start pieces) =
      pieces.flatMap (Piece.render context) := by
  induction pieces generalizing start with
  | nil => rfl
  | cons piece rest ih =>
    rw [List.flatMap_cons, List.flatMap_cons]
    cases piece with
    | literal c =>
      show splice _ start (c :: rest.flatMap Piece.source) (placedFrom (start + 1) rest) = _
      rw [splice_cons _ c _ fun place hplace => le_of_mem_placedFrom hplace, ih]
      rfl
    | placeholder name =>
      have hpast : ((Piece.placeholder name).source ++ rest.flatMap Piece.source).drop
          (start - start + name.length + 2) = rest.flatMap Piece.source := by
        rw [List.drop_left' (by simp [Piece.source])]
      rw [placedFrom, splice, hpast, ih, Nat.sub_self, List.take_zero, List.nil_append,
        Piece.render_placeholder]

/-- A template is rendered by cutting it at its placeholders. -/
theorem render_eq_splice (template : String) (context : Context) :
    render template context = String.ofList
      (splice (textOf context) 0 template.toList (placeholders template)) := by
  have hspelled : (scan template).flatMap Piece.source = template.toList :=
    flatMap_source_scanFrom none template.toList
  rw [placeholders, ← hspelled, splice_placedFrom]
  rfl

theorem resolve_lenient (template : String) (context : Context) :
    resolve .lenient template context = .ok (render template context) := by
  unfold resolve
  cases unresolved template context <;> rfl

/-! ## §5. The placeholders of a template. -/

/-- **The placeholders of a template** are the parts of it that the grammar describes, all of them and
no other: no two of them overlap, these are the parts that resolving the template replaces, and the
variables are their names in the order of first appearance. -/
theorem placeholders_exact (template : String) :
    (∀ i name, (i, name) ∈ placeholders template ↔ OccursAt template.toList i name) ∧
    (∀ i j name other, OccursAt template.toList i name → OccursAt template.toList j other →
      i = j ∧ name = other ∨ i + name.length + 2 ≤ j ∨ j + other.length + 2 ≤ i) ∧
    (placeholders template).Pairwise (fun a b => a.1 < b.1) ∧
    (∀ context, resolve .lenient template context = .ok (String.ofList
      (splice (textOf context) 0 template.toList (placeholders template)))) ∧
    (∀ name, name ∈ findVariables template ↔ ∃ i, OccursAt template.toList i name.toList) ∧
    (findVariables template).Nodup ∧
    (findVariables template).Pairwise (AppearsBefore template.toList) := by
  refine ⟨fun i name => mem_placeholders template, ?_, pairwise_placeholders template, ?_,
    fun name => mem_findVariables, nodup_findVariables template, pairwise_findVariables template⟩
  · intro i j name other hi hj
    rcases Nat.lt_trichotomy i j with hbefore | rfl | hbehind
    · exact .inr (.inl (hi.apart hj hbefore))
    · exact .inl ⟨rfl, hi.unique hj⟩
    · exact .inr (.inr (hj.apart hi hbehind))
  · intro context
    rw [resolve_lenient, render_eq_splice]

/-- A placeholder behind a stray brace, another stray brace with a line break before it is closed, and
the first placeholder again. -/
def nested : String := "\x7b{a}\x7bb\n\x7d{a}"

theorem placeholders_exact_nested :
    OccursAt nested.toList 1 ['a'] ∧ OccursAt nested.toList 8 ['a'] ∧ 1 + 1 + 2 ≤ 8 ∧
      findVariables nested = ["a"] := by
  obtain ⟨found, apart, -⟩ := placeholders_exact nested
  have first : OccursAt nested.toList 1 ['a'] := (found 1 ['a']).1 (by decide)
  have second : OccursAt nested.toList 8 ['a'] := (found 8 ['a']).1 (by decide)
  refine ⟨first, second, ?_, by decide⟩
  rcases apart 1 8 ['a'] ['a'] first second with ⟨heq, -⟩ | hbefore | hbehind
  · cases heq
  · exact hbefore
  · exact absurd hbehind (by decide)

end PromptForms.Template
