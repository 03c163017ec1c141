/-
  PromptForms.Proofs.Substitution
  ───────────────────────────────
  **WHAT RESOLVING A TEMPLATE DOES.**

  A template is cut at its placeholders.  The text of a known name takes the place of its
  placeholder as it is, whatever braces it holds, and everything else stays.  The search
  for names without a text and the replacement both go through the pieces of the template,
  so they see the same names, and a line break between two templates keeps them apart.

      Places      the placeholders of a text, from left to right

  Main results:
    • Places.unique         a text has one list of places
    • resolve_congr         only the texts of the variables of a template matter
    • resolve_lines         two templates with a line feed between them
    • substitution_exact    resolving in both modes
-/
import Mathlib.Data.List.Perm.Basic
import PromptForms.Proofs.Placeholders

namespace PromptForms.Template

/-! ## §1. The places of a text. -/

/-- The list has exactly the placeholders of the text, from left to right. -/
structure Places (text : List Char) (places : List (Nat × List Char)) : Prop where
  occurs : ∀ i name, (i, name) ∈ places ↔ OccursAt text i name
  ordered : places.Pairwise fun a b => a.1 < b.1

theorem places_placeholders (template : String) :
    Places template.toList (placeholders template) :=
  ⟨fun _ _ => mem_placeholders template, pairwise_placeholders template⟩

theorem Places.nodup {text : List Char} {places : List (Nat × List Char)} (h : Places text places) :
    places.Nodup := by
  refine h.ordered.imp ?_
  rintro place _ hless rfl
  exact absurd hless (Nat.lt_irrefl _)

/-- A text has one list of places. -/
theorem Places.unique {text : List Char} {places others : List (Nat × List Char)}
    (h : Places text places) (hothers : Places text others) : places = others := by
  have hperm : places.Perm others := by
    rw [List.perm_ext_iff_of_nodup h.nodup hothers.nodup]
    rintro ⟨i, name⟩
    rw [h.occurs, hothers.occurs]
  refine hperm.eq_of_pairwise ?_ h.ordered hothers.ordered
  intro a b _ _ hab hba
  exact absurd (Nat.lt_trans hab hba) (Nat.lt_irrefl _)

/-! ## §2. What a template depends on. -/

section

variable {template : String} {context other : Context}

theorem mem_findVariables_of_mem_scan {piece : Piece} {name : String} (hpiece : piece ∈ scan template)
    (hname : piece.name? = some name) : name ∈ findVariables template :=
  List.mem_eraseDups.2 (List.mem_filterMap.2 ⟨piece, hpiece, hname⟩)

theorem render_congr (h : ∀ name ∈ findVariables template, other.lookup name = context.lookup name) :
    render template other = render template context := by
  unfold render
  congr 1
  apply List.flatMap_congr
  intro piece hpiece
  have hbound : (piece.name?.bind fun name => other.lookup name) =
      piece.name?.bind fun name => context.lookup name := by
    cases hname : piece.name? with
    | none => rfl
    | some name => exact h name (mem_findVariables_of_mem_scan hpiece hname)
  unfold Piece.render
  rw [hbound]

theorem unresolved_congr
    (h : ∀ name ∈ findVariables template, other.lookup name = context.lookup name) :
    unresolved template other = unresolved template context :=
  List.filter_congr fun name hname => by rw [h name hname]

/-- Only the texts of the variables of a template matter. -/
theorem resolve_congr (mode : Mode)
    (h : ∀ name ∈ findVariables template, other.lookup name = context.lookup name) :
    resolve mode template other = resolve mode template context := by
  unfold resolve
  rw [unresolved_congr h, render_congr h]

/-- The names without a text are the variables that the context does not have. -/
theorem unresolved_eq_filter :
    unresolved template context =
      (findVariables template).filter fun name => !context.hasKey name := by
  unfold unresolved
  congr 1
  funext name
  rw [← Dictionary.isSome_lookup]
  cases context.lookup name <;> rfl

theorem resolve_eq_ok {mode : Mode} {text : String} :
    resolve mode template context = .ok text ↔
      (mode = .strict → unresolved template context = []) ∧ render template context = text := by
  unfold resolve
  cases mode with
  | lenient => cases unresolved template context <;> simp
  | strict => cases unresolved template context <;> simp

theorem resolve_strict_eq_error {names : List String} :
    resolve .strict template context = .error names ↔
      names ≠ [] ∧ names = unresolved template context := by
  unfold resolve
  cases unresolved template context with
  | nil => simp
  | cons name more =>
    constructor
    · rintro ⟨⟩
      exact ⟨nofun, rfl⟩
    · rintro ⟨-, rfl⟩
      rfl

end

/-! ## §3. Lines. -/

/-- No placeholder goes on behind a line feed. -/
theorem scanFrom_append_feed (open? : Option (List Char)) (cs rest : List Char) :
    scanFrom open? (cs ++ '\n' :: rest) =
      scanFrom open? cs ++ .literal '\n' :: scanFrom none rest := by
  induction cs generalizing open? with
  | nil =>
    cases open? with
    | none => exact scanFrom_outside (by decide) rest
    | some part => simpa [scanFrom] using scanFrom_broken (.inr rfl) part rest
  | cons c cs ih =>
    cases open? with
    | none =>
      by_cases hbrace : c = '{'
      · subst hbrace
        exact ih (some [])
      · rw [List.cons_append, scanFrom_outside hbrace, scanFrom_outside hbrace, ih]
        rfl
    | some part =>
      rw [List.cons_append]
      by_cases hends : endsName c = true
      · rcases endsName_iff.1 hends with rfl | rfl | hbreak
        · rw [scanFrom_reopened, scanFrom_reopened, ih, List.append_assoc]
        · rw [scanFrom_closed, scanFrom_closed, ih]
          rfl
        · rw [scanFrom_broken hbreak, scanFrom_broken hbreak, ih, List.append_assoc]
          rfl
      · have hgoes : endsName c = false := by simpa using hends
        rw [scanFrom_inside hgoes, scanFrom_inside hgoes, ih]

section

variable (template more : String) (context : Context)

theorem scan_lines :
    scan (template ++ "\n" ++ more) = scan template ++ .literal '\n' :: scan more := by
  have hspelled : (template ++ "\n" ++ more).toList = template.toList ++ '\n' :: more.toList := by
    simp
  unfold scan
  rw [hspelled, scanFrom_append_feed]

theorem render_lines :
    render (template ++ "\n" ++ more) context =
      render template context ++ "\n" ++ render more context := by
  unfold render
  rw [scan_lines, List.flatMap_append, List.flatMap_cons]
  apply String.toList_injective
  simp [Piece.render, Piece.name?, Piece.source]

theorem mem_findVariables_lines {name : String} :
    name ∈ findVariables (template ++ "\n" ++ more) ↔
      name ∈ findVariables template ∨ name ∈ findVariables more := by
  simp only [findVariables, List.mem_eraseDups, scan_lines, List.filterMap_append,
    List.filterMap_cons, Piece.name?, List.mem_append]

/-- **Two templates with a line feed between them** are resolved one by one. -/
theorem resolve_lines {mode : Mode} {text : String} :
    resolve mode (template ++ "\n" ++ more) context = .ok text ↔
      ∃ first second, resolve mode template context = .ok first ∧
        resolve mode more context = .ok second ∧ text = first ++ "\n" ++ second := by
  have hnames : unresolved (template ++ "\n" ++ more) context = [] ↔
      unresolved template context = [] ∧ unresolved more context = [] := by
    simp only [unresolved, List.filter_eq_nil_iff, mem_findVariables_lines, or_imp, forall_and]
  simp only [resolve_eq_ok, hnames, render_lines]
  constructor
  · rintro ⟨hresolved, rfl⟩
    exact ⟨_, _, ⟨fun hmode => (hresolved hmode).1, rfl⟩, ⟨fun hmode => (hresolved hmode).2, rfl⟩, rfl⟩
  · rintro ⟨_, _, ⟨hfirst, rfl⟩, ⟨hsecond, rfl⟩, rfl⟩
    exact ⟨fun hmode => ⟨hfirst hmode, hsecond hmode⟩, rfl⟩

end

/-! ## §4. Both modes. -/

/-- **What resolving does.**  Leniently, a template is cut at its placeholders, and the texts of the
known names stand in their places as they are.  Only the texts of its variables matter, and a line
feed keeps two templates apart.  Strictly, the same text comes out, unless a variable has no text:
then exactly the variables without one are refused, in order of first appearance. -/
theorem substitution_exact (template : String) (context : Context) :
    (∃ places, Places template.toList places ∧
      resolve .lenient template context =
        .ok (String.ofList (splice (textOf context) 0 template.toList places))) ∧
    (∀ (mode : Mode) (other : Context),
      (∀ name ∈ findVariables template, other.lookup name = context.lookup name) →
      resolve mode template other = resolve mode template context) ∧
    (∀ (mode : Mode) (more text : String),
      resolve mode (template ++ "\n" ++ more) context = .ok text ↔
        ∃ first second, resolve mode template context = .ok first ∧
          resolve mode more context = .ok second ∧ text = first ++ "\n" ++ second) ∧
    (∀ names, resolve .strict template context = .error names ↔
      names ≠ [] ∧ names = (findVariables template).filter fun name => !context.hasKey name) ∧
    (∀ text, resolve .strict template context = .ok text ↔
      (∀ name ∈ findVariables template, context.hasKey name = true) ∧
        resolve .lenient template context = .ok text) := by
  refine ⟨⟨placeholders template, places_placeholders template, ?_⟩, fun mode other h =>
    resolve_congr mode h, fun mode more text => resolve_lines template more context, ?_, ?_⟩
  · rw [resolve_lenient, render_eq_splice]
  · intro names
    rw [resolve_strict_eq_error, unresolved_eq_filter]
  · intro text
    simp [resolve_eq_ok, unresolved_eq_filter]

/-- A placeholder beside another one in braces. -/
def adjacent : String := "{a}\x7b{b}\x7d"

/-- Texts that, with the characters around them, look like placeholders. -/
def lookalikes : Context := [("a", "\x7bb"), ("b", "{a}")]

theorem substitution_exact_lookalikes :
    (∀ name ∈ findVariables adjacent,
      List.lookup name (lookalikes ++ [("c", "x")]) = lookalikes.lookup name) ∧
    resolve .strict adjacent (lookalikes ++ [("c", "x")]) = .ok "\x7bb\x7b{a}\x7d" := by
  have same : ∀ name ∈ findVariables adjacent,
      List.lookup name (lookalikes ++ [("c", "x")]) = lookalikes.lookup name := by decide
  obtain ⟨-, depends, -⟩ := substitution_exact adjacent lookalikes
  exact ⟨same, (depends .strict _ same).trans (by decide)⟩

end PromptForms.Template
