/-
  PromptForms.Proofs.Referable
  ────────────────────────────
  **REFERRING TO A FIELD.**

  A template refers to a field by its id between braces, so the check of an id refuses
  braces and line breaks.  It overlooks one line feed at the end.  Every field whose id
  does not end in a line feed can be referred to.  A field whose id does cannot: its
  placeholder would go on over the end of a line, so it is none, and is left as it is.

      Field.reference     the placeholder of a field
      Referable           a template can refer to the field

  Main results:
    • isSafeId_of_check        what is known of the id of a field that was read
    • isName_of_isSafeId       an id without a line feed at its end is a name
    • findVariables_unclosed   an id with one makes no placeholder
    • referable_iff            which fields can be referred to
    • unreferable_feed         a field that cannot
-/
import PromptForms.Proofs.Documents
import PromptForms.Proofs.StepContext
import PromptForms.Proofs.Substitution

namespace PromptForms

open Schema Checked

/-! ## §1. Ids. -/

/-- The id of a field that has been read has passed its test. -/
theorem Field.isSafeId_of_check {document : Json} {f : Field} (h : Field.check document = .good f) :
    Field.isSafeId f.id = true := by
  obtain ⟨m, -, h⟩ := andThen_eq_good.1 h
  obtain ⟨g, h9, hoptions⟩ := andThen_eq_good.1 h
  obtain rfl := checkOptions_eq_good hoptions
  obtain ⟨_, order, h8, -, rfl⟩ := seq_eq_good.1 h9
  obtain ⟨_, rules, h7, -, rfl⟩ := seq_eq_good.1 h8
  obtain ⟨_, options, h6, -, rfl⟩ := seq_eq_good.1 h7
  obtain ⟨_, helpText, h5, -, rfl⟩ := seq_eq_good.1 h6
  obtain ⟨_, placeholder, h4, -, rfl⟩ := seq_eq_good.1 h5
  obtain ⟨_, required, h3, -, rfl⟩ := seq_eq_good.1 h4
  obtain ⟨_, label, h2, -, rfl⟩ := seq_eq_good.1 h3
  obtain ⟨_, type, h1, -, rfl⟩ := seq_eq_good.1 h2
  obtain ⟨id, hid, rfl⟩ := map_eq_good.1 h1
  obtain ⟨value, -, hvalue⟩ := required_eq_good.1 hid
  obtain ⟨text, -, htext⟩ := andThen_eq_good.1 hvalue
  obtain ⟨hsafe, rfl⟩ := ensure_eq_good.1 htext
  exact hsafe

namespace Template

theorem isName_of_all {chars : List Char} (h : chars.all Field.isIdChar = true) : IsName chars := by
  rw [isName_iff]
  intro c hc
  have hid := List.all_eq_true.1 h c hc
  rw [Bool.eq_false_iff]
  intro hends
  rcases endsName_iff.1 hends with rfl | rfl | rfl | rfl <;> cases hid

/-- An id without a line feed at its end is a name. -/
theorem isName_of_isSafeId {id : String} (h : Field.isSafeId id = true)
    (hend : id.toList.getLast? ≠ some '\n') : IsName id.toList := by
  unfold Field.isSafeId at h
  dsimp only at h
  rw [if_neg hend, Bool.and_eq_true] at h
  exact isName_of_all h.2

/-- An id with a line feed at its end is a name in front of it. -/
theorem exists_name_of_isSafeId {id : String} (h : Field.isSafeId id = true)
    (hend : id.toList.getLast? = some '\n') :
    ∃ name, name ≠ [] ∧ IsName name ∧ id.toList = name ++ ['\n'] := by
  unfold Field.isSafeId at h
  dsimp only at h
  rw [if_pos hend, Bool.and_eq_true] at h
  refine ⟨id.toList.dropLast, ?_, isName_of_all h.2, ?_⟩
  · intro hnil
    rw [hnil] at h
    cases h.1
  · exact (List.dropLast_append_getLast? '\n' hend).symm

/-! ## §2. Placeholders of ids. -/

/-- A name between an opening and a closing brace is one piece. -/
theorem scanFrom_name {name : List Char} (hname : IsName name) (part rest : List Char) :
    scanFrom (some part) (name ++ '}' :: rest) =
      .placeholder (part.reverse ++ name) :: scanFrom none rest := by
  rw [isName_iff] at hname
  induction name generalizing part with
  | nil => rw [List.nil_append, scanFrom_closed, List.append_nil]
  | cons c name ih =>
    rw [List.cons_append, scanFrom_inside (hname c List.mem_cons_self),
      ih fun d hd => hname d (List.mem_cons_of_mem c hd)]
    simp

/-- A name between braces. -/
def braced (name : String) : String := "\x7b" ++ name ++ "\x7d"

theorem toList_braced (name : String) : (braced name).toList = '{' :: (name.toList ++ ['}']) := by
  unfold braced
  simp

section

variable {name : String}

theorem scan_braced (hname : IsName name.toList) :
    scan (braced name) = [.placeholder name.toList] := by
  unfold scan
  rw [toList_braced]
  show scanFrom (some []) (name.toList ++ '}' :: []) = _
  rw [scanFrom_name hname]
  rfl

theorem findVariables_braced (hname : IsName name.toList) : findVariables (braced name) = [name] := by
  unfold findVariables
  rw [scan_braced hname]
  show [String.ofList name.toList].eraseDups = _
  rw [String.ofList_toList]
  rfl

/-- A template that is one placeholder has the text of its name. -/
theorem resolve_braced (hname : IsName name.toList) {context : Context} {text : String}
    (htext : context.lookup name = some text) (mode : Mode) :
    resolve mode (braced name) context = .ok text := by
  rw [resolve_eq_ok]
  constructor
  · intro _
    unfold unresolved
    rw [findVariables_braced hname]
    simp [htext]
  · unfold render
    rw [scan_braced hname]
    apply String.toList_injective
    simp [Piece.render, Piece.name?, htext]

/-- A line feed in front of the closing brace leaves no placeholder. -/
theorem findVariables_unclosed {part : List Char} (hpart : IsName part)
    (hname : name.toList = part ++ ['\n']) : findVariables (braced name) = [] := by
  apply List.eq_nil_iff_forall_not_mem.2
  intro other hother
  obtain ⟨i, hoccurs⟩ := mem_findVariables.1 hother
  have hspelled : (braced name).toList = '{' :: part ++ '\n' :: ['}'] := by
    rw [toList_braced, hname]
    simp
  rw [hspelled] at hoccurs
  rcases (occursAt_opened hpart (by decide)).1 hoccurs with ⟨-, hclosed, -⟩ | ⟨-, hbehind⟩
  · cases hclosed
  · -- What follows has no opening brace at all.
    have hopening : '{' ∉ ['\n', '}'] := by decide
    exact absurd ((occursAt_append hopening []).1 hbehind).2.closes List.not_mem_nil

end

/-- A template without variables is its own text. -/
theorem resolve_of_findVariables_eq_nil {template : String} (h : findVariables template = [])
    (mode : Mode) (context : Context) : resolve mode template context = .ok template := by
  have hplaces : placeholders template = [] := by
    cases hplace : placeholders template with
    | nil => rfl
    | cons place more =>
      have hmem : String.ofList place.2 ∈ findVariables template := by
        rw [findVariables_eq, List.mem_eraseDups, hplace, List.map_cons]
        exact List.mem_cons_self
      rw [h] at hmem
      cases hmem
  rw [resolve_eq_ok]
  constructor
  · intro _
    unfold unresolved
    rw [h]
    rfl
  · rw [render_eq_splice, hplaces]
    exact String.ofList_toList

/-- The check has nothing to say of a step that only refers to fields. -/
theorem checkStep_of_fields {fieldIds : List String} {step : Step}
    (h : ∀ name ∈ findVariables step.prompt, name ∈ fieldIds) :
    checkStep fieldIds step = .ok [] := by
  have hnames : ∀ names : List String, (∀ name ∈ names, name ∈ fieldIds) →
      names.mapM (checkName step.number fieldIds) = .ok (names.map fun _ => none) := by
    intro names hmem
    rw [mapM_eq_ok, List.forall₂_map_right_iff, List.forall₂_same]
    intro name hname
    unfold checkName
    rw [if_pos]
    simpa using Or.inr (hmem name hname)
  unfold checkStep
  rw [hnames _ h]
  show Except.ok (((findVariables step.prompt).map fun _ => none).filterMap id) = _
  simp

/-! ## §3. Fields that can be referred to. -/

/-- A template can refer to a field of a form: the id between braces is a placeholder, has the text of
the field in every context of the form, and is nothing to warn about. -/
structure Referable (fields : List Field) (f : Field) : Prop where
  safe : IsName f.id.toList
  found : findVariables (braced f.id) = [f.id]
  resolved : ∀ values outputs step mode,
    resolve mode (braced f.id) (context fields values outputs step) =
      .ok (valueText (values.lookup f.id))
  known : ∀ step : Step, step.prompt = braced f.id →
    checkStep (fields.map (·.id)) step = .ok []

/-- **Which fields can be referred to.**  Of the fields that have been read and accepted, those whose
id does not end in a line feed.  The placeholder of any other one is none, and is left as it is;
nothing is said about it when the step is checked. -/
theorem referable_iff {document : Json} {f : Field} {fields : List Field}
    (hcheck : Field.check document = .good f) (hids : Forms.checkIds fields = .ok ())
    (hf : f ∈ fields) :
    (Referable fields f ↔ f.id.toList.getLast? ≠ some '\n') ∧
    (f.id.toList.getLast? = some '\n' →
      (∃ name, name ≠ [] ∧ IsName name ∧ f.id.toList = name ++ ['\n']) ∧
      findVariables (braced f.id) = [] ∧
      (∀ mode context, resolve mode (braced f.id) context = .ok (braced f.id)) ∧
      ∀ step : Step, step.prompt = braced f.id → checkStep (fields.map (·.id)) step = .ok []) := by
  have hsafe := Field.isSafeId_of_check hcheck
  refine ⟨⟨?_, ?_⟩, ?_⟩
  · intro hreferable hend
    exact hreferable.safe.2.2.2 (List.mem_of_getLast? hend)
  · intro hend
    have hname := isName_of_isSafeId hsafe hend
    refine ⟨hname, findVariables_braced hname, ?_, ?_⟩
    · intro values outputs step mode
      exact resolve_braced hname
        (lookup_context_field (Forms.reservedIds_of_checkIds hids) hf outputs step) mode
    · intro step hprompt
      apply checkStep_of_fields
      rw [hprompt, findVariables_braced hname]
      rintro name hmem
      rw [List.mem_singleton.1 hmem]
      exact List.mem_map.2 ⟨f, hf, rfl⟩
  · intro hend
    obtain ⟨name, hne, hname, hspelled⟩ := exists_name_of_isSafeId hsafe hend
    have hnone := findVariables_unclosed hname hspelled
    refine ⟨⟨name, hne, hname, hspelled⟩, hnone, resolve_of_findVariables_eq_nil hnone, ?_⟩
    intro step hprompt
    apply checkStep_of_fields
    rw [hprompt, hnone]
    exact fun _ hmem => absurd hmem List.not_mem_nil

/-- A field for a name. -/
def nameField : Field := { id := "full name", type := .text, label := "Name" }

theorem referable_iff_name :
    resolve .strict (braced "full name")
      (context [nameField] [("full name", .text "\x7bAnn\x7d")] [⟨1, "Hello"⟩] 2) =
        .ok "\x7bAnn\x7d" := by
  have checked : Field.check nameField.toJson = .good nameField := rfl
  have accepted : Forms.checkIds [nameField] = .ok () := by decide
  have referable : Referable [nameField] nameField :=
    (referable_iff checked accepted List.mem_cons_self).1.2 (by decide)
  exact referable.resolved [("full name", .text "\x7bAnn\x7d")] [⟨1, "Hello"⟩] 2 .strict

/-- A field whose id ends in a line feed. -/
def noteField : Field := { id := "note\n", type := .text, label := "Note" }

/-- **A field that cannot be referred to** is read and accepted like any other, though its id holds a
line break: its placeholder is none, and is left as it is in a context that has a text for it. -/
theorem unreferable_feed :
    Field.check noteField.toJson = .good noteField ∧ Forms.checkIds [noteField] = .ok () ∧
      '\n' ∈ noteField.id.toList ∧ findVariables (braced noteField.id) = [] ∧
      resolve .lenient (braced noteField.id) (context [noteField] [("note\n", .text "Ann")] [] 1) =
        .ok (braced noteField.id) ∧
      (context [noteField] [("note\n", .text "Ann")] [] 1).lookup noteField.id = some "Ann" ∧
      ¬Referable [noteField] noteField := by
  refine ⟨rfl, by decide, by decide, by decide, by decide, by decide, ?_⟩
  intro hreferable
  exact absurd hreferable.found (by decide)

end Template

end PromptForms
