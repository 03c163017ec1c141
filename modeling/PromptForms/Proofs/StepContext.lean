/-
  PromptForms.Proofs.StepContext
  ──────────────────────────────
  **THE ENTRIES OF A CONTEXT.**

  A context is written in three turns: the fields, the summary of all fields, and the
  outputs of the steps before.  Ids of fields are no reserved names, and the names of
  outputs are reserved and differ, so no turn writes over an earlier one: what has been
  written is the context.

      Field.Displayed     fields in the order in which a form shows them
      Complete            what a step finds in its context, and that there is no more

  Main results:
    • displayed_inDisplayOrder    the order of display sorts and keeps ties
    • context_eq                  the context is the list of what is written
    • context_exact               what a context has, and what it depends on
-/
import Mathlib
import PromptForms.Proofs.Numbering
import PromptForms.Proofs.References
import PromptForms.Service.Forms
import PromptForms.Template.Context

namespace PromptForms

/-! ## §1. The order of display. -/

/-- The fields by their order, those of one order as they were declared. -/
structure Field.Displayed (fields shown : List Field) : Prop where
  same : shown.Perm fields
  sorted : shown.Pairwise fun f g => f.order ≤ g.order
  stable : ∀ order : Int, (shown.filter fun f => f.order = order) = fields.filter fun f => f.order = order

theorem Field.perm_inDisplayOrder (fields : List Field) :
    (Field.inDisplayOrder fields).Perm fields := List.mergeSort_perm _ _

theorem Field.displayed_inDisplayOrder (fields : List Field) :
    Field.Displayed fields (Field.inDisplayOrder fields) := by
  have hsort := stable_mergeSort Field.order (fun _ _ => decide_eq_true_iff) fields
  exact ⟨Field.perm_inDisplayOrder fields, hsort.1, hsort.2⟩

namespace Template

/-! ## §2. What is written. -/

section

variable {fields : List Field} {values : Dictionary Value} {f : Field}

/-- The line of a field in the summary of all fields. -/
def summaryLine (values : Dictionary Value) (f : Field) : String :=
  f.label ++ ": " ++ valueText (values.lookup f.id)

/-- The text of a field is that of its value, also if two fields share their id. -/
theorem lookup_fieldTexts (hf : f ∈ fields) :
    (fieldTexts fields values).lookup f.id = some (valueText (values.lookup f.id)) := by
  have hsome : ((fieldTexts fields values).lookup f.id).isSome = true := by
    rw [Dictionary.isSome_lookup, fieldTexts, Dictionary.hasKey_ofPairs, List.contains_iff_mem]
    exact List.mem_map.2 ⟨_, List.mem_map.2 ⟨f, hf, rfl⟩, rfl⟩
  obtain ⟨text, htext⟩ := Option.isSome_iff_exists.1 hsome
  have hmem := (Dictionary.lookup_eq_some_iff (Dictionary.nodup_keys_ofPairs _)).1 htext
  obtain ⟨g, -, hg⟩ := List.mem_map.1 (Dictionary.mem_of_mem_ofPairs hmem)
  obtain ⟨hid, rfl⟩ := Prod.mk.inj hg
  rw [htext, hid]

theorem allFieldsText_eq (fields : List Field) (values : Dictionary Value) :
    allFieldsText fields (fieldTexts fields values) =
      "\n".intercalate ((Field.inDisplayOrder fields).map (summaryLine values)) := by
  unfold allFieldsText
  congr 1
  apply List.map_congr_left
  intro f hf
  rw [lookup_fieldTexts ((Field.perm_inDisplayOrder fields).mem_iff.1 hf)]
  rfl

/-- Two outputs have different names. -/
theorem stepOutputName_injective : Function.Injective stepOutputName := by
  intro k n h
  have spelled := congrArg String.toList h
  rw [toList_outputName, toList_outputName, List.append_cancel_left_eq,
    List.append_cancel_right_eq] at spelled
  exact Int.repr_inj.1 (String.toList_injective spelled)

theorem keys_outputTexts (outputs : List Output) (step : Int) :
    Dictionary.keys (outputTexts outputs step) =
      (outputs.filter fun o => o.step < step).map fun o => stepOutputName o.step := by
  unfold outputTexts Dictionary.keys
  rw [List.map_map]
  rfl

theorem isReserved_of_mem_outputTexts {outputs : List Output} {step : Int} {name : String}
    (h : name ∈ Dictionary.keys (outputTexts outputs step)) : isReserved name = true := by
  rw [keys_outputTexts, List.mem_map] at h
  obtain ⟨o, -, rfl⟩ := h
  exact isReserved_stepOutputName o.step

/-- A name that is not reserved has the text that a field with that id has. -/
theorem lookup_context_of_not_isReserved {name : String} (hname : isReserved name = false)
    (fields : List Field) (values : Dictionary Value) (outputs : List Output) (step : Int) :
    (context fields values outputs step).lookup name = (fieldTexts fields values).lookup name := by
  have houtputs : name ∉ Dictionary.keys (outputTexts outputs step) := by
    intro hmem
    rw [isReserved_of_mem_outputTexts hmem] at hname
    cases hname
  have hall : name ≠ allFieldsName := by
    rintro rfl
    cases hname
  unfold context
  rw [Dictionary.lookup_setAll_of_notMem _ houtputs, Dictionary.lookup_set_of_ne _ _ hall]

/-- A step finds the text of every field of the form. -/
theorem lookup_context_field (hids : reservedIds fields = []) (hf : f ∈ fields)
    (outputs : List Output) (step : Int) :
    (context fields values outputs step).lookup f.id = some (valueText (values.lookup f.id)) := by
  have hfree := not_isReserved_of_reservedIds hids f.id (List.mem_map.2 ⟨f, hf, rfl⟩)
  rw [lookup_context_of_not_isReserved hfree, lookup_fieldTexts hf]

end

/-! ## §3. Nothing is written over. -/

/-- All that is written into a context. -/
def entries (fields : List Field) (values : Dictionary Value) (outputs : List Output)
    (step : Int) : List (String × String) :=
  (fields.map fun f => (f.id, valueText (values.lookup f.id))) ++
    (allFieldsName,
      "\n".intercalate ((Field.inDisplayOrder fields).map (summaryLine values))) ::
    outputTexts outputs step

section

variable {fields : List Field} {values : Dictionary Value} {outputs : List Output} {step : Int}

theorem keys_entries :
    Dictionary.keys (entries fields values outputs step) =
      fields.map (·.id) ++ allFieldsName ::
        (outputs.filter fun o => o.step < step).map fun o => stepOutputName o.step := by
  rw [← keys_outputTexts]
  simp [entries, Dictionary.keys, Function.comp_def]

/-- The names that are written differ. -/
theorem nodup_keys_entries (hdistinct : (fields.map (·.id)).Nodup) (hids : reservedIds fields = [])
    (hsteps : (outputs.map (·.step)).Nodup) :
    (Dictionary.keys (entries fields values outputs step)).Nodup := by
  have hfree := not_isReserved_of_reservedIds hids
  have hnames : ((outputs.filter fun o => o.step < step).map fun o => stepOutputName o.step).Nodup := by
    have hkept : ((outputs.filter fun o => o.step < step).map (·.step)).Nodup :=
      hsteps.sublist (List.filter_sublist.map _)
    have hmapped := hkept.map stepOutputName_injective
    rwa [List.map_map] at hmapped
  rw [keys_entries, List.nodup_append]
  refine ⟨hdistinct, List.nodup_cons.2 ⟨?_, hnames⟩, ?_⟩
  · intro hmem
    obtain ⟨o, -, ho⟩ := List.mem_map.1 hmem
    exact stepOutputName_ne_allFieldsName o.step ho
  · rintro id hid name hname rfl
    -- The other names are reserved.
    rcases List.mem_cons.1 hname with rfl | houtput
    · cases hfree _ hid
    · obtain ⟨o, -, rfl⟩ := List.mem_map.1 houtput
      have hreserved := hfree _ hid
      rw [isReserved_stepOutputName] at hreserved
      cases hreserved

/-- **Nothing is written over.**  The context is the list of what is written. -/
theorem context_eq (hdistinct : (fields.map (·.id)).Nodup) (hids : reservedIds fields = [])
    (hsteps : (outputs.map (·.step)).Nodup) :
    context fields values outputs step = entries fields values outputs step := by
  have hnodup : (Dictionary.keys (entries fields values outputs step)).Nodup :=
    nodup_keys_entries hdistinct hids hsteps
  have htexts : fieldTexts fields values =
      fields.map fun f => (f.id, valueText (values.lookup f.id)) := by
    apply Dictionary.ofPairs_of_nodup
    simpa [Dictionary.keys, Function.comp_def] using hdistinct
  have hall : allFieldsName ∉ (fieldTexts fields values).keys := by
    rw [htexts]
    intro hmem
    have hid : allFieldsName ∈ fields.map (·.id) := by
      simpa [Dictionary.keys, Function.comp_def] using hmem
    cases not_isReserved_of_reservedIds hids _ hid
  have hspelled : (fieldTexts fields values).set allFieldsName
      (allFieldsText fields (fieldTexts fields values)) ++ outputTexts outputs step =
        entries fields values outputs step := by
    rw [Dictionary.set_of_notMem hall, allFieldsText_eq, htexts, List.append_assoc]
    rfl
  unfold context
  rw [← hspelled]
  exact Dictionary.setAll_eq_append (hspelled.symm ▸ hnodup)

end

/-! ## §4. What a step finds. -/

/-- What a step finds in its context: the text of every field, all fields in display order, the
outputs of the steps before it, each under a name of its own, and nothing else. -/
structure Complete (fields : List Field) (values : Dictionary Value) (outputs : List Output)
    (step : Int) (seen : Context) : Prop where
  field : ∀ f ∈ fields, seen.lookup f.id = some (valueText (values.lookup f.id))
  summary : ∃ shown, Field.Displayed fields shown ∧
    seen.lookup allFieldsName = some ("\n".intercalate (shown.map (summaryLine values)))
  output : ∀ (k : Int) (text : String),
    seen.lookup (stepOutputName k) = some text ↔ k < step ∧ (⟨k, text⟩ : Output) ∈ outputs
  names : seen.keys = fields.map (·.id) ++ allFieldsName ::
    (outputs.filter fun o => o.step < step).map fun o => stepOutputName o.step
  distinct : seen.keys.Nodup

section

variable {fields : List Field} {values : Dictionary Value} {outputs : List Output} {step : Int}

theorem complete_context (hdistinct : (fields.map (·.id)).Nodup) (hids : reservedIds fields = [])
    (hsteps : (outputs.map (·.step)).Nodup) :
    Complete fields values outputs step (context fields values outputs step) := by
  have hnodup : (Dictionary.keys (entries fields values outputs step)).Nodup :=
    nodup_keys_entries hdistinct hids hsteps
  have heq : context fields values outputs step = entries fields values outputs step :=
    context_eq hdistinct hids hsteps
  refine ⟨fun f hf => lookup_context_field hids hf outputs step, ?_, ?_, ?_, ?_⟩
  · refine ⟨_, Field.displayed_inDisplayOrder fields, ?_⟩
    rw [heq, Dictionary.lookup_eq_some_iff hnodup]
    exact List.mem_append_right _ List.mem_cons_self
  · intro k text
    rw [heq, Dictionary.lookup_eq_some_iff hnodup, entries, List.mem_append, List.mem_cons]
    constructor
    · rintro (hfield | hall | houtput)
      · -- A name of an output is reserved, and an id is not.
        obtain ⟨f, hf, hpair⟩ := List.mem_map.1 hfield
        have hfree := not_isReserved_of_reservedIds hids f.id (List.mem_map.2 ⟨f, hf, rfl⟩)
        rw [(Prod.mk.inj hpair).1, isReserved_stepOutputName] at hfree
        cases hfree
      · exact absurd (Prod.mk.inj hall).1 (stepOutputName_ne_allFieldsName k)
      · obtain ⟨o, ho, hpair⟩ := List.mem_map.1 houtput
        obtain ⟨hname, rfl⟩ := Prod.mk.inj hpair
        obtain rfl := stepOutputName_injective hname
        exact ⟨of_decide_eq_true (List.mem_filter.1 ho).2, (List.mem_filter.1 ho).1⟩
    · rintro ⟨hless, ho⟩
      exact .inr (.inr (List.mem_map.2 ⟨_, List.mem_filter.2 ⟨ho, decide_eq_true hless⟩, rfl⟩))
  · rw [heq, keys_entries]
  · rw [heq]
    exact hnodup

/-- Outputs of later steps are not looked at. -/
theorem context_filter (fields : List Field) (values : Dictionary Value) (outputs : List Output)
    (step : Int) :
    context fields values (outputs.filter fun o => o.step < step) step =
      context fields values outputs step := by
  unfold context outputTexts
  rw [List.filter_filter]
  simp only [Bool.and_self]

/-- Outputs of the steps before, in any order and among any others, give every name one text. -/
theorem lookup_context_of_perm (hdistinct : (fields.map (·.id)).Nodup)
    (hids : reservedIds fields = []) (hsteps : (outputs.map (·.step)).Nodup) {others : List Output}
    (h : (others.filter fun o => o.step < step).Perm (outputs.filter fun o => o.step < step))
    (name : String) :
    (context fields values others step).lookup name =
      (context fields values outputs step).lookup name := by
  have hkept : ((outputs.filter fun o => o.step < step).map (·.step)).Nodup :=
    hsteps.sublist (List.filter_sublist.map _)
  have hothers : ((others.filter fun o => o.step < step).map (·.step)).Nodup :=
    (h.map _).nodup_iff.2 hkept
  have hentries : (entries fields values (others.filter fun o => o.step < step) step).Perm
      (entries fields values (outputs.filter fun o => o.step < step) step) :=
    (((h.filter _).map _).cons _).append_left _
  rw [← context_filter fields values others, ← context_filter fields values outputs,
    context_eq hdistinct hids hothers, context_eq hdistinct hids hkept]
  exact Dictionary.lookup_of_perm (nodup_keys_entries hdistinct hids hkept) hentries name

/-- Only the values of the fields matter. -/
theorem context_congr {more : Dictionary Value}
    (h : ∀ f ∈ fields, more.lookup f.id = values.lookup f.id) :
    context fields more outputs step = context fields values outputs step := by
  have htexts : fieldTexts fields more = fieldTexts fields values := by
    unfold fieldTexts
    congr 1
    apply List.map_congr_left
    intro f hf
    rw [h f hf]
  unfold context
  rw [htexts]

end

/-- **What a step finds in its context**, if the fields have different ids that are accepted and the
outputs are of different steps: the texts of the fields, the summary, and the outputs of the steps
before, nothing written over.  Outputs that come later, their order, and values that are for no field
do not matter. -/
theorem context_exact (fields : List Field) (values : Dictionary Value) (outputs : List Output)
    (step : Int) (hdistinct : (fields.map (·.id)).Nodup) (hids : Forms.checkIds fields = .ok ())
    (hsteps : (outputs.map (·.step)).Nodup) :
    Complete fields values outputs step (context fields values outputs step) ∧
    (∀ others : List Output,
      (others.filter fun o => o.step < step).Perm (outputs.filter fun o => o.step < step) →
      ∀ name, (context fields values others step).lookup name =
        (context fields values outputs step).lookup name) ∧
    (∀ more : Dictionary Value, (∀ f ∈ fields, more.lookup f.id = values.lookup f.id) →
      context fields more outputs step = context fields values outputs step) := by
  have hreserved := Forms.reservedIds_of_checkIds hids
  refine ⟨complete_context hdistinct hreserved hsteps, ?_, fun more h => context_congr h⟩
  intro others h name
  exact lookup_context_of_perm hdistinct hreserved hsteps h name

/-- Two fields, declared against their order, one of them without a value. -/
def person : List Field :=
  [{ id := "mood", type := .text, label := "Mood", order := 1 },
    { id := "name", type := .text, label := "Name" }]

theorem context_exact_person :
    (context person [("name", .text "Ann"), ("age", .text "7")] [⟨3, "late"⟩, ⟨1, "Hello"⟩] 2).keys
      = ["mood", "name", "all_fields", "step_1_output"] ∧
    (context person [("name", .text "Ann"), ("age", .text "7")] [⟨3, "late"⟩, ⟨1, "Hello"⟩] 2).lookup
      "step_1_output" = some "Hello" := by
  have distinct : (person.map (·.id)).Nodup := by decide
  have accepted : Forms.checkIds person = .ok () := by decide
  have steps : ([⟨3, "late"⟩, ⟨1, "Hello"⟩].map Output.step).Nodup := by decide
  obtain ⟨complete, -⟩ := context_exact person [("name", .text "Ann"), ("age", .text "7")]
    [⟨3, "late"⟩, ⟨1, "Hello"⟩] 2 distinct accepted steps
  refine ⟨?_, (complete.output 1 "Hello").2 ⟨by decide, by decide⟩⟩
  exact complete.names

end Template

end PromptForms
