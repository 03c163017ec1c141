/-
  PromptForms.Proofs.Stored
  ─────────────────────────
  **STORED SUBMISSIONS.**

  A row keeps the values of a submission and the fields it was taken with as documents, and
  a document is kept as a text.  What is decoded from it is what was accepted, so a step sees
  the same whether it is given the one or the other.

      SubmissionRow.Decodes     what is decoded from a row
      SubmissionRow.reread      a row whose documents have been written and read

  Main results:
    • Intake.exact_of_readData      accepted values can be written, by induction on the fields
    • decodes_of_submit             accepted submissions
    • stored_submissions_decode     rows, texts and stored values
-/
import PromptForms.Proofs.Exactness
import PromptForms.Proofs.Overlooking

namespace PromptForms

open Schema

/-! ## §1. Accepted values. -/

namespace Intake

section

variable {f : Field} {raw : Json} {v : Value}

theorem exists_of_readText (h : readText f raw = .ok v) : ∃ s, v = .text s := by
  unfold readText at h
  split at h
  · dsimp only at h
    split at h
    · cases h
    · obtain ⟨-, -, hv⟩ := exists_of_bind_eq_ok h
      cases hv
      exact ⟨_, rfl⟩
  · cases h

theorem exists_of_readNumber (h : readNumber f raw = .ok v) :
    ∃ n, numberOf? raw = some n ∧ v = .number n := by
  unfold readNumber at h
  split at h
  · rename_i n hn
    obtain ⟨-, -, hv⟩ := exists_of_bind_eq_ok h
    cases hv
    exact ⟨n, hn, rfl⟩
  · cases h

theorem exists_of_readDate (h : readDate f raw = .ok v) : ∃ d, v = .date d := by
  unfold readDate at h
  dsimp only at h
  split at h
  · cases h
    exact ⟨_, rfl⟩
  · cases h

theorem exists_of_readChoice (h : readChoice f raw = .ok v) : ∃ s, v = .choice s := by
  unfold readChoice at h
  dsimp only at h
  split at h
  · cases h
    exact ⟨_, rfl⟩
  · cases h

theorem exists_of_readChoices (h : readChoices f raw = .ok v) : ∃ items, v = .choices items := by
  unfold readChoices at h
  split at h
  · split at h
    · cases h
      exact ⟨_, rfl⟩
    · cases h
  · cases h

theorem exists_of_readFile (h : readFile f raw = .ok v) : ∃ s, v = .file s := by
  unfold readFile at h
  split at h
  · cases h
    exact ⟨_, rfl⟩
  · cases h

end

end Intake

open Intake

/-- A number is read from a number or from a text that shows one. -/
theorem Field.numberOf?_of_read {f : Field} {raw : Json} {n : Number}
    (h : f.read raw = .ok (some (.number n))) : numberOf? raw = some n := by
  unfold Field.read at h
  split at h
  · split at h
    · cases h
    · cases h
  · obtain ⟨v, hv, heq⟩ := exists_of_map_eq_ok h
    cases heq
    split at hv
    case h_4 =>
      obtain ⟨m, hm, heq⟩ := exists_of_readNumber hv
      cases heq
      exact hm
    case h_5 => cases (exists_of_readDate hv).choose_spec
    case h_6 | h_7 => cases (exists_of_readChoice hv).choose_spec
    case h_8 => cases (exists_of_readChoices hv).choose_spec
    case h_9 => cases (exists_of_readFile hv).choose_spec
    all_goals cases (exists_of_readText hv).choose_spec

/-- What a field reads from a value that a text can hold can be written. -/
theorem Field.exact_of_read {f : Field} {raw : Json} {v : Value} (hraw : raw.Exact)
    (h : f.read raw = .ok (some v)) : v.toJson.Exact := by
  apply Value.exact_toJson
  rintro n rfl
  have hnumber := numberOf?_of_read h
  cases raw with
  | int i =>
    cases hnumber
    exact hraw
  | real x =>
    cases hnumber
    exact hraw
  | str s => exact Numeral.exact_of_read? hnumber
  | null | bool | arr | obj => cases hnumber

/-- What has been found can be written, and no field has two values. -/
structure Intake.Found.Writable (found : Found) : Prop where
  keys : found.values.keys.Nodup
  values : ∀ pair ∈ found.values, pair.2.toJson.Exact

/-- One more field. -/
theorem Intake.Found.Writable.add {found next : Found} {data : Members} {f : Field}
    (h : found.Writable) (hdata : (Json.obj data).Exact) (hadd : found.add data f = .ok next) :
    next.Writable := by
  have hraw : ((data.lookup f.id).getD .null).Exact := by
    cases hlookup : data.lookup f.id with
    | none => trivial
    | some raw => exact Json.exact_of_lookup hdata hlookup
  unfold Found.add at hadd
  split at hadd
  · rename_i value hread
    cases hadd
    refine ⟨Dictionary.nodup_keys_set h.keys f.id value, ?_⟩
    intro pair hpair
    rcases Dictionary.mem_of_mem_set hpair with rfl | hold
    · exact Field.exact_of_read hraw hread
    · exact h.values pair hold
  · cases hadd
    exact h
  · cases hadd
    exact ⟨h.keys, h.values⟩
  · cases hadd

/-- All fields, one after the other. -/
theorem Intake.Found.Writable.foldlM {fields : List Field} {found last : Found} {data : Members}
    (h : found.Writable) (hdata : (Json.obj data).Exact)
    (hrun : fields.foldlM (fun (found : Found) f => found.add data f) found = .ok last) :
    last.Writable := by
  induction fields generalizing found with
  | nil =>
    cases hrun
    exact h
  | cons f rest ih =>
    obtain ⟨next, hnext, hrest⟩ := exists_of_bind_eq_ok hrun
    exact ih (h.add hdata hnext) hrest

/-- **Accepted values can be written** if the data came from a text. -/
theorem Intake.exact_of_readData {fields : List Field} {data : Members} {values : Dictionary Value}
    (hdata : (Json.obj data).Exact) (h : readData fields data = .ok values) :
    (Value.allToJson values).Exact := by
  unfold readData at h
  split at h
  · rename_i found hfound
    split at h
    · cases h
      have start : Found.Writable {} := ⟨List.nodup_nil, fun _ hpair => nomatch hpair⟩
      have last := start.foldlM hdata hfound
      exact Value.exact_allToJson last.keys last.values
    · cases h
  · cases h

/-! ## §2. Rows. -/

/-- What is decoded from a row: these fields and these values, and so what a step sees. -/
structure SubmissionRow.Decodes (row : SubmissionRow) (fields : List Field)
    (values : Dictionary Value) : Prop where
  fields : row.storedFields = .ok (some fields)
  values : row.storedValues = .ok values

/-- A row that keeps fields and values as documents decodes to them. -/
theorem decodes_documents {row : SubmissionRow} {fields : List Field} {values : Dictionary Value}
    (hfields : ∀ f ∈ fields, ∃ document, Field.check document = .good f)
    (hdata : row.data = Value.allToJson values)
    (hsnapshot : row.fieldSnapshot = Forms.fieldDocuments fields) : row.Decodes fields values where
  fields := by
    have read : checkElements Field.check (.arr (fields.map Field.toJson)) = .ok fields := by
      apply checkElements_map
      intro f hf
      obtain ⟨document, hdocument⟩ := hfields f hf
      exact restores_field document f hdocument
    unfold SubmissionRow.storedFields
    rw [hsnapshot]
    exact congrArg (Except.map some) read
  values := by
    unfold SubmissionRow.storedValues
    rw [hdata]
    cases values with
    | nil => rfl
    | cons pair rest =>
      show (Value.checkAll _).orFail = _
      exact Schema.Checked.orFail_eq_ok.2 (checkAll_valuesToJson (pair :: rest))

/-- The row after its documents have been written as texts and read again. -/
def SubmissionRow.reread (row : SubmissionRow) : Except Json.ReadError SubmissionRow := do
  let data ← Json.read (Json.write row.data)
  let snapshot ← Json.read (Json.write row.fieldSnapshot)
  return { row with data, fieldSnapshot := snapshot }

theorem SubmissionRow.reread_eq_self {row : SubmissionRow} (hdata : row.data.Exact)
    (hsnapshot : row.fieldSnapshot.Exact) : row.reread = .ok row := by
  unfold reread
  rw [Json.read_write hdata, Json.read_write hsnapshot]
  rfl

/-- The documents of fields that came from texts can be written. -/
theorem Forms.exact_fieldDocuments {fields : List Field}
    (h : ∀ f ∈ fields, ∃ document, document.Exact ∧ Field.check document = .good f) :
    (Forms.fieldDocuments fields).Exact := by
  apply Json.exact_arr_map
  intro f hf
  obtain ⟨document, hexact, hdocument⟩ := h f hf
  exact writesExact_field document f hexact hdocument

/-- What is stored when a submission is accepted decodes to what was accepted. -/
theorem decodes_of_submit {token : String} {data : Members} {sender : Submissions.Sender}
    {before w : World} {row : SubmissionRow}
    (haccepted : (Submissions.submit token data sender).alone before = (.ok row, w)) :
    ∃ fields values, Intake.readData fields data = .ok values ∧
      w.store.submissions.get? row.id = some row ∧ row.Decodes fields values := by
  obtain ⟨form, fields, values, hfields, hread, hdata, hsnapshot, hrow⟩ :=
    Overlooking.exists_of_submit haccepted
  exact ⟨fields, values, hread, hrow,
    decodes_documents (exists_of_mem_checkElementsIfAny hfields) hdata hsnapshot⟩

/-! ## §3. The result. -/

/-- **Stored submissions decode to what was accepted.**  Take fields that a check has found, values
that they have read from data, and a row that keeps both as documents.

  1. The row decodes to the same fields and the same values: the keys in their order, and for each
     of them the kind and the text of its value.
  2. A step sees in what is decoded what it sees in what was accepted, whatever its number and
     the outputs are.
  3. The row stays the same when its documents are written as texts and read again.  The data and
     the documents of the fields are such as texts hold (`Json.exact_of_read`).
  4. The documents of any stored values mean those values, also after they have been written and
     read. -/
theorem stored_submissions_decode {fields : List Field} {data : Members} {values : Dictionary Value}
    {row : SubmissionRow} (hfields : ∀ f ∈ fields, ∃ document, Field.check document = .good f)
    (haccepted : Intake.readData fields data = .ok values)
    (hdata : row.data = Value.allToJson values)
    (hsnapshot : row.fieldSnapshot = Forms.fieldDocuments fields) :
    row.Decodes fields values ∧
    (∀ fields' values', row.Decodes fields' values' → ∀ outputs step,
      Template.context fields' values' outputs step = Template.context fields values outputs step) ∧
    ((Json.obj data).Exact →
      (∀ f ∈ fields, ∃ document, document.Exact ∧ Field.check document = .good f) →
      row.reread = .ok row) ∧
    (∀ members loaded, Value.checkAll members = .good loaded →
      ∃ dumped, Value.allToJson loaded = .obj dumped ∧ Value.checkAll dumped = .good loaded ∧
        ((Json.obj members).Exact → Json.read (Json.write (.obj dumped)) = .ok (.obj dumped))) := by
  have hdecodes := decodes_documents hfields hdata hsnapshot
  refine ⟨hdecodes, ?_, ?_, ?_⟩
  · intro fields' values' hdecodes' outputs step
    cases hdecodes.fields.symm.trans hdecodes'.fields
    cases hdecodes.values.symm.trans hdecodes'.values
    rfl
  · intro hexact hdocuments
    apply SubmissionRow.reread_eq_self
    · rw [hdata]
      exact Intake.exact_of_readData hexact haccepted
    · rw [hsnapshot]
      exact Forms.exact_fieldDocuments hdocuments
  · intro members loaded hloaded
    refine ⟨_, rfl, checkAll_valuesToJson loaded, ?_⟩
    intro hexact
    exact Json.read_write (Value.exact_of_checkAll hexact hloaded)

namespace Stored

/-- Fields of four types; the second one has a rule. -/
def fields : List Field :=
  [{ id := "name", type := .text, label := "Name", required := true },
    { id := "age", type := .number, label := "Age"
      rules := some { least := some (.ofRatio false 18 1) } },
    { id := "born", type := .date, label := "Born" },
    { id := "likes", type := .checkbox, label := "Likes", options := some ["tea", "milk"] }]

def data : Members :=
  [("name", .str "Ann"), ("age", .str " 1e2 "), ("born", .str "1990-02-01"), ("likes", .str "tea")]

theorem check_fields : ∀ f ∈ fields, Field.check f.toJson = .good f := by
  unfold fields
  simp only [List.forall_mem_cons]
  exact ⟨rfl, rfl, rfl, rfl, fun _ h => absurd h List.not_mem_nil⟩

theorem exact_fields : ∀ f ∈ fields, f.toJson.Exact := by
  have age : Rules.toJson { least := some (.ofRatio false 18 1) } |>.Exact := by
    apply Rules.exact_toJson
    · intro x hx
      cases hx
      exact Binary64.sound_ofRatio false 18 (by decide)
    · exact fun _ hx => nomatch hx
  have zero : (Json.int 0).Exact := exact_int_of_lt (by decide)
  have plain (f : Field) (hrules : f.rules = none) (horder : f.order = 0) : f.toJson.Exact :=
    Field.exact_toJson (fun r hr => by rw [hrules] at hr; cases hr) (horder ▸ zero)
  unfold fields
  simp only [List.forall_mem_cons]
  refine ⟨plain _ rfl rfl, Field.exact_toJson ?_ zero, plain _ rfl rfl, plain _ rfl rfl,
    fun _ h => absurd h List.not_mem_nil⟩
  intro r hr
  cases hr
  exact age

end Stored

/-- A text, a number, a date and a choice are accepted, and the row that keeps them can be written
and read. -/
theorem stored_submissions_decode_person :
    ∃ (values : Dictionary Value) (row : SubmissionRow),
      Intake.readData Stored.fields Stored.data = .ok values ∧
      (values.map fun pair => (pair.1, pair.2.kind, pair.2.asText)) =
        [("name", "text", "Ann"), ("age", "number", "100.0"), ("born", "date", "1990-02-01"),
          ("likes", "multi_choice", "tea")] ∧
      row.Decodes Stored.fields values ∧ row.reread = .ok row := by
  have htexts : ((Intake.readData Stored.fields Stored.data).toOption.map fun values =>
      values.map fun pair => (pair.1, pair.2.kind, pair.2.asText)) =
        some [("name", "text", "Ann"), ("age", "number", "100.0"), ("born", "date", "1990-02-01"),
          ("likes", "multi_choice", "tea")] := by decide +kernel
  obtain ⟨values, hvalues, htexts⟩ := Option.map_eq_some_iff.1 htexts
  have haccepted : Intake.readData Stored.fields Stored.data = .ok values := by
    cases hread : Intake.readData Stored.fields Stored.data with
    | error e =>
      rw [hread] at hvalues
      cases hvalues
    | ok found =>
      rw [hread] at hvalues
      cases hvalues
      rfl
  let row : SubmissionRow :=
    { id := 1, formId := 1, data := Value.allToJson values
      fieldSnapshot := Forms.fieldDocuments Stored.fields, submittedAt := ⟨0⟩ }
  have hdata : (Json.obj Stored.data).Exact :=
    ⟨by decide, trivial, trivial, trivial, trivial, trivial⟩
  obtain ⟨hdecodes, -, hreread, -⟩ := stored_submissions_decode
    (fun f hf => ⟨f.toJson, Stored.check_fields f hf⟩) haccepted
    (show row.data = Value.allToJson values from rfl) rfl
  exact ⟨values, row, haccepted, htexts, hdecodes, hreread hdata fun f hf =>
    ⟨f.toJson, Stored.exact_fields f hf, Stored.check_fields f hf⟩⟩

end PromptForms
