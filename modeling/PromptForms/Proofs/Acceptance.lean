/-
  PromptForms.Proofs.Acceptance
  ─────────────────────────────
  **WHAT BECOMES OF SUBMITTED DATA.**

  Every field reads its own part of the data.  The fields that refuse theirs are reported
  together, and otherwise the values are those of the fields that are not empty.  The
  length of a text is compared with limits that may be infinite.  A text cannot reach such
  a limit, and the reason cannot name it as a number of characters: the data is
  neither accepted nor refused.

      Field.readIn          what a field reads from its part of the data
      Rules.Unreachable     a length has to reach a limit that is infinite
      Field.GivesUp         a field that neither accepts nor refuses a value

  Main results:
    • `foldlM_add` — what the loop over the fields has found, by induction on the fields.
    • `intake_outcomes` — what becomes of data, for all fields with different ids.
-/
import PromptForms.Proofs.Stored

namespace PromptForms

open Intake

/-! ## §1. Infinite limits. -/

/-- A length has to reach a limit that is infinite.  The lower limit comes first; a text that is too
short for a finite one is refused before the upper limit counts. -/
def Rules.Unreachable (rules : Rules) (length : Nat) : Prop :=
  rules.least = some (.infinite false) ∨
    rules.greatest = some (.infinite true) ∧
      ∀ least, rules.least = some least → (Number.int length).lt (.real least) = false

namespace Intake

variable {f : Field} {raw : Json} {text : String}

theorem characterLimit_eq_ok {limit : Binary64} (h : limit.isFinite = true) :
    ∃ n, characterLimit limit = .ok n := by
  cases limit with
  | finite negative m e => exact ⟨_, rfl⟩
  | infinite negative => cases h
  | nan => cases h

theorem characterLimit_eq_error {limit : Binary64} (h : limit.isFinite = false) :
    characterLimit limit = .error .endlessLimit := by
  cases limit with
  | finite negative m e => cases h
  | infinite negative => rfl
  | nan => rfl

/-- One limit on a length: a text that misses it is refused in words that name it. -/
def checkLimit (f : Field) (missed : Binary64 → Bool) (words : Int → String) :
    Option Binary64 → Except Refusal Unit
  | none => .ok ()
  | some limit =>
    if missed limit then characterLimit limit >>= fun n => reject f (words n) else .ok ()

/-- The pattern of a text. -/
def checkPattern (f : Field) (text : String) : Option String → Except Refusal Unit
  | none => .ok ()
  | some pattern =>
    let fits := match Pattern.read pattern with
      | .ok p => p.matchesAll text
      | .error _ => false
    if !fits then reject f "has an invalid format" else .ok ()

/-- The rules on a text are three checks, one after the other. -/
theorem checkText_eq {rules : Rules} (hrules : f.rules = some rules) :
    checkText f text =
      (checkLimit f (fun least => (Number.int text.length).lt (.real least))
          (fun n => s!"must be at least {n} characters") rules.least >>= fun _ =>
        checkLimit f (fun greatest => Number.lt (.real greatest) (.int text.length))
          (fun n => s!"must be at most {n} characters") rules.greatest >>= fun _ =>
        checkPattern f text rules.pattern) := by
  obtain ⟨least?, greatest?, pattern?, message⟩ := rules
  unfold checkText checkLimit
  rw [hrules]
  dsimp only
  -- Both sides ask the same questions; a limit that is missed ends both of them.
  have hgreatest : ∀ greatest, Number.lt (.real greatest) (.int text.length) = true ∨
      Number.lt (.real greatest) (.int text.length) = false := fun _ => Bool.eq_false_or_eq_true _
  cases least? with
  | none =>
    cases greatest? with
    | none => cases pattern? <;> rfl
    | some greatest =>
      rcases hgreatest greatest with hg | hg <;> simp only [hg]
      · cases characterLimit greatest <;> cases pattern? <;> rfl
      · cases pattern? <;> rfl
  | some least =>
    cases hl : (Number.int text.length).lt (.real least) with
    | true => simp only [hl]; cases characterLimit least <;> cases pattern? <;> rfl
    | false =>
      simp only [hl]
      cases greatest? with
      | none => cases pattern? <;> rfl
      | some greatest =>
        rcases hgreatest greatest with hg | hg <;> simp only [hg]
        · cases characterLimit greatest <;> cases pattern? <;> rfl
        · cases pattern? <;> rfl

/-- A limit lets a text pass if it is not missed. -/
theorem checkLimit_eq_ok {missed : Binary64 → Bool} {words : Int → String}
    {limit? : Option Binary64} :
    checkLimit f missed words limit? = .ok () ↔ ∀ limit, limit? = some limit → missed limit = false := by
  cases limit? with
  | none => simp [checkLimit]
  | some limit =>
    simp only [checkLimit, Option.some.injEq, forall_eq']
    cases missed limit with
    | false => simp
    | true => cases characterLimit limit <;> simp [bind, Except.bind, reject]

/-- A limit gives the data up if it is missed and infinite. -/
theorem checkLimit_eq_endless {missed : Binary64 → Bool} {words : Int → String}
    {limit? : Option Binary64} :
    checkLimit f missed words limit? = .error .endlessLimit ↔
      ∃ limit, limit? = some limit ∧ missed limit = true ∧ limit.isFinite = false := by
  cases limit? with
  | none => simp [checkLimit]
  | some limit =>
    simp only [checkLimit, Option.some.injEq, exists_eq_left']
    cases missed limit with
    | false => simp
    | true =>
      cases hfinite : limit.isFinite with
      | false => simp [characterLimit_eq_error hfinite, bind, Except.bind]
      | true =>
        obtain ⟨n, hn⟩ := characterLimit_eq_ok hfinite
        simp [hn, bind, Except.bind, reject]

theorem checkPattern_ne_endless (pattern? : Option String) :
    checkPattern f text pattern? ≠ .error .endlessLimit := by
  unfold checkPattern
  split
  · rintro ⟨⟩
  · dsimp only
    generalize (!match Pattern.read _ with
      | .ok p => p.matchesAll text
      | .error _ => false) = misses
    cases misses <;> rintro ⟨⟩

/-- A check after another one fails as one of them does. -/
theorem check_bind_eq_error {α ε : Type} {x : Except ε Unit} {g : Unit → Except ε α} {e : ε} :
    (x >>= g) = .error e ↔ x = .error e ∨ x = .ok () ∧ g () = .error e := by
  cases x with
  | ok a => simp [bind, Except.bind]
  | error e' => simp [bind, Except.bind]

/-- No length reaches an infinite lower limit, and only that one. -/
theorem misses_least {length : Nat} {limit : Binary64} :
    ((Number.int length).lt (.real limit) = true ∧ limit.isFinite = false) ↔
      limit = .infinite false := by
  cases limit with
  | finite negative m e => simp [Binary64.isFinite]
  | infinite negative => cases negative <;> simp [Number.lt, Binary64.isFinite]
  | nan => simp [Number.lt]

theorem misses_greatest {length : Nat} {limit : Binary64} :
    (Number.lt (.real limit) (.int length) = true ∧ limit.isFinite = false) ↔
      limit = .infinite true := by
  cases limit with
  | finite negative m e => simp [Binary64.isFinite]
  | infinite negative => cases negative <;> simp [Number.lt, Binary64.isFinite]
  | nan => simp [Number.lt]

/-- The rules give a text up exactly if its length has to reach an infinite limit. -/
theorem checkText_eq_endless :
    checkText f text = .error .endlessLimit ↔
      ∃ rules, f.rules = some rules ∧ rules.Unreachable text.length := by
  cases hrules : f.rules with
  | none =>
    unfold checkText
    rw [hrules]
    simp [pure, Except.pure]
  | some rules =>
    rw [checkText_eq hrules]
    simp only [check_bind_eq_error, checkLimit_eq_endless, checkLimit_eq_ok, checkPattern_ne_endless,
      misses_least, misses_greatest, and_false, or_false,
      Option.some.injEq, exists_eq_left', exists_eq_right, Rules.Unreachable]
    exact or_congr Iff.rfl and_comm

theorem checkNumber_ne_endless (n : Number) : checkNumber f n ≠ .error .endlessLimit := by
  unfold checkNumber
  -- Whichever limit a number misses, its refusal has a reason.
  split
  · dsimp only
    repeat' split
    all_goals rintro ⟨⟩
  · rintro ⟨⟩

theorem readNumber_ne_endless : readNumber f raw ≠ .error .endlessLimit := by
  unfold readNumber
  split
  · rw [Ne, check_bind_eq_error]
    rintro (h | ⟨-, ⟨⟩⟩)
    exact checkNumber_ne_endless _ h
  · rintro ⟨⟩

theorem readDate_ne_endless : readDate f raw ≠ .error .endlessLimit := by
  unfold readDate
  dsimp only
  split <;> rintro ⟨⟩

theorem readChoice_ne_endless : readChoice f raw ≠ .error .endlessLimit := by
  unfold readChoice
  dsimp only
  split <;> rintro ⟨⟩

theorem readChoices_ne_endless : readChoices f raw ≠ .error .endlessLimit := by
  unfold readChoices
  split
  · split <;> rintro ⟨⟩
  · rintro ⟨⟩

theorem readFile_ne_endless : readFile f raw ≠ .error .endlessLimit := by
  unfold readFile
  split <;> rintro ⟨⟩

/-- The text of a value, if it counts as one and is an address where one is asked for. -/
def textFor? (f : Field) (raw : Json) : Option String :=
  (textOf? raw).filter fun text => f.type ≠ .email || Email.isAddress text

/-- A text is given up if its rules give it up. -/
theorem readText_eq_endless :
    readText f raw = .error .endlessLimit ↔
      ∃ text, textFor? f raw = some text ∧ checkText f text = .error .endlessLimit := by
  unfold readText textFor?
  cases textOf? raw with
  | none =>
    simp only [Option.filter_none, reduceCtorEq, false_and, exists_false, iff_false]
    rintro ⟨⟩
  | some text =>
    -- Only a text that is no address where one is asked for is refused before its rules count.
    by_cases haddress : f.type = .email ∧ Email.isAddress text = false
    · have hrefused : (decide (f.type = .email) && !Email.isAddress text) = true := by
        simp [haddress.1, haddress.2]
      have hfilter : (some text).filter
          (fun text => decide (f.type ≠ .email) || Email.isAddress text) = none := by
        simp [Option.filter, haddress.1, haddress.2]
      simp only [hrefused, hfilter, reduceCtorEq, false_and, exists_false, iff_false]
      rintro ⟨⟩
    · have hpassed : (decide (f.type = .email) && !Email.isAddress text) = false := by
        by_cases htype : f.type = .email
        · simpa [htype] using haddress
        · simp [htype]
      have hfilter : (some text).filter
          (fun text => decide (f.type ≠ .email) || Email.isAddress text) = some text := by
        by_cases htype : f.type = .email
        · simpa [Option.filter, htype] using haddress
        · simp [Option.filter, htype]
      simp only [hpassed, hfilter, Option.some.injEq, exists_eq_left']
      refine Iff.trans check_bind_eq_error ?_
      refine or_iff_left ?_
      rintro ⟨-, ⟨⟩⟩

end Intake

/-! ## §2. One field. -/

/-- Fields for texts, whose rules are about a length. -/
def FieldType.isText : FieldType → Bool
  | .text | .textarea | .email => true
  | _ => false

/-- The field neither accepts nor refuses a value: it is a text whose length has to reach a limit
that is infinite. -/
def Field.GivesUp (f : Field) (raw : Json) : Prop :=
  isEmpty raw = false ∧ f.type.isText = true ∧
    ∃ text rules, textFor? f raw = some text ∧ f.rules = some rules ∧ rules.Unreachable text.length

section

variable {f : Field} {raw : Json}

theorem Field.read_of_isEmpty (h : isEmpty raw = true) :
    f.read raw = if f.required then .error (.rejected "is required") else .ok none := by
  unfold Field.read
  rw [if_pos h]

theorem map_some_eq_error {α ε : Type} {x : Except ε α} {e : ε} :
    some <$> x = .error e ↔ x = .error e := by
  cases x <;> simp [Functor.map, Except.map]

theorem map_some_eq_ok {α ε : Type} {x : Except ε α} {a : α} :
    some <$> x = .ok (some a) ↔ x = .ok a := by
  cases x <;> simp [Functor.map, Except.map]

/-- A field gives a value up exactly if the text has to reach an infinite limit. -/
theorem Field.read_eq_endless : f.read raw = .error .endlessLimit ↔ f.GivesUp raw := by
  unfold Field.GivesUp
  cases hempty : isEmpty raw with
  | true =>
    rw [read_of_isEmpty hempty]
    cases f.required <;> simp
  | false =>
    unfold Field.read
    simp only [hempty, Bool.false_eq_true, if_false, map_some_eq_error, true_and]
    cases htype : f.type with
    | text | textarea | email =>
      simp only [readText_eq_endless, checkText_eq_endless, FieldType.isText, true_and,
        exists_and_left]
    | number => simp [readNumber_ne_endless, FieldType.isText]
    | date => simp [readDate_ne_endless, FieldType.isText]
    | select | radio => simp [readChoice_ne_endless, FieldType.isText]
    | checkbox => simp [readChoices_ne_endless, FieldType.isText]
    | file => simp [readFile_ne_endless, FieldType.isText]

/-- A field without a value is empty, and only a required one minds. -/
theorem Field.read_eq_none : f.read raw = .ok none ↔ isEmpty raw = true ∧ f.required = false := by
  cases hempty : isEmpty raw with
  | true =>
    rw [read_of_isEmpty hempty]
    cases f.required <;> simp
  | false =>
    unfold Field.read
    simp only [hempty, Bool.false_eq_true, if_false, false_and, iff_false]
    intro h
    obtain ⟨v, -, hv⟩ := exists_of_map_eq_ok h
    cases hv

end

/-! ## §3. All fields. -/

namespace Field

/-- The part of submitted data that is for a field. -/
def partOf (f : Field) (data : Members) : Json := (data.lookup f.id).getD .null

/-- What a field reads from its part of submitted data. -/
def readIn (f : Field) (data : Members) : Except Refusal (Option Value) := f.read (f.partOf data)

/-- The value of a field under its id, if it reads one. -/
def valueIn? (f : Field) (data : Members) : Option (String × Value) :=
  match f.readIn data with
  | .ok (some value) => some (f.id, value)
  | _ => none

/-- The reason of a field under its id, if it refuses its part of the data. -/
def reasonIn? (f : Field) (data : Members) : Option (String × String) :=
  match f.readIn data with
  | .error (.rejected reason) => some (f.id, reason)
  | _ => none

end Field

section

variable {fields : List Field} {f : Field} {data data' : Members} {found : Found}

theorem mem_keys_append_toList {α : Type} {d : Dictionary α} {pair? : Option (String × α)}
    {key : String} :
    key ∈ Dictionary.keys (d ++ pair?.toList) → key ∈ d.keys ∨ pair?.map (·.1) = some key := by
  unfold Dictionary.keys
  rw [List.map_append, List.mem_append]
  refine Or.imp id ?_
  cases pair? <;> simp [eq_comm]

theorem Field.fst_valueIn? : ∀ key, (f.valueIn? data).map (·.1) = some key → key = f.id := by
  intro key h
  unfold Field.valueIn? at h
  split at h <;> simp at h
  exact h.symm

theorem Field.fst_reasonIn? : ∀ key, (f.reasonIn? data).map (·.1) = some key → key = f.id := by
  intro key h
  unfold Field.reasonIn? at h
  split at h <;> simp at h
  exact h.symm

/-- One more field that reads its part or refuses it. -/
theorem Intake.Found.add_eq (hgoes : f.readIn data ≠ .error .endlessLimit)
    (hvalues : f.id ∉ found.values.keys) (hreasons : f.id ∉ found.reasons.keys) :
    found.add data f = .ok ⟨found.values ++ (f.valueIn? data).toList,
      found.reasons ++ (f.reasonIn? data).toList⟩ := by
  unfold Found.add Field.valueIn? Field.reasonIn?
  rw [show f.read ((data.lookup f.id).getD .null) = f.readIn data from rfl]
  rcases hread : f.readIn data with (_ | reason) | _ | value
  · simp [Dictionary.set_of_notMem hreasons]
  · exact absurd hread hgoes
  · simp
  · simp [Dictionary.set_of_notMem hvalues]

theorem Intake.Found.add_endless (h : f.readIn data = .error .endlessLimit) :
    found.add data f = .error .endlessLimit := by
  unfold Found.add
  unfold Field.readIn Field.partOf at h
  simp only [h]

/-- **What the loop has found**: the values and the reasons of the fields, in their order. -/
theorem Intake.foldlM_add (hids : (fields.map (·.id)).Nodup)
    (hgo : ∀ f ∈ fields, f.readIn data ≠ .error .endlessLimit)
    (hvalues : ∀ f ∈ fields, f.id ∉ found.values.keys)
    (hreasons : ∀ f ∈ fields, f.id ∉ found.reasons.keys) :
    fields.foldlM (fun (found : Found) f => found.add data f) found =
      .ok ⟨found.values ++ fields.filterMap (·.valueIn? data),
        found.reasons ++ fields.filterMap (·.reasonIn? data)⟩ := by
  -- On the fields; no later field has the id of the first one, so what it adds stays last.
  induction fields generalizing found with
  | nil => simp [pure, Except.pure]
  | cons f rest ih =>
    rw [List.map_cons, List.nodup_cons] at hids
    have hother : ∀ g ∈ rest, g.id ≠ f.id := by
      rintro g hg heq
      exact hids.1 (heq ▸ List.mem_map_of_mem hg)
    rw [List.foldlM_cons, Found.add_eq (hgo f List.mem_cons_self)
      (hvalues f List.mem_cons_self) (hreasons f List.mem_cons_self)]
    show rest.foldlM _ (_ : Found) = _
    rw [ih hids.2 (fun g hg => hgo g (List.mem_cons_of_mem _ hg)) ?_ ?_]
    · cases hv : f.valueIn? data <;> cases hr : f.reasonIn? data <;>
        simp [hv, hr]
    · rintro g hg hmem
      rcases mem_keys_append_toList hmem with hold | hnew
      · exact hvalues g (List.mem_cons_of_mem _ hg) hold
      · exact hother g hg (Field.fst_valueIn? _ hnew)
    · rintro g hg hmem
      rcases mem_keys_append_toList hmem with hold | hnew
      · exact hreasons g (List.mem_cons_of_mem _ hg) hold
      · exact hother g hg (Field.fst_reasonIn? _ hnew)

/-- One field that gives its part up ends the loop. -/
theorem Intake.foldlM_endless (h : ∃ f ∈ fields, f.readIn data = .error Refusal.endlessLimit) :
    fields.foldlM (fun (found : Found) f => found.add data f) found =
      .error Refusal.endlessLimit := by
  induction fields generalizing found with
  | nil =>
    obtain ⟨_, hf, -⟩ := h
    cases hf
  | cons first rest ih =>
    rw [List.foldlM_cons]
    cases hadd : found.add data first with
    | error e =>
      have : e = Refusal.endlessLimit := by
        unfold Found.add at hadd
        split at hadd <;> cases hadd
        rfl
      rw [this]
      rfl
    | ok next =>
      -- The first field has gone on, so the one that gives up comes later.
      obtain ⟨f, hf, hread⟩ := h
      rcases List.mem_cons.1 hf with rfl | hrest
      · rw [Found.add_endless hread] at hadd
        cases hadd
      · exact ih ⟨f, hrest, hread⟩

theorem Intake.readData_of_endless (h : ∃ f ∈ fields, f.readIn data = .error .endlessLimit) :
    readData fields data = .error .endlessLimit := by
  unfold readData
  rw [foldlM_endless h]

theorem Intake.readData_of_goes (hids : (fields.map (·.id)).Nodup)
    (hgo : ∀ f ∈ fields, f.readIn data ≠ .error .endlessLimit) :
    readData fields data =
      if fields.filterMap (·.reasonIn? data) = [] then .ok (fields.filterMap (·.valueIn? data))
      else .error (.rejected (fields.filterMap (·.reasonIn? data))) := by
  unfold readData
  rw [foldlM_add hids hgo (fun _ _ => List.not_mem_nil) fun _ _ => List.not_mem_nil]
  simp only [List.nil_append, List.isEmpty_iff]

/-- Only the parts that are for fields count. -/
theorem Intake.readData_congr (h : ∀ f ∈ fields, data'.lookup f.id = data.lookup f.id) :
    readData fields data' = readData fields data := by
  have hloop : ∀ found, fields.foldlM (fun (found : Found) f => found.add data' f) found =
      fields.foldlM (fun (found : Found) f => found.add data f) found := by
    induction fields with
    | nil => exact fun _ => rfl
    | cons f rest ih =>
      intro found
      have hadd : found.add data' f = found.add data f := by
        unfold Found.add
        rw [h f List.mem_cons_self]
      simp only [List.foldlM_cons, hadd]
      exact congrArg _ (funext fun next => ih (fun g hg => h g (List.mem_cons_of_mem _ hg)) next)
  unfold readData
  rw [hloop]

/-- A member that is for one of the fields. -/
def isFor (fields : List Field) (member : String × Json) : Bool :=
  (fields.map (·.id)).contains member.1

/-- Data with the same members for the fields, in any order and among any others, has the same
parts. -/
theorem lookup_eq_of_perm (hkeys : (Dictionary.keys data).Nodup)
    (hkeys' : (Dictionary.keys data').Nodup)
    (h : (data'.filter (isFor fields)).Perm (data.filter (isFor fields))) (hf : f ∈ fields) :
    data'.lookup f.id = data.lookup f.id := by
  have hmem : ∀ value, (f.id, value) ∈ data' ↔ (f.id, value) ∈ data := by
    intro value
    have hfor : isFor fields (f.id, value) = true := by
      simpa [isFor] using ⟨f, hf, rfl⟩
    have := h.mem_iff (a := (f.id, value))
    simpa [List.mem_filter, hfor] using this
  refine Option.ext fun value => ?_
  rw [Dictionary.lookup_eq_some_iff hkeys', Dictionary.lookup_eq_some_iff hkeys]
  exact hmem value

theorem Field.readIn_ne_endless (h : ∀ f ∈ fields, ¬f.GivesUp (f.partOf data)) :
    ∀ f ∈ fields, f.readIn data ≠ .error .endlessLimit :=
  fun f hf hread => h f hf (Field.read_eq_endless.1 hread)

/-- Data that no field gives up is accepted or refused. -/
theorem Submissions.valuesOf_of_decided (hids : (fields.map (·.id)).Nodup)
    (h : ∀ f ∈ fields, ¬f.GivesUp (f.partOf data)) :
    Submissions.valuesOf fields data =
      if fields.filterMap (·.reasonIn? data) = [] then .ok (fields.filterMap (·.valueIn? data))
      else .error (Failure.ofCause (.submissionData (fields.filterMap (·.reasonIn? data)))) := by
  unfold Submissions.valuesOf
  rw [readData_of_goes hids (Field.readIn_ne_endless h)]
  by_cases hnone : fields.filterMap (·.reasonIn? data) = []
  · simp only [hnone, if_true]
  · simp only [hnone, if_false]

/-- If no field refuses its part, the fields with a value are those whose part is not empty. -/
theorem keys_filterMap_valueIn? (hgo : ∀ f ∈ fields, f.readIn data ≠ .error .endlessLimit)
    (hnone : fields.filterMap (·.reasonIn? data) = []) :
    Dictionary.keys (fields.filterMap (·.valueIn? data)) =
      (fields.filter fun f => !isEmpty (f.partOf data)).map (·.id) := by
  have hkey : ∀ f ∈ fields, (f.valueIn? data).map (·.1) =
      if isEmpty (f.partOf data) then none else some f.id := by
    intro f hf
    have hreason := List.filterMap_eq_nil_iff.1 hnone f hf
    unfold Field.valueIn?
    unfold Field.reasonIn? at hreason
    -- A reason is excluded; a field without a value has found its part empty.
    rcases hread : f.readIn data with (_ | reason) | _ | value
    · simp [hread] at hreason
    · exact absurd hread (hgo f hf)
    · simp [(Field.read_eq_none.1 hread).1]
    · have hsome : isEmpty (f.partOf data) = false := by
        rw [← Bool.not_eq_true]
        intro hempty
        unfold Field.readIn at hread
        rw [Field.read_of_isEmpty hempty] at hread
        cases hrequired : f.required <;> simp [hrequired] at hread
      simp [hsome]
  unfold Dictionary.keys
  rw [List.map_filterMap, ← List.filterMap_eq_map, List.filterMap_filter]
  refine List.filterMap_congr fun f hf => ?_
  rw [hkey f hf]
  cases isEmpty (f.partOf data) <;> rfl

end

/-! ## §4. The result. -/

/-- **What becomes of submitted data.**  For all fields with different ids, whatever their limits,
messages and patterns are, and for all data:

  1. The data is given up, with an error that is not the program's own, exactly if a field gives its
     part up: a text would have to reach an infinite limit.
  2. Otherwise the data is refused with the reasons of the fields that refuse their parts, in the
     order of the fields; if there are none, it is accepted with the values that the fields read, and
     the fields with a value are those whose part is not empty, in their order.
  3. Members for no field, and the order of the members, make no difference. -/
theorem intake_outcomes {fields : List Field} (hids : (fields.map (·.id)).Nodup) (data : Members) :
    (Submissions.valuesOf fields data = .error (.outside "OverflowError" endlessLimitMessage) ↔
      ∃ f ∈ fields, f.GivesUp (f.partOf data)) ∧
    ((∀ f ∈ fields, ¬f.GivesUp (f.partOf data)) →
      Submissions.valuesOf fields data =
        (if fields.filterMap (·.reasonIn? data) = [] then
          .ok (fields.filterMap (·.valueIn? data))
        else .error (Failure.ofCause (.submissionData (fields.filterMap (·.reasonIn? data))))) ∧
      (fields.filterMap (·.reasonIn? data) = [] →
        Dictionary.keys (fields.filterMap (·.valueIn? data)) =
          (fields.filter fun f => !isEmpty (f.partOf data)).map (·.id))) ∧
    ∀ data' : Members, (Dictionary.keys data).Nodup → (Dictionary.keys data').Nodup →
      (data'.filter (isFor fields)).Perm (data.filter (isFor fields)) →
      Submissions.valuesOf fields data' = Submissions.valuesOf fields data := by
  refine ⟨⟨?_, ?_⟩, ?_, ?_⟩
  · -- Data that no field gives up ends in another way.
    intro h
    by_contra hnone
    have hno : ∀ f ∈ fields, ¬f.GivesUp (f.partOf data) := fun f hf hup => hnone ⟨f, hf, hup⟩
    rw [Submissions.valuesOf_of_decided hids hno] at h
    split at h <;> cases h
  · rintro ⟨f, hf, hup⟩
    unfold Submissions.valuesOf
    rw [readData_of_endless ⟨f, hf, Field.read_eq_endless.2 hup⟩]
  · intro h
    exact ⟨Submissions.valuesOf_of_decided hids h,
      keys_filterMap_valueIn? (Field.readIn_ne_endless h)⟩
  · intro data' hkeys hkeys' hperm
    unfold Submissions.valuesOf
    rw [readData_congr fun f hf => lookup_eq_of_perm hkeys hkeys' hperm hf]

namespace Acceptance

/-- A text that has to be endless, and the reason to give for one that is not. -/
def endless : Field :=
  { id := "story", type := .text, label := "Story"
    rules := some { least := some (.infinite false), message := some "too short" } }

/-- A required text and a number from 18 on. -/
def fields : List Field :=
  [{ id := "name", type := .text, label := "Name", required := true },
    { id := "age", type := .number, label := "Age"
      rules := some { least := some (.ofRatio false 18 1) } }]

def data : Members := [("age", .int 17), ("note", .null), ("name", .str " ")]

end Acceptance

/-- Two fields refuse their parts, in the order of the fields and not of the members. -/
theorem intake_outcomes_refused :
    Submissions.valuesOf Acceptance.fields Acceptance.data =
      .error (Failure.ofCause (.submissionData
        [("name", "is required"), ("age", "must be at least 18")])) := by
  have hgo : ∀ f ∈ Acceptance.fields, ¬f.GivesUp (f.partOf Acceptance.data) := by
    intro f hf hup
    rcases List.mem_cons.1 hf with rfl | hf
    · cases hup.1
    · rw [List.mem_singleton.1 hf] at hup
      cases hup.2.1
  have hreasons : Acceptance.fields.filterMap (·.reasonIn? Acceptance.data) =
      [("name", "is required"), ("age", "must be at least 18")] := by decide +kernel
  rw [((intake_outcomes (by decide) Acceptance.data).2.1 hgo).1, hreasons]
  rfl

/-- A field that asks for an endless text passes its check, and a text for it is neither accepted nor
refused. -/
theorem undecided_endless :
    Field.check Acceptance.endless.toJson = .good Acceptance.endless ∧
      Submissions.valuesOf [Acceptance.endless] [("story", .str "hi")] =
        .error (.outside "OverflowError" endlessLimitMessage) ∧
      (∀ values, Submissions.valuesOf [Acceptance.endless] [("story", .str "hi")] ≠ .ok values) ∧
      ∀ reasons, Submissions.valuesOf [Acceptance.endless] [("story", .str "hi")] ≠
        .error (Failure.ofCause (.submissionData reasons)) := by
  have h : Submissions.valuesOf [Acceptance.endless] [("story", .str "hi")] =
      .error (.outside "OverflowError" endlessLimitMessage) := rfl
  rw [h]
  refine ⟨rfl, rfl, ?_, ?_⟩
  · rintro values ⟨⟩
  · rintro reasons ⟨⟩

end PromptForms
