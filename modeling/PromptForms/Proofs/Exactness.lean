/-
  PromptForms.Proofs.Exactness
  ────────────────────────────
  **WHATEVER HAS BEEN READ CAN BE WRITTEN.**

  Numbers are rounded to the format when they are read, long integers are refused, and a
  name that occurs twice in an object counts once.  So a text that has been read holds
  a value that comes back unchanged when it is written and read once more.

  Main results:
    • sound_ofDecimal     a decimal numeral becomes a number of the format
    • exact_of_value      the readers, by induction on the length of the text
    • exact_of_read       whole texts
-/
import PromptForms.Proofs.Documents
import PromptForms.Proofs.JsonTexts

namespace PromptForms

theorem exists_of_map_eq_ok {ε α β : Type} {f : α → β} {outcome : Except ε α} {b : β}
    (h : outcome.map f = .ok b) : ∃ a, outcome = .ok a ∧ f a = b := by
  cases outcome with
  | error e => cases h
  | ok a =>
    cases h
    exact ⟨a, rfl, rfl⟩

/-! ## §1. Numbers. -/

/-- A list of digits is below the power of ten of its length. -/
theorem Numeral.digitsValue_lt {digits : List Char} (hdigits : ∀ c ∈ digits, c.isDigit = true) :
    digitsValue digits < 10 ^ digits.length := by
  induction digits using List.reverseRecOn with
  | nil => decide
  | append_singleton start c ih =>
    have hstart := ih fun d hd => hdigits d (List.mem_append_left [c] hd)
    obtain ⟨-, hc⟩ := digitChar_of_isDigit (hdigits c (by simp))
    have value : digitsValue (start ++ [c]) = digitsValue start * 10 + (c.toNat - '0'.toNat) := by
      simp [digitsValue]
    rw [value, List.length_append, List.length_singleton, Nat.pow_succ]
    omega

/-- A numeral in decimal notation becomes a number of the format. -/
theorem Binary64.sound_ofDecimal (negative : Bool) (digits : Nat) (exponent : Int) :
    (ofDecimal negative digits exponent).Sound := by
  unfold ofDecimal
  split
  · exact canonical_zero
  · dsimp only
    split
    · trivial
    · split
      · exact canonical_zero
      · exact sound_ofRatio negative _ (Nat.pow_pos (by decide))

namespace Json

/-! ## §2. Scalars. -/

theorem isDigit_of_mem_integerPart {s : List Char} {c : Char} (hc : c ∈ integerPart s) :
    c.isDigit = true := by
  unfold integerPart at hc
  split at hc
  · rw [List.mem_singleton.1 hc]
    decide
  · exact List.mem_takeWhile_imp hc

theorem natAbs_signed (negative : Bool) (n : Nat) :
    (if negative then -(n : Int) else n).natAbs = n := by
  cases negative with
  | true => exact Int.natAbs_neg n
  | false => rfl

/-- A list of digits that is not too long is an integer that can be read again. -/
theorem exact_signed {digits : List Char} (hdigits : ∀ c ∈ digits, c.isDigit = true)
    (short : digits.length ≤ Numeral.maxDigits) (negative : Bool) :
    (Json.int (if negative then -(Numeral.digitsValue digits : Int)
      else Numeral.digitsValue digits)).Exact := by
  show Int.natAbs _ < _
  rw [natAbs_signed]
  exact Nat.lt_of_lt_of_le (Numeral.digitsValue_lt hdigits) (Nat.pow_le_pow_right (by decide) short)

theorem exact_of_scalar {s : List Char} {v : Json} {r : Shorter s} (h : scalar s = .ok (v, r)) :
    v.Exact := by
  unfold scalar at h
  split at h
  case h_7 =>
    split at h
    dsimp only at h
    split at h
    · cases h
    · split at h
      · cases h
      · -- With a fraction or without one.
        split at h
        all_goals
          split at h
          · split at h
            · cases h
            · cases h
              exact exact_signed (fun _ => isDigit_of_mem_integerPart) (Nat.le_of_not_lt ‹_›) _
          · cases h
            exact Binary64.sound_ofDecimal _ _ _
  all_goals
    cases h
    trivial

/-! ## §3. Values. -/

/-- What the readers find at the start of a text is exact. -/
structure FindsExact (s : List Char) : Prop where
  value : ∀ {v r}, value s = .ok (v, r) → v.Exact
  items : ∀ {done list r}, ExactItems done → items s done = .ok (list, r) → ExactItems list
  members : ∀ {done list r}, ExactMembers done → members s done = .ok (list, r) → ExactMembers list

section

variable {s : List Char}

theorem exact_of_value (shorter : ∀ t : List Char, t.length < s.length → FindsExact t) {v : Json}
    {r : Shorter s} (h : value s = .ok (v, r)) : v.Exact := by
  rw [value.eq_def] at h
  split at h
  · cases h
  · obtain ⟨_, -, hv⟩ := exists_of_map_eq_ok h
    cases hv
    trivial
  · dsimp only at h
    split at h
    · cases h
      trivial
    · obtain ⟨⟨list, r'⟩, hlist, hv⟩ := exists_of_map_eq_ok h
      cases hv
      exact (shorter _ (Nat.lt_succ_of_le (skipSpace _).2)).items
        (show ExactItems [] from trivial) hlist
  · dsimp only at h
    split at h
    · cases h
      exact ⟨List.nodup_nil, trivial⟩
    · obtain ⟨⟨pairs, r'⟩, hpairs, hv⟩ := exists_of_map_eq_ok h
      cases hv
      have hexact := (shorter _ (Nat.lt_succ_of_le (skipSpace _).2)).members
        (show ExactMembers [] from trivial) hpairs
      rw [exactMembers_iff] at hexact
      exact ⟨Dictionary.nodup_keys_ofPairs pairs,
        exactMembers_iff.2 fun pair hpair => hexact pair (Dictionary.mem_of_mem_ofPairs hpair)⟩
  · exact exact_of_scalar h

theorem exact_of_items (shorter : ∀ t : List Char, t.length < s.length → FindsExact t)
    (hvalue : ∀ {v r}, value s = .ok (v, r) → v.Exact) {done list : List Json} {r : Shorter s}
    (hdone : ExactItems done) (h : items s done = .ok (list, r)) : ExactItems list := by
  rw [items] at h
  split at h
  · cases h
  · rename_i item r' hitem
    have hmore : ExactItems (item :: done) := ⟨hvalue hitem, hdone⟩
    dsimp only at h
    split at h
    · cases h
      rw [exactItems_iff] at hmore ⊢
      intro item' hitem'
      exact hmore item' (List.mem_reverse.1 hitem')
    · rename_i rest hrest
      obtain ⟨⟨list', t⟩, hlist, heq⟩ := exists_of_map_eq_ok h
      cases heq
      have hlt : (skipSpace rest).1.length < s.length :=
        Nat.lt_of_le_of_lt (skipSpace rest).2 (Shorter.tail_lt (r'.after (skipSpace r'.1)).2 hrest)
      exact (shorter _ hlt).items hmore hlist
    · cases h

theorem exact_of_members (shorter : ∀ t : List Char, t.length < s.length → FindsExact t)
    {done list : List (String × Json)} {r : Shorter s} (hdone : ExactMembers done)
    (h : members s done = .ok (list, r)) : ExactMembers list := by
  rw [members.eq_def] at h
  split at h
  · rename_i rest
    split at h
    · cases h
    · rename_i name r' _
      dsimp only at h
      split at h
      · rename_i start hstart
        have hlt : (skipSpace start).1.length < rest.length + 1 := Nat.lt_succ_of_lt
          (Nat.lt_of_le_of_lt (skipSpace start).2
            (Shorter.tail_lt (r'.after (skipSpace r'.1)).2 hstart))
        split at h
        · cases h
        · rename_i item v hitem
          have hmore : ExactMembers ((name, item) :: done) := ⟨(shorter _ hlt).value hitem, hdone⟩
          split at h
          · cases h
            rw [exactMembers_iff] at hmore ⊢
            intro pair hpair
            exact hmore pair (List.mem_reverse.1 hpair)
          · rename_i left hleft
            obtain ⟨⟨list', t⟩, hlist, heq⟩ := exists_of_map_eq_ok h
            cases heq
            have hless : (skipSpace left).1.length < rest.length + 1 := Nat.lt_trans
              (Nat.lt_of_le_of_lt (skipSpace left).2
                (Shorter.tail_lt (v.after (skipSpace v.1)).2 hleft)) hlt
            exact (shorter _ hless).members hmore hlist
          · cases h
      · cases h
  · cases h

/-- **All three readers find exact values.** -/
theorem findsExact (s : List Char) : FindsExact s := by
  induction hlength : s.length using Nat.strongRecOn generalizing s with
  | ind n ih =>
    subst hlength
    have shorter (t : List Char) (ht : t.length < s.length) : FindsExact t := ih t.length ht t rfl
    exact {
      value := exact_of_value shorter
      items := exact_of_items shorter (exact_of_value shorter)
      members := exact_of_members shorter }

end

/-- **A text that has been read holds a value that can be written.** -/
theorem exact_of_read {source : String} {doc : Json} (h : read source = .ok doc) : doc.Exact := by
  unfold read at h
  dsimp only at h
  split at h
  · cases h
  · rename_i v r hvalue
    split at h
    · cases h
      exact (findsExact _).value hvalue
    · cases h

end Json

/-! ## §4. Numerals. -/

section

variable {text : String} {cs : List Char} {i : Int} {x : Binary64} {n : Number}

theorem Numeral.exact_of_readInt (h : readInt text = .value i) : (Json.int i).Exact := by
  unfold readInt at h
  split at h
  split at h
  · cases h
  · split at h
    · cases h
    · rename_i hdigits
      split at h
      · cases h
      · cases h
        simp only [Bool.or_eq_true, Bool.not_eq_true', not_or, Bool.not_eq_false] at hdigits
        exact Json.exact_signed (List.all_eq_true.1 hdigits.2) (Nat.le_of_not_lt ‹_›) _

theorem Numeral.sound_of_readUnsigned? {negative : Bool} (h : readUnsigned? negative cs = some x) :
    x.Sound := by
  unfold readUnsigned? at h
  dsimp only at h
  -- With a point or without one.
  split at h
  all_goals
    split at h
    · cases h
    · obtain ⟨e, -, rfl⟩ := Option.map_eq_some_iff.1 h
      exact Binary64.sound_ofDecimal _ _ _

theorem Numeral.sound_of_named? {negative : Bool} (h : named? negative cs = some x) : x.Sound := by
  unfold named? at h
  split at h
  · cases h
    trivial
  · cases h
    trivial
  · cases h
    trivial
  · cases h

theorem Numeral.sound_of_readPlainReal? (h : readPlainReal? cs = some x) : x.Sound := by
  rcases Option.or_eq_some_iff.1 h with hnamed | ⟨-, hunsigned⟩
  · exact sound_of_named? hnamed
  · exact sound_of_readUnsigned? hunsigned

/-- A number that has been typed can be written. -/
theorem Numeral.exact_of_read? (h : read? text = some n) : (Json.ofNumber n).Exact := by
  unfold read? at h
  split at h
  · rename_i hint
    cases h
    exact exact_of_readInt hint
  · obtain ⟨x, hx, rfl⟩ := Option.map_eq_some_iff.1 h
    obtain ⟨cs, -, hcs⟩ := Option.bind_eq_some_iff.1 hx
    exact sound_of_readPlainReal? hcs

theorem Binary64.sound_of_ofInt? (h : ofInt? i = some x) : x.Sound := by
  unfold ofInt? at h
  split at h
  · cases h
  · cases h
    exact sound_ofRatio _ _ (by decide)

end

/-! ## §5. Checks. -/

open Schema Checked

/-- What the check finds in a document that a text can hold is written as such a document. -/
def WritesExact {α : Type} (check : Json → Checked α) (write : α → Json) : Prop :=
  ∀ document a, document.Exact → check document = .good a → (write a).Exact

theorem exact_int_of_lt {i : Int} (h : i.natAbs < 2 ^ 64) : (Json.int i).Exact :=
  Nat.lt_of_lt_of_le h (Nat.le_trans (by decide : 2 ^ 64 ≤ 10 ^ 20)
    (Nat.pow_le_pow_right (by decide) (by decide)))

theorem exact_of_intOfText {s : String} {i : Int} (h : intOfText s = .good i) :
    (Json.int i).Exact := by
  unfold intOfText at h
  split at h
  · cases h
  · rename_i cs _
    split at h
    · cases h
    · rename_i hshort
      split at h
      rename_i negative digits hsign
      have short : digits.length ≤ cs.length := by
        split at hsign
        · cases hsign
          exact Nat.le_succ _
        · cases hsign
          exact Nat.le_refl _
      split at h
      · cases h
      · rename_i hdigits
        cases h
        simp only [Bool.or_eq_true, Bool.not_eq_true', not_or, Bool.not_eq_false] at hdigits
        exact Json.exact_signed (List.all_eq_true.1 hdigits.2) (by omega) _

theorem writesExact_int : WritesExact int .int := by
  intro document i hexact h
  cases document with
  | bool b =>
    cases h
    cases b <;> exact exact_int_of_lt (by decide)
  | int j =>
    cases h
    exact hexact
  | real x =>
    unfold int at h
    dsimp only at h
    split at h
    · cases h
    · split at h
      · cases h
      · split at h
        · rename_i hbits
          cases h
          rw [Bool.and_eq_true, decide_eq_true_eq, decide_eq_true_eq] at hbits
          exact exact_int_of_lt (by omega)
        · cases h
  | str s => exact exact_of_intOfText h
  | null | arr | obj => cases h

theorem writesExact_real : WritesExact real .real := by
  intro document x hexact h
  cases document with
  | bool b =>
    cases h
    cases hx : Binary64.ofInt? (if b then 1 else 0) with
    | none => trivial
    | some x => exact Binary64.sound_of_ofInt? hx
  | int i =>
    unfold real at h
    dsimp only at h
    split at h
    · rename_i hx
      cases h
      exact Binary64.sound_of_ofInt? hx
    · cases h
  | real y =>
    cases h
    exact hexact
  | str s =>
    unfold real realOfText at h
    dsimp only at h
    split at h
    · rename_i hx
      cases h
      rcases Option.or_eq_some_iff.1 hx with hplain | ⟨-, hseparated⟩
      · exact Numeral.sound_of_readPlainReal? hplain
      · obtain ⟨cs, -, hcs⟩ := Option.bind_eq_some_iff.1 hseparated
        exact Numeral.sound_of_readPlainReal? hcs
    · cases h
  | null | arr | obj => cases h

/-- A number was read as an integer or as a binary64 number. -/
theorem number_eq_good {document : Json} {n : Number} (h : number document = .good n) :
    (∃ i, n = .int i ∧ int document = .good i) ∨ ∃ x, n = .real x ∧ real document = .good x := by
  unfold number at h
  split at h
  · cases h
    exact .inl ⟨_, rfl, rfl⟩
  · cases h
    exact .inr ⟨_, rfl, rfl⟩
  · split at h
    · rename_i hint
      cases h
      exact .inl ⟨_, rfl, hint⟩
    · rename_i hreal
      cases h
      exact .inr ⟨_, rfl, hreal⟩
    · cases h

theorem writesExact_number : WritesExact number .ofNumber := by
  intro document n hexact h
  rcases number_eq_good h with ⟨i, rfl, hint⟩ | ⟨x, rfl, hreal⟩
  · exact writesExact_int document i hexact hint
  · exact writesExact_real document x hexact hreal

/-! ## §6. Records. -/

theorem Json.exact_of_lookup {m : Members} {name : String} {v : Json} (h : (Json.obj m).Exact)
    (hv : m.lookup name = some v) : v.Exact := by
  obtain ⟨before, after, hm, -⟩ := List.lookup_eq_some_iff.1 hv
  exact exactMembers_iff.1 h.2 (name, v) (by simp [hm])

theorem Json.exact_ofOption {α : Type} {write : α → Json} {o : Option α}
    (h : ∀ a ∈ o, (write a).Exact) : (Json.ofOption write o).Exact := by
  cases o with
  | none => trivial
  | some a => exact h a rfl

theorem Json.exact_arr_map {α : Type} {write : α → Json} {items : List α}
    (h : ∀ a ∈ items, (write a).Exact) : (Json.arr (items.map write)).Exact := by
  show ExactItems (items.map write)
  rw [exactItems_iff]
  intro item hitem
  obtain ⟨a, ha, rfl⟩ := List.mem_map.1 hitem
  exact h a ha

theorem Json.exact_texts (items : List String) : (Json.texts items).Exact :=
  exact_arr_map fun _ _ => trivial

section

variable {α : Type} {check : Json → Checked α} {write : α → Json} {m : Members} {name : String}

theorem WritesExact.required {a : α} (h : WritesExact check write) (hm : (Json.obj m).Exact)
    (ha : m.required name check = .good a) : (write a).Exact := by
  obtain ⟨v, hv, hcheck⟩ := required_eq_good.1 ha
  exact h v a (Json.exact_of_lookup hm hv) hcheck

theorem WritesExact.optional {a default : α} (h : WritesExact check write)
    (hdefault : (write default).Exact) (hm : (Json.obj m).Exact)
    (ha : m.optional name default check = .good a) : (write a).Exact := by
  rcases optional_eq_good.1 ha with ⟨-, rfl⟩ | ⟨v, hv, hcheck⟩
  · exact hdefault
  · exact h v a (Json.exact_of_lookup hm hv) hcheck

theorem WritesExact.nullable {o : Option α} (h : WritesExact check write) (hm : (Json.obj m).Exact)
    (ho : m.nullable name check = .good o) : ∀ a ∈ o, (write a).Exact := by
  intro a ha
  cases ha
  rcases optional_eq_good.1 ho with ⟨-, hnone⟩ | ⟨v, hv, hcheck⟩
  · cases hnone
  · exact h v a (Json.exact_of_lookup hm hv) (of_orNull_eq_some hcheck)

/-- A list of what can be written can be written. -/
theorem WritesExact.listOf (h : WritesExact check write) :
    WritesExact (listOf check) fun items => .arr (items.map write) := by
  intro document items hexact hitems
  cases document with
  | arr documents =>
    apply Json.exact_arr_map
    intro a ha
    obtain ⟨item, hitem, hcheck⟩ := exists_of_mem_allFrom hitems ha
    exact h item a (Json.exactItems_iff.1 hexact item hitem) hcheck
  | null | bool | int | real | str | obj => cases hitems

end

/-! ## §7. Fields, steps and values. -/

theorem Rules.exact_toJson {r : Rules} (hleast : ∀ x ∈ r.least, x.Sound)
    (hgreatest : ∀ x ∈ r.greatest, x.Sound) : r.toJson.Exact := by
  have names : ["min", "max", "pattern", "message"].Nodup := by decide
  exact ⟨names, Json.exact_ofOption hleast, Json.exact_ofOption hgreatest,
    Json.exact_ofOption fun _ _ => trivial, Json.exact_ofOption fun _ _ => trivial, trivial⟩

theorem writesExact_rules : WritesExact Rules.check Rules.toJson := by
  intro document r hexact hr
  obtain ⟨m, hm, h4⟩ := andThen_eq_good.1 hr
  rw [record_eq_good.1 hm] at hexact
  obtain ⟨_, message, h3, -, rfl⟩ := seq_eq_good.1 h4
  obtain ⟨_, pattern, h2, -, rfl⟩ := seq_eq_good.1 h3
  obtain ⟨_, greatest, h1, hgreatest, rfl⟩ := seq_eq_good.1 h2
  obtain ⟨least, hleast, rfl⟩ := map_eq_good.1 h1
  exact Rules.exact_toJson (writesExact_real.nullable hexact hleast)
    (writesExact_real.nullable hexact hgreatest)

theorem Field.exact_toJson {f : Field} (hrules : ∀ r ∈ f.rules, r.toJson.Exact)
    (horder : (Json.int f.order).Exact) : f.toJson.Exact := by
  have names : ["id", "type", "label", "required", "placeholder", "help_text", "options",
    "validation", "order"].Nodup := by decide
  exact ⟨names, trivial, trivial, trivial, trivial, Json.exact_ofOption fun _ _ => trivial,
    Json.exact_ofOption fun _ _ => trivial, Json.exact_ofOption fun o _ => Json.exact_texts o,
    Json.exact_ofOption hrules, horder, trivial⟩

/-- A field that has been read from a text can be written as one. -/
theorem writesExact_field : WritesExact Field.check Field.toJson := by
  intro document f hexact hf
  obtain ⟨m, hm, hf⟩ := andThen_eq_good.1 hf
  rw [record_eq_good.1 hm] at hexact
  obtain ⟨g, h9, hoptions⟩ := andThen_eq_good.1 hf
  obtain rfl := checkOptions_eq_good hoptions
  obtain ⟨_, order, h8, horder, rfl⟩ := seq_eq_good.1 h9
  obtain ⟨_, rules, h7, hrules, rfl⟩ := seq_eq_good.1 h8
  obtain ⟨_, options, h6, -, rfl⟩ := seq_eq_good.1 h7
  obtain ⟨_, helpText, h5, -, rfl⟩ := seq_eq_good.1 h6
  obtain ⟨_, placeholder, h4, -, rfl⟩ := seq_eq_good.1 h5
  obtain ⟨_, required, h3, -, rfl⟩ := seq_eq_good.1 h4
  obtain ⟨_, label, h2, -, rfl⟩ := seq_eq_good.1 h3
  obtain ⟨_, type, h1, -, rfl⟩ := seq_eq_good.1 h2
  obtain ⟨id, -, rfl⟩ := map_eq_good.1 h1
  exact Field.exact_toJson (writesExact_rules.nullable hexact hrules)
    (writesExact_int.optional (exact_int_of_lt (by decide)) hexact horder)

/-- So can the fields of a form. -/
theorem writesExact_fields :
    WritesExact Field.checkAll fun fields => .arr (fields.map Field.toJson) := by
  intro document fields hexact hfields
  obtain ⟨found, hfound, hdistinct⟩ := andThen_eq_good.1 hfields
  split at hdistinct
  · cases hdistinct
  · cases hdistinct
    exact writesExact_field.listOf document fields hexact hfound

theorem writesExact_stepNumber :
    WritesExact (fun v => (intFrom 1 v).map Int.toNat) fun n => .int (n : Nat) := by
  intro document n hexact hn
  obtain ⟨i, hi, rfl⟩ := map_eq_good.1 hn
  obtain ⟨j, hj, hij⟩ := andThen_eq_good.1 hi
  obtain ⟨hleast, rfl⟩ := ensure_eq_good.1 hij
  have hnonneg : (0 : Int) ≤ j := Int.le_trans (by decide) (of_decide_eq_true hleast)
  show (Json.int (j.toNat : Nat)).Exact
  rw [Int.toNat_of_nonneg hnonneg]
  exact writesExact_int document j hexact hj

/-- A step that has been read from a text can be written as one. -/
theorem writesExact_step : WritesExact Step.check Step.toJson := by
  intro document step hexact hstep
  obtain ⟨m, hm, h5⟩ := andThen_eq_good.1 hstep
  rw [record_eq_good.1 hm] at hexact
  obtain ⟨_, model, h4, -, rfl⟩ := seq_eq_good.1 h5
  obtain ⟨_, description, h3, -, rfl⟩ := seq_eq_good.1 h4
  obtain ⟨_, prompt, h2, -, rfl⟩ := seq_eq_good.1 h3
  obtain ⟨_, name, h1, -, rfl⟩ := seq_eq_good.1 h2
  obtain ⟨number, hnumber, rfl⟩ := map_eq_good.1 h1
  have names : ["step_number", "name", "prompt", "description", "model"].Nodup := by decide
  exact ⟨names, writesExact_stepNumber.required hexact hnumber, trivial, trivial,
    Json.exact_ofOption fun _ _ => trivial, Json.exact_ofOption fun _ _ => trivial, trivial⟩

/-- A value can be written if it is no number, or a number that can be written. -/
theorem Value.exact_toJson {v : Value} (h : ∀ n, v = .number n → (Json.ofNumber n).Exact) :
    v.toJson.Exact := by
  have names : ["kind", "value"].Nodup := by decide
  have listed : ["kind", "values"].Nodup := by decide
  cases v with
  | number n => exact ⟨names, trivial, h n rfl, trivial⟩
  | choices items => exact ⟨listed, trivial, Json.exact_texts items, trivial⟩
  | text | date | choice | file => exact ⟨names, trivial, trivial, trivial⟩

/-- A value that has been read from a text can be written as one. -/
theorem writesExact_value : WritesExact Value.check Value.toJson := by
  intro document v hexact h
  obtain ⟨m, hm, h⟩ := andThen_eq_good.1 h
  rw [record_eq_good.1 hm] at hexact
  apply Value.exact_toJson
  rintro n rfl
  split at h
  · cases h
  · dsimp only at h
    split at h
    · rename_i tag _ _ read hread
      have hread' : ∃ name, Value.readers.lookup name = some read := by
        split at hread
        · exact ⟨_, hread⟩
        · cases hread
      obtain ⟨name, hname⟩ := hread'
      obtain ⟨before, after, hreaders, -⟩ := List.lookup_eq_some_iff.1 hname
      have hmem : (name, read) ∈ Value.readers := by
        rw [hreaders]
        exact List.mem_append_right before List.mem_cons_self
      have hfound := under_eq_good.1 h
      simp only [Value.readers, List.mem_cons, Prod.mk.injEq, List.not_mem_nil, or_false] at hmem
      rcases hmem with ⟨-, rfl⟩ | ⟨-, rfl⟩ | ⟨-, rfl⟩ | ⟨-, rfl⟩ | ⟨-, rfl⟩ | ⟨-, rfl⟩
      case inr.inl =>
        obtain ⟨n', hn', heq⟩ := map_eq_good.1 hfound
        cases heq
        exact writesExact_number.required hexact hn'
      all_goals
        obtain ⟨_, -, heq⟩ := map_eq_good.1 hfound
        cases heq
    · cases h

/-- The values of a submission can be written if each of them can and no field has two. -/
theorem Value.exact_allToJson {values : Dictionary Value} (hkeys : values.keys.Nodup)
    (h : ∀ pair ∈ values, pair.2.toJson.Exact) : (Value.allToJson values).Exact := by
  refine ⟨?_, ?_⟩
  · rw [List.map_map]
    exact hkeys
  · rw [Json.exactMembers_iff]
    intro pair hpair
    obtain ⟨before, hbefore, rfl⟩ := List.mem_map.1 hpair
    exact h before hbefore

/-- Stored values are read one by one, each under its key. -/
theorem Value.of_checkAll {members : Members} {values : Dictionary Value}
    (h : checkAll members = .good values) :
    values.keys = members.keys ∧
      ∀ pair ∈ values, ∃ document, (pair.1, document) ∈ members ∧
        check document = .good pair.2 := by
  induction members generalizing values with
  | nil =>
    cases h
    exact ⟨rfl, fun _ hpair => nomatch hpair⟩
  | cons first rest ih =>
    obtain ⟨v, hv, hmore⟩ := andThen_eq_good.1 h
    obtain ⟨later, hlater, rfl⟩ := map_eq_good.1 hmore
    obtain ⟨hkeys, hdocuments⟩ := ih hlater
    refine ⟨congrArg (first.1 :: ·) hkeys, ?_⟩
    intro pair hpair
    rcases List.mem_cons.1 hpair with rfl | hrest
    · exact ⟨first.2, List.mem_cons_self, hv⟩
    · obtain ⟨document, hmem, hcheck⟩ := hdocuments pair hrest
      exact ⟨document, List.mem_cons_of_mem first hmem, hcheck⟩

/-- Stored values that have been read from a text can be written as one. -/
theorem Value.exact_of_checkAll {members : Members} {values : Dictionary Value}
    (hexact : (Json.obj members).Exact) (h : checkAll members = .good values) :
    (Value.allToJson values).Exact := by
  obtain ⟨hkeys, hdocuments⟩ := of_checkAll h
  apply exact_allToJson
  · rw [hkeys]
    exact hexact.1
  · intro pair hpair
    obtain ⟨document, hmem, hcheck⟩ := hdocuments pair hpair
    exact writesExact_value document pair.2 (Json.exactMembers_iff.1 hexact.2 _ hmem) hcheck

end PromptForms
