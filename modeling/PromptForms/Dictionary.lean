/-
  PromptForms.Dictionary
  ──────────────────────
  **ORDERED DICTIONARIES.**

  A dictionary gives each of its keys one value and keeps the keys in the order in
  which they first came.  Payloads, contexts and error maps are dictionaries; their
  order is visible in answers.

      Dictionary.set        writes a value, in place or at the end
      Dictionary.ofPairs    a later pair replaces an earlier one of its key
-/

namespace PromptForms

/-- Keys with their values, in order of first arrival. -/
abbrev Dictionary (α : Type) := List (String × α)

namespace Dictionary

variable {α : Type}

/-- Is there a value for the key? -/
def hasKey (d : Dictionary α) (key : String) : Bool := d.any (·.1 == key)

/-- The keys in order. -/
def keys (d : Dictionary α) : List String := d.map (·.1)

/-- Writes a value: in its place if the key is there, else at the end. -/
def set : Dictionary α → String → α → Dictionary α
  | [], key, value => [(key, value)]
  | (k, v) :: rest, key, value =>
    if k == key then (key, value) :: rest else (k, v) :: set rest key value

/-- The dictionary of a list of pairs. -/
def ofPairs (pairs : List (String × α)) : Dictionary α :=
  pairs.foldl (fun d pair => d.set pair.1 pair.2) []

/-- Writes all pairs of a list. -/
def setAll (d : Dictionary α) (pairs : List (String × α)) : Dictionary α :=
  pairs.foldl (fun d pair => d.set pair.1 pair.2) d

theorem lookup_set_self (d : Dictionary α) (key : String) (value : α) :
    (d.set key value).lookup key = some value := by
  induction d with
  | nil => simp [set]
  | cons pair rest ih =>
    obtain ⟨k, v⟩ := pair
    by_cases h : k = key
    · simp [set, h]
    · have h' : key ≠ k := fun e => h e.symm
      simp [set, h, List.lookup_cons, beq_eq_false_iff_ne.2 h', ih]

theorem lookup_set_of_ne (d : Dictionary α) {key other : String} (value : α) (h : other ≠ key) :
    (d.set key value).lookup other = d.lookup other := by
  induction d with
  | nil => simp [set, List.lookup_cons, beq_eq_false_iff_ne.2 h]
  | cons pair rest ih =>
    obtain ⟨k, v⟩ := pair
    by_cases hk : k = key
    · subst hk
      simp [set, List.lookup_cons, beq_eq_false_iff_ne.2 h]
    · simp [set, hk, List.lookup_cons, ih]

/-! The keys of a dictionary that is written to are the old ones and the new ones. -/

theorem hasKey_set (d : Dictionary α) (key other : String) (value : α) :
    (d.set key value).hasKey other = (other == key || d.hasKey other) := by
  induction d with
  | nil => simp [set, hasKey, Bool.beq_comm]
  | cons pair rest ih =>
    obtain ⟨k, v⟩ := pair
    by_cases h : k = key
    · subst h
      simp [set, hasKey, Bool.beq_comm]
    · have step : (set ((k, v) :: rest) key value).hasKey other
          = (k == other || (set rest key value).hasKey other) := by
        simp [set, hasKey, h]
      rw [step, ih]
      simp only [hasKey, List.any_cons]
      cases k == other <;> cases other == key <;> rfl

theorem hasKey_setAll (d : Dictionary α) (pairs : List (String × α)) (key : String) :
    (d.setAll pairs).hasKey key = (d.hasKey key || (pairs.map (·.1)).contains key) := by
  induction pairs generalizing d with
  | nil => simp [setAll]
  | cons pair rest ih =>
    show (setAll (d.set pair.1 pair.2) rest).hasKey key = _
    rw [ih, hasKey_set, List.map_cons, List.contains_cons]
    cases key == pair.1 <;> cases d.hasKey key <;> rfl

theorem hasKey_ofPairs (pairs : List (String × α)) (key : String) :
    (ofPairs pairs).hasKey key = (pairs.map (·.1)).contains key := by
  show (setAll [] pairs).hasKey key = _
  rw [hasKey_setAll]
  rfl

theorem isSome_lookup (d : Dictionary α) (key : String) :
    (d.lookup key).isSome = d.hasKey key := by
  induction d with
  | nil => rfl
  | cons pair rest ih =>
    rw [List.lookup_cons, hasKey, List.any_cons, Bool.beq_comm]
    cases pair.1 == key with
    | true => rfl
    | false => exact ih

/-! The keys of a dictionary are different. -/

theorem hasKey_iff {d : Dictionary α} {key : String} : d.hasKey key = true ↔ key ∈ d.keys := by
  rw [hasKey, List.any_eq_true, keys, List.mem_map]
  simp only [beq_iff_eq]

theorem mem_keys_set (d : Dictionary α) {key other : String} (value : α) :
    other ∈ (d.set key value).keys ↔ other = key ∨ other ∈ d.keys := by
  rw [← hasKey_iff, ← hasKey_iff, hasKey_set, Bool.or_eq_true, beq_iff_eq]

/-- Writing keeps the keys different. -/
theorem nodup_keys_set {d : Dictionary α} (h : d.keys.Nodup) (key : String) (value : α) :
    (d.set key value).keys.Nodup := by
  induction d with
  | nil => exact List.pairwise_singleton _ _
  | cons pair rest ih =>
    obtain ⟨k, v⟩ := pair
    obtain ⟨hk, hrest⟩ := List.nodup_cons.1 h
    by_cases heq : k = key
    · subst heq
      rw [set, if_pos (beq_self_eq_true k)]
      exact h
    · have step : set ((k, v) :: rest) key value = (k, v) :: set rest key value := by
        simp [set, heq]
      rw [step]
      refine List.nodup_cons.2 ⟨?_, ih hrest⟩
      intro hmem
      rcases (mem_keys_set rest value).1 hmem with rfl | hold
      · exact heq rfl
      · exact hk hold

theorem nodup_keys_setAll {d : Dictionary α} (h : d.keys.Nodup) (pairs : List (String × α)) :
    (d.setAll pairs).keys.Nodup := by
  induction pairs generalizing d with
  | nil => exact h
  | cons pair rest ih => exact ih (nodup_keys_set h pair.1 pair.2)

/-- A key that is not there is written at the end. -/
theorem set_of_notMem {d : Dictionary α} {key : String} (h : key ∉ d.keys) (value : α) :
    d.set key value = d ++ [(key, value)] := by
  induction d with
  | nil => rfl
  | cons pair rest ih =>
    obtain ⟨k, v⟩ := pair
    have hk : k ≠ key := fun heq => h (heq ▸ List.mem_cons_self)
    have hrest : key ∉ keys rest := fun hmem => h (List.mem_cons_of_mem _ hmem)
    simp [set, hk, ih hrest]

/-- Pairs with different keys are the dictionary they make. -/
theorem setAll_eq_append {d : Dictionary α} {pairs : List (String × α)}
    (h : (keys (d ++ pairs)).Nodup) : d.setAll pairs = d ++ pairs := by
  induction pairs generalizing d with
  | nil => exact (List.append_nil d).symm
  | cons pair rest ih =>
    have fresh : pair.1 ∉ d.keys := by
      intro hmem
      rw [keys, List.map_append, List.map_cons, List.nodup_append] at h
      exact h.2.2 _ hmem _ List.mem_cons_self rfl
    show setAll (d.set pair.1 pair.2) rest = _
    rw [set_of_notMem fresh, ih (by simpa using h), List.append_assoc]
    rfl

theorem ofPairs_of_nodup {pairs : List (String × α)} (h : (keys pairs).Nodup) :
    ofPairs pairs = pairs := setAll_eq_append h

theorem nodup_keys_ofPairs (pairs : List (String × α)) : (ofPairs pairs).keys.Nodup :=
  nodup_keys_setAll (show (keys []).Nodup from List.nodup_nil) pairs

/-- What pairs with different keys give is what they hold. -/
theorem lookup_eq_some_iff_mem {κ : Type} [DecidableEq κ] {pairs : List (κ × α)}
    (h : (pairs.map (·.1)).Nodup) {key : κ} {value : α} :
    pairs.lookup key = some value ↔ (key, value) ∈ pairs := by
  induction pairs with
  | nil => simp
  | cons pair rest ih =>
    obtain ⟨k, v⟩ := pair
    obtain ⟨hk, hrest⟩ := List.nodup_cons.1 h
    by_cases heq : key = k
    · subst heq
      have hfresh : (key, value) ∉ rest := fun hmem => hk (List.mem_map.2 ⟨_, hmem, rfl⟩)
      simp [hfresh, eq_comm]
    · simp [List.lookup_cons, beq_eq_false_iff_ne.2 heq, heq, ih hrest]

theorem lookup_eq_some_iff {d : Dictionary α} (h : d.keys.Nodup) {key : String} {value : α} :
    d.lookup key = some value ↔ (key, value) ∈ d := lookup_eq_some_iff_mem h

/-- The order of the keys does not matter for what a dictionary gives. -/
theorem lookup_of_perm {d other : Dictionary α} (h : d.keys.Nodup) (hperm : other.Perm d)
    (key : String) : other.lookup key = d.lookup key := by
  have hother : other.keys.Nodup := (hperm.map _).nodup_iff.2 h
  apply Option.ext
  intro value
  rw [lookup_eq_some_iff hother, lookup_eq_some_iff h]
  exact hperm.mem_iff

/-- Writing other keys leaves a value alone. -/
theorem lookup_setAll_of_notMem (d : Dictionary α) {pairs : List (String × α)} {key : String}
    (h : key ∉ keys pairs) : (d.setAll pairs).lookup key = d.lookup key := by
  induction pairs generalizing d with
  | nil => rfl
  | cons pair rest ih =>
    have hne : key ≠ pair.1 := fun heq => h (heq ▸ List.mem_cons_self)
    have hrest : key ∉ keys rest := fun hmem => h (List.mem_cons_of_mem _ hmem)
    show (setAll (d.set pair.1 pair.2) rest).lookup key = _
    rw [ih _ hrest, lookup_set_of_ne _ _ hne]

/-! What is in a dictionary has been written. -/

theorem mem_of_mem_set {d : Dictionary α} {key : String} {value : α} {pair : String × α}
    (h : pair ∈ d.set key value) : pair = (key, value) ∨ pair ∈ d := by
  induction d with
  | nil => exact .inl (List.mem_singleton.1 h)
  | cons first rest ih =>
    obtain ⟨k, v⟩ := first
    by_cases heq : k = key
    · rw [set, if_pos (beq_iff_eq.2 heq)] at h
      exact (List.mem_cons.1 h).imp id (List.mem_cons_of_mem _)
    · rw [set, if_neg (mt beq_iff_eq.1 heq)] at h
      rcases List.mem_cons.1 h with rfl | hrest
      · exact .inr List.mem_cons_self
      · exact (ih hrest).imp id (List.mem_cons_of_mem _)

theorem mem_of_mem_setAll {d : Dictionary α} {pairs : List (String × α)} {pair : String × α}
    (h : pair ∈ d.setAll pairs) : pair ∈ d ∨ pair ∈ pairs := by
  induction pairs generalizing d with
  | nil => exact .inl h
  | cons first rest ih =>
    rcases ih h with hset | hrest
    · exact (mem_of_mem_set hset).symm.imp id fun heq => List.mem_cons.2 (.inl heq)
    · exact .inr (List.mem_cons_of_mem _ hrest)

theorem mem_of_mem_ofPairs {pairs : List (String × α)} {pair : String × α}
    (h : pair ∈ ofPairs pairs) : pair ∈ pairs :=
  (mem_of_mem_setAll (show pair ∈ setAll [] pairs from h)).resolve_left List.not_mem_nil

end Dictionary

end PromptForms
