/-
  PromptForms.Proofs.CharacterRuns
  ────────────────────────────────
  **LOOKING UP THE CLASS OF A CHARACTER.**

  The classes of characters are kept as a text of runs, which is read into a table and searched
  by halving.  The starts of the runs ascend, whatever the text says, so the search ends at the
  run that a character lies in: the one that is found by going through the runs in turn.  That
  needs the beginning of the text only, so the class of a character can be computed.

      runs        the runs of a text, one after the other
      classAt     the class of the run in which a code point lies

  Main results:
    • pairwise_runs           the starts of the runs ascend
    • lookup_eq               halving finds the last entry that starts at or before a number
    • classOf_eq_classAt      the class of a character is that of the run it lies in
    • isAlphanumeric_eq       the letters and digits of ASCII
-/
import Mathlib.Data.List.Pairwise
import PromptForms.Text.Blank
import PromptForms.Text.CharacterClass

namespace PromptForms.Text

namespace CharacterClass

/-! ## §1. Runs. -/

/-- How many code points the run that is being read covers at least. -/
def size (current : Option (CharacterClass × Nat)) : Nat := current.elim 0 fun r => max r.2 1

/-- The runs of a text, one after the other. -/
def runs : List Char → Nat → Option (CharacterClass × Nat) → List (Nat × CharacterClass)
  | [], _, _ => []
  | c :: rest, next, current =>
    match ofLetter? c with
    | some cls => (next + size current, cls) :: runs rest (next + size current) (some (cls, 0))
    | none => runs rest next (current.map fun r => (r.1, r.2 * 16 + hexValue c))

section

variable {cs : List Char} {next n : Nat} {current : Option (CharacterClass × Nat)}
  {entry : Nat × CharacterClass}

theorem go_eq (done : Array (Nat × CharacterClass)) :
    starts.go cs next current done = done.toList ++ runs cs next current := by
  induction cs generalizing next current done with
  | nil => exact (List.append_nil _).symm
  | cons c rest ih =>
    unfold starts.go runs
    cases ofLetter? c with
    | none => exact ih done
    | some cls =>
      simp only [ih, Array.toList_push, List.append_assoc]
      rfl

theorem go_empty (cs : List Char) : starts.go cs 0 none #[] = runs cs 0 none := go_eq #[]

theorem starts_eq : starts = (runs runText.toList 0 none).toArray :=
  congrArg List.toArray (go_empty _)

/-- Reading one more digit makes a run no shorter. -/
theorem size_le_size_map (current : Option (CharacterClass × Nat)) (c : Char) :
    size current ≤ size (current.map fun r => (r.1, r.2 * 16 + hexValue c)) := by
  cases current with
  | none => exact Nat.le_refl _
  | some r =>
    show max r.2 1 ≤ max (r.2 * 16 + hexValue c) 1
    omega

/-- No run that is still to be read starts before the end of the current one. -/
theorem le_of_mem_runs (h : entry ∈ runs cs next current) : next + size current ≤ entry.1 := by
  induction cs generalizing next current with
  | nil => cases h
  | cons c rest ih =>
    unfold runs at h
    cases hc : ofLetter? c with
    | none =>
      simp only [hc] at h
      have := ih h
      have := size_le_size_map current c
      omega
    | some cls =>
      simp only [hc, List.mem_cons] at h
      rcases h with rfl | h
      · exact Nat.le_refl _
      · exact Nat.le_trans (Nat.le_add_right _ _) (ih h)

/-- **The starts of the runs ascend.** -/
theorem pairwise_runs : (runs cs next current).Pairwise fun a b => a.1 < b.1 := by
  induction cs generalizing next current with
  | nil => exact .nil
  | cons c rest ih =>
    unfold runs
    cases ofLetter? c with
    | none => exact ih
    | some cls =>
      refine List.pairwise_cons.2 ⟨?_, ih⟩
      intro entry hentry
      exact le_of_mem_runs hentry

/-- The first run starts where the text does. -/
theorem runs_start (cs : List Char) (next : Nat) :
    runs cs next none = [] ∨ ∃ cls rest, runs cs next none = (next, cls) :: rest := by
  induction cs with
  | nil => exact .inl rfl
  | cons c rest ih =>
    unfold runs
    cases ofLetter? c with
    | none => exact ih
    | some cls => exact .inr ⟨cls, _, rfl⟩

end

/-! ## §2. Searching. -/

/-- Position `i` of a table holds the last entry that starts at or before `n`. -/
structure Last (table : List (Nat × CharacterClass)) (n i : Nat) : Prop where
  lt : i < table.length
  le : (table.getD i default).1 ≤ n
  next : ∀ j, i < j → j < table.length → n < (table.getD j default).1

section

variable {table : List (Nat × CharacterClass)} {n i j lo hi : Nat}

theorem getD_lt_getD (sorted : table.Pairwise fun a b => a.1 < b.1) (hij : i < j)
    (hj : j < table.length) : (table.getD i default).1 < (table.getD j default).1 := by
  have hi := Nat.lt_trans hij hj
  simp only [List.getD_eq_getElem?_getD, List.getElem?_eq_getElem hi, List.getElem?_eq_getElem hj,
    Option.getD_some]
  exact List.pairwise_iff_getElem.1 sorted i j hi hj hij

/-- **Halving** finds the last entry that starts at or before `n`, if that is between the bounds. -/
theorem lookup_eq (sorted : table.Pairwise fun a b => a.1 < b.1) (h : Last table n i)
    (hlo : lo ≤ i) (hhi : i < hi) (hsize : hi ≤ table.length) :
    lookup table.toArray n lo hi = (table.getD i default).2 := by
  have get : ∀ j, table.toArray.getD j default = table.getD j default := by
    intro j
    simp [List.getD_eq_getElem?_getD]
  fun_induction lookup table.toArray n lo hi with
  | case1 lo hi hmore mid hle ih =>
    -- Were the entry in the middle a later one, it would start after `n`.
    refine ih ?_ hhi hsize
    by_contra hlt
    have := h.next mid (by omega) (by omega)
    rw [get] at hle
    omega
  | case2 lo hi hmore mid hle ih =>
    -- Were it the entry that is looked for or one before that, it would start early enough.
    refine ih hlo ?_ (by omega)
    by_contra hlt
    rw [get] at hle
    rcases Nat.lt_or_eq_of_le (Nat.le_of_not_lt hlt) with hmid | hmid
    · exact hle (Nat.le_of_lt (Nat.lt_of_lt_of_le (getD_lt_getD sorted hmid h.lt) h.le))
    · exact hle (hmid ▸ h.le)
  | case3 lo hi hmore =>
    have hi : i = lo := by omega
    rw [hi, get]

/-- The class of the run that a code point lies in; `cls` is that of the run before the list. -/
def classIn (n : Nat) : CharacterClass → List (Nat × CharacterClass) → CharacterClass
  | cls, [] => cls
  | cls, (start, next) :: rest => if start ≤ n then classIn n next rest else cls

/-- A table that starts early enough has a last entry, and going through it in turn ends there. -/
theorem exists_last {start : Nat} {cls : CharacterClass}
    (sorted : ((start, cls) :: table).Pairwise fun a b => a.1 < b.1) (hstart : start ≤ n) :
    ∃ i, Last ((start, cls) :: table) n i ∧
      (((start, cls) :: table).getD i default).2 = classIn n cls table := by
  -- The first entry is the last one that starts early enough, or one of those after it is.
  induction table generalizing start cls with
  | nil =>
    refine ⟨0, ⟨Nat.zero_lt_one, hstart, ?_⟩, rfl⟩
    intro j hj hlength
    exact absurd (Nat.lt_of_lt_of_le hlength hj) (Nat.lt_irrefl _)
  | cons head rest ih =>
    obtain ⟨start', cls'⟩ := head
    obtain ⟨-, later⟩ := List.pairwise_cons.1 sorted
    by_cases hle : start' ≤ n
    · obtain ⟨i, hlast, heq⟩ := ih later hle
      refine ⟨i + 1, ⟨Nat.succ_lt_succ hlast.lt, hlast.le, ?_⟩, ?_⟩
      · intro j hj hlength
        obtain ⟨k, rfl⟩ := Nat.exists_eq_succ_of_ne_zero (Nat.ne_zero_of_lt hj)
        exact hlast.next k (Nat.lt_of_succ_lt_succ hj) (Nat.lt_of_succ_lt_succ hlength)
      · rw [classIn, if_pos hle]
        exact heq
    · refine ⟨0, ⟨Nat.zero_lt_succ _, hstart, ?_⟩, ?_⟩
      · intro j hj hlength
        have hfirst : start' ≤ (((start, cls) :: (start', cls') :: rest).getD j default).1 := by
          rcases Nat.lt_or_eq_of_le (Nat.succ_le_of_lt hj) with hone | rfl
          · exact Nat.le_of_lt (getD_lt_getD sorted hone hlength)
          · exact Nat.le_refl _
        exact Nat.lt_of_lt_of_le (Nat.lt_of_not_le hle) hfirst
      · rw [classIn, if_neg hle]
        rfl

end

end CharacterClass

open CharacterClass

/-- The class that a text of runs gives a code point, found by going through the runs in turn. -/
def classAt (cs : List Char) (n : Nat) : CharacterClass := classIn n default (runs cs 0 none)

/-- **The class of a character** is that of the run it lies in. -/
theorem classOf_eq_classAt (c : Char) : classOf c = classAt runText.toList c.toNat := by
  have sorted : (runs runText.toList 0 none).Pairwise fun a b => a.1 < b.1 := pairwise_runs
  unfold classOf classAt
  rw [starts_eq, List.size_toArray]
  rcases runs_start runText.toList 0 with hnone | ⟨cls, rest, hruns⟩
  · rw [hnone]
    unfold lookup
    rfl
  · rw [hruns] at sorted ⊢
    obtain ⟨i, hlast, heq⟩ := exists_last sorted (Nat.zero_le c.toNat)
    rw [lookup_eq sorted hlast (Nat.zero_le i) hlast.lt (Nat.le_refl _), heq, classIn,
      if_pos (Nat.zero_le _)]

/-! ## §3. Some characters. -/

namespace CharacterClass

/-- The classes that words are made of. -/
def inWords : CharacterClass → Bool
  | .letter | .number => true
  | _ => false

/-- The classes of all that can be seen. -/
def isVisible : CharacterClass → Bool
  | .letter | .number | .punctuation | .symbol | .mark => true
  | _ => false

end CharacterClass

/-- The code points of the blank characters. -/
def blankPoints : List Nat :=
  List.range' 0x09 5 ++ List.range' 0x1C 5 ++ List.range' 0x2000 11 ++
    [0x85, 0xA0, 0x1680, 0x2028, 0x2029, 0x202F, 0x205F, 0x3000]

theorem mem_blankPoints {c : Char} (h : isBlank c = true) : c.toNat ∈ blankPoints := by
  simp only [isBlank, isWhiteSpace, Bool.or_eq_true, Bool.and_eq_true, decide_eq_true_eq,
    beq_iff_eq] at h
  simp only [blankPoints, List.mem_append, List.mem_range'_1, List.mem_cons, List.not_mem_nil,
    or_false]
  omega

/-- A text of runs knows the letters and digits of ASCII, its visible characters, and all blanks. -/
def knows (cs : List Char) : Bool :=
  ((List.range 0x80).all fun n => (classAt cs n).inWords == (Char.ofNat n).isAlphanum) &&
    ((List.range' 0x21 0x5E).all fun n => (classAt cs n).isVisible && classAt cs n != .mark) &&
    blankPoints.all fun n => !(classAt cs n).isVisible

section

variable {s t : String} {cs rest all : List Char}

theorem toList_append_of_eq (h : s = String.ofList cs) : s.toList ++ rest = cs ++ rest := by
  rw [h, String.toList_ofList]

theorem toList_append_append_of_eq (h : s.toList ++ (cs ++ rest) = all)
    (ht : t = String.ofList cs) : (s ++ t).toList ++ rest = all := by
  rw [String.toList_append, List.append_assoc, toList_append_of_eq ht, h]

end

theorem knows_runText : knows runText.toList = true := by
  -- The text becomes a list of characters line by line, since that is slow to compute.
  obtain ⟨cs, htext, hknows⟩ : ∃ cs, runText.toList ++ [] = cs ∧ knows cs = true := by
    refine ⟨?cs, ?text, ?table⟩
    case text =>
      unfold runText
      repeat with_reducible refine toList_append_append_of_eq ?_ rfl
      exact toList_append_of_eq rfl
    case table => decide +kernel
  rw [← List.append_nil runText.toList, htext, hknows]

-- About the function as a whole: on a character, the kernel would look the class up.
theorem isAlphanumeric_eq_inWords : isAlphanumeric = fun c => (classOf c).inWords := by
  delta isAlphanumeric
  funext c
  generalize classOf c = cls
  cases cls <;> rfl

section

variable {c : Char}

/-- Among the letters and digits of every script, those of ASCII are the ones it always had. -/
theorem isAlphanumeric_eq (h : c.toNat < 0x80) : isAlphanumeric c = c.isAlphanum := by
  have hknows := knows_runText
  simp only [knows, Bool.and_eq_true, List.all_eq_true, List.mem_range, beq_iff_eq] at hknows
  have hc := hknows.1.1 c.toNat h
  simp only [isAlphanumeric_eq_inWords]
  rw [classOf_eq_classAt, hc, Char.ofNat_toNat]

/-- The visible characters of ASCII, none of which is a mark. -/
theorem isVisible_of_ascii (h : 0x20 < c.toNat) (h' : c.toNat < 0x7F) :
    (classOf c).isVisible = true ∧ classOf c ≠ .mark := by
  have hknows := knows_runText
  simp only [knows, Bool.and_eq_true, List.all_eq_true, List.mem_range'_1, bne_iff_ne] at hknows
  rw [classOf_eq_classAt]
  exact hknows.1.2 c.toNat (by omega)

/-- Blank characters are not visible. -/
theorem isVisible_of_isBlank (h : isBlank c = true) : (classOf c).isVisible = false := by
  have hknows := knows_runText
  simp only [knows, Bool.and_eq_true, List.all_eq_true, Bool.not_eq_true'] at hknows
  rw [classOf_eq_classAt]
  exact hknows.2 c.toNat (mem_blankPoints h)

end

end PromptForms.Text
