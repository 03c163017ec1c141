/-
  PromptForms.Proofs.JsonTexts
  ────────────────────────────
  **WHAT IS WRITTEN AS JSON IS READ AS IT WAS.**

  A value is written on one line, its texts in ASCII with escapes.  The reader, which also
  takes blanks, short escapes and names that occur twice, finds in that line the value and
  nothing else, provided that its numbers are numbers of the format, its integers no longer
  than an integer may be, and the names of each object different.  Everything that has been
  read is such a value.

      Json.Exact        the values that a text can hold
      Reads             a reader that finds a value and stops at a rest

  Main results:
    • reads_text          texts, escapes and surrogate pairs included
    • reads_write         values, by induction on the value
    • read_write          what is written is read as it was
-/
import PromptForms.Proofs.NumberTexts

namespace PromptForms.Json

/-! ## §1. Readers. -/

variable {α : Type} {s : List Char}

/-- The reader finds a value and stops at a rest. -/
def Reads (outcome : Except Stuck (α × Shorter s)) (a : α) (rest : List Char) : Prop :=
  ∃ r : Shorter s, r.1 = rest ∧ outcome = .ok (a, r)

theorem Reads.map {β : Type} {s' : List Char} {outcome : Except Stuck (α × Shorter s)} {a : α}
    {rest : List Char} (h : Reads outcome a rest) (f : α → β)
    (shorter : ∀ r : Shorter s, r.1.length < s'.length) :
    Reads (outcome.map fun (x, r) => (f x, (⟨r.1, shorter r⟩ : Shorter s'))) (f a) rest := by
  obtain ⟨r, hr, rfl⟩ := h
  exact ⟨⟨r.1, shorter r⟩, hr, rfl⟩

/-! ## §2. Escapes. -/

/-- One more hexadecimal digit. -/
def hexStep (n : Nat) (x : Char) : Option Nat := (hex4?.digit? x).map (n * 16 + ·)

theorem digit?_digitChar {k : Nat} (hk : k < 16) : hex4?.digit? (Nat.digitChar k) = some k := by
  revert k
  decide

/-- The hexadecimal digits of a number are read as the number. -/
theorem foldlM_toDigits (n : Nat) : (Nat.toDigits 16 n).foldlM hexStep 0 = some n := by
  induction n using Nat.strongRecOn with
  | ind n ih =>
    rw [Nat.toDigits_eq_if (by decide)]
    by_cases small : n < 16
    · rw [if_pos small]
      simp [hexStep, digit?_digitChar small]
    · rw [if_neg small, List.foldlM_append, ih (n / 16) (by omega)]
      simp [hexStep, digit?_digitChar (Nat.mod_lt n (by decide : 16 > 0))]
      omega

theorem foldlM_replicate (k : Nat) : (List.replicate k '0').foldlM hexStep 0 = some 0 := by
  induction k with
  | zero => rfl
  | succ k ih =>
    rw [List.replicate_succ, List.foldlM_cons]
    exact ih

/-- An escape has four digits, and they are read as its code. -/
theorem exists_escape {code : Nat} (hcode : code < 0x10000) :
    ∃ a b c d, (escape code).toList = ['\\', 'u', a, b, c, d] ∧ hex4? a b c d = some code := by
  let digits := List.replicate (4 - (Nat.toDigits 16 code).length) '0' ++ Nat.toDigits 16 code
  have short : (Nat.toDigits 16 code).length ≤ 4 :=
    (Nat.length_toDigits_le_iff (by decide) (by decide)).2 hcode
  have four : digits.length = 4 := by
    rw [List.length_append, List.length_replicate]
    omega
  have value : digits.foldlM hexStep 0 = some code := by
    rw [List.foldlM_append, foldlM_replicate]
    exact foldlM_toDigits code
  obtain ⟨a, b, c, d, hdigits⟩ := List.length_eq_four.1 four
  rw [hdigits] at value
  refine ⟨a, b, c, d, ?_, value⟩
  have text : (escape code).toList = "\\u".toList ++ digits := by
    simp [escape, digits]
  rw [text, hdigits]
  rfl

theorem toNat_valid (c : Char) : c.toNat < 0xD800 ∨ 0xDFFF < c.toNat ∧ c.toNat < 0x110000 := c.valid

/-- A character is never half of a surrogate pair. -/
theorem not_surrogate (c : Char) : isHigh c.toNat = false ∧ isLow c.toNat = false := by
  have valid := toNat_valid c
  simp only [isHigh, isLow, Bool.and_eq_false_iff, decide_eq_false_iff_not]
  omega

theorem unitChar_toNat (c : Char) : unitChar c.toNat = c := by
  obtain ⟨hhigh, hlow⟩ := not_surrogate c
  unfold unitChar
  rw [hhigh, hlow]
  exact Char.ofNat_toNat c

/-! ## §3. Texts. -/

section

variable {left : Nat} {rest done rest' : List Char} {t : String}

theorem reads_shortEscape {c x : Char} (hc : shortEscape? c = some x) (hu : c ≠ 'u')
    (h : Reads (text left rest (x :: done)) t rest') :
    Reads (text left ('\\' :: c :: rest) done) t rest' := by
  rw [text]
  · simp only [hc]
    exact h.map id _
  all_goals intros; contradiction

theorem reads_plain {c : Char} (hquote : c ≠ '"') (hslash : c ≠ '\\') (hvisible : ¬c.toNat ≤ 0x1F)
    (h : Reads (text left rest (c :: done)) t rest') :
    Reads (text left (c :: rest) done) t rest' := by
  rw [text]
  · rw [if_neg hvisible]
    exact h.map id _
  · exact hquote
  all_goals intros; contradiction

/-- A unit that is no half of a surrogate pair is a character. -/
theorem reads_unit {a b c d : Char} {u : Nat} (hu : hex4? a b c d = some u)
    (hhigh : isHigh u = false) (hrest : rest ≠ []) (h : Reads (text left rest (unitChar u :: done)) t rest') :
    Reads (text left ('\\' :: 'u' :: a :: b :: c :: d :: rest) done) t rest' := by
  obtain ⟨e, tail, rfl⟩ := List.exists_cons_of_ne_nil hrest
  by_cases hpair : ∃ f g h i j more, e = '\\' ∧ tail = 'u' :: f :: g :: h :: i :: j :: more
  · -- Another escape follows, but it is not looked at.
    obtain ⟨f, g, h', i, j, more, rfl, rfl⟩ := hpair
    rw [text]
    simp only [hu, hhigh]
    exact h.map id _
  · rw [text]
    · simp only [hu]
      exact h.map id _
    · intro f g h i j more he htail
      exact hpair ⟨f, g, h, i, j, more, he, htail⟩

/-- The two units of a surrogate pair are one character. -/
theorem reads_pair {a b c d e f g i : Char} {high low : Nat} (hhigh : hex4? a b c d = some high)
    (hlow : hex4? e f g i = some low) (hishigh : isHigh high = true) (hislow : isLow low = true)
    (hrest : rest ≠ [])
    (h : Reads (text left rest
      (Char.ofNat (0x10000 + (high - 0xD800) * 0x400 + (low - 0xDC00)) :: done)) t rest') :
    Reads (text left
      ('\\' :: 'u' :: a :: b :: c :: d :: '\\' :: 'u' :: e :: f :: g :: i :: rest) done) t rest' := by
  obtain ⟨j, tail, rfl⟩ := List.exists_cons_of_ne_nil hrest
  rw [text]
  simp only [hhigh, hlow, hishigh, hislow, if_true]
  exact h.map id _

/-- How a character is written. -/
inductive Written (c : Char) : List Char → Prop where
  | short (name : Char) (hname : shortEscape? name = some c) (hu : name ≠ 'u') :
      Written c ['\\', name]
  | plain (hquote : c ≠ '"') (hslash : c ≠ '\\') (hvisible : ¬c.toNat ≤ 0x1F) : Written c [c]
  | unit (hcode : c.toNat < 0x10000) : Written c (escape c.toNat).toList
  | pair (hcode : ¬c.toNat < 0x10000) :
      Written c ((escape (0xD800 + (c.toNat - 0x10000) / 0x400)).toList ++
        (escape (0xDC00 + (c.toNat - 0x10000) % 0x400)).toList)

theorem written_writeChar (c : Char) : Written c (writeChar c).toList := by
  unfold writeChar
  split
  · rename_i hc
    rw [beq_iff_eq.1 hc]
    exact .short '"' rfl (by decide)
  · split
    · rename_i hc
      rw [beq_iff_eq.1 hc]
      exact .short '\\' rfl (by decide)
    · rename_i hquote hslash
      split
      · rename_i hprintable
        have hvisible : ¬c.toNat ≤ 0x1F := by
          rw [Bool.and_eq_true, decide_eq_true_eq] at hprintable
          have hspace : (' ' : Char).toNat ≤ c.toNat := hprintable.1
          have : (' ' : Char).toNat = 32 := rfl
          omega
        rw [Char.toString_eq_singleton, String.toList_singleton]
        exact .plain (by simpa using hquote) (by simpa using hslash) hvisible
      · split
        · exact .unit ‹_›
        · rw [String.toList_append]
          exact .pair ‹_›

/-- A character that is written is read as it was. -/
theorem reads_written {c : Char} {cs : List Char} (hcs : Written c cs) (hrest : rest ≠ [])
    (h : Reads (text left rest (c :: done)) t rest') :
    Reads (text left (cs ++ rest) done) t rest' := by
  cases hcs with
  | short name hname hu => exact reads_shortEscape hname hu h
  | plain hquote hslash hvisible => exact reads_plain hquote hslash hvisible h
  | unit hcode =>
    obtain ⟨a, b, d, e, htext, hhex⟩ := exists_escape hcode
    rw [htext]
    apply reads_unit hhex (not_surrogate c).1 hrest
    rwa [unitChar_toNat]
  | pair hcode =>
    have valid := toNat_valid c
    obtain ⟨a, b, d, e, htext, hhex⟩ :=
      exists_escape (show 0xD800 + (c.toNat - 0x10000) / 0x400 < 0x10000 by omega)
    obtain ⟨a', b', d', e', htext', hhex'⟩ :=
      exists_escape (show 0xDC00 + (c.toNat - 0x10000) % 0x400 < 0x10000 by omega)
    rw [htext, htext']
    apply reads_pair hhex hhex' _ _ hrest
    · rwa [show 0x10000 + (0xD800 + (c.toNat - 0x10000) / 0x400 - 0xD800) * 0x400
        + (0xDC00 + (c.toNat - 0x10000) % 0x400 - 0xDC00) = c.toNat by omega, Char.ofNat_toNat]
    · simp only [isHigh, Bool.and_eq_true, decide_eq_true_eq]
      omega
    · simp only [isLow, Bool.and_eq_true, decide_eq_true_eq]
      omega

/-- The characters of a text as they are written. -/
def escaped (cs : List Char) : List Char := cs.flatMap fun c => (writeChar c).toList

theorem escaped_cons (c : Char) (cs : List Char) :
    escaped (c :: cs) = (writeChar c).toList ++ escaped cs := List.flatMap_cons

theorem toList_writeText (s : String) :
    (writeText s).toList = '"' :: (escaped s.toList ++ ['"']) := by
  have fold (cs : List Char) (start : String) :
      (cs.foldl (fun written c => written ++ writeChar c) start).toList =
        start.toList ++ escaped cs := by
    induction cs generalizing start with
    | nil => exact (List.append_nil _).symm
    | cons c rest ih =>
      rw [List.foldl_cons, ih, String.toList_append, escaped_cons, List.append_assoc]
  unfold writeText
  rw [String.toList_append, String.toList_append, fold]
  rfl

/-- The characters of a text are read up to the closing quote. -/
theorem reads_characters (left : Nat) (cs rest done : List Char) :
    Reads (text left (escaped cs ++ '"' :: rest) done)
      (String.ofList (done.reverse ++ cs)) rest := by
  induction cs generalizing done with
  | nil =>
    rw [List.append_nil]
    exact ⟨_, rfl, rfl⟩
  | cons c more ih =>
    have hlater := ih (c :: done)
    rw [List.reverse_cons, List.append_assoc, List.singleton_append] at hlater
    rw [escaped_cons, List.append_assoc]
    exact reads_written (written_writeChar c) (by simp) hlater

/-- **A text** is read as it was. -/
theorem reads_text (s : String) (left : Nat) (rest : List Char) :
    Reads (text left (escaped s.toList ++ '"' :: rest) []) s rest := by
  have h := reads_characters left s.toList rest []
  rwa [List.reverse_nil, List.nil_append, String.ofList_toList] at h

end

/-! ## §4. Values. -/

mutual

/-- The values that a text can hold: integers no longer than an integer may be, binary64 numbers,
and objects of which no name occurs twice. -/
def Exact : Json → Prop
  | .null => True
  | .bool _ => True
  | .int i => i.natAbs < 10 ^ Numeral.maxDigits
  | .real x => x.Sound
  | .str _ => True
  | .arr items => ExactItems items
  | .obj members => (members.map (·.1)).Nodup ∧ ExactMembers members

/-- The items of a list. -/
def ExactItems : List Json → Prop
  | [] => True
  | item :: rest => item.Exact ∧ ExactItems rest

/-- The members of an object. -/
def ExactMembers : List (String × Json) → Prop
  | [] => True
  | (_, value) :: rest => value.Exact ∧ ExactMembers rest

end

theorem exactItems_iff {items : List Json} : ExactItems items ↔ ∀ item ∈ items, item.Exact := by
  induction items with
  | nil => simp [ExactItems]
  | cons item rest ih => simp [ExactItems, ih]

theorem exactMembers_iff {members : List (String × Json)} :
    ExactMembers members ↔ ∀ pair ∈ members, pair.2.Exact := by
  induction members with
  | nil => simp [ExactMembers]
  | cons pair rest ih => simp [ExactMembers, ih]

/-- The characters that numbers and the constants start with. -/
def startsScalar (c : Char) : Bool := c.isDigit || "-ntfNI".toList.contains c

/-- Numbers and constants start with a character of their own. -/
theorem head_signed_body {n : Spelling} (h : n.Proper) (negative : Bool) :
    ∃ c tail, signed negative n.body = c :: tail ∧ startsScalar c = true := by
  obtain ⟨c, tail, hbody, hc⟩ := h.exists_cons
  cases negative with
  | false => exact ⟨c, tail, hbody, by rw [startsScalar, hc, Bool.true_or]⟩
  | true => exact ⟨'-', n.body, rfl, by decide⟩

theorem head_toString (i : Int) :
    ∃ c tail, (toString i).toList = c :: tail ∧ startsScalar c = true := by
  have h := head_signed_body (proper_toDigits i.natAbs) (decide (i < 0))
  rwa [toList_toString, ← show (⟨Nat.toDigits 10 i.natAbs, [], []⟩ : Spelling).body =
    Nat.toDigits 10 i.natAbs from List.append_nil _]

theorem head_writeReal {x : Binary64} (hx : x.Sound) :
    ∃ c tail, (writeReal x).toList = c :: tail ∧ startsScalar c = true := by
  cases x with
  | nan => exact ⟨'N', _, rfl, by decide⟩
  | infinite negative => cases negative with
    | false => exact ⟨'I', _, rfl, by decide⟩
    | true => exact ⟨'-', _, rfl, by decide⟩
  | finite negative m e =>
    obtain ⟨n, hproper, -, htext, -⟩ := exists_writeReal negative hx
    rw [htext]
    exact head_signed_body hproper negative

/-- The characters that values start with, and that no blank, bracket or comma is. -/
def startsValue (c : Char) : Bool := startsScalar c || c == '"' || c == '[' || c == '\x7b'

/-- A text starts as a value does. -/
def Starts (s : List Char) : Prop := ∃ c tail, s = c :: tail ∧ startsValue c = true

theorem Starts.append {s : List Char} (h : Starts s) (rest : List Char) : Starts (s ++ rest) := by
  obtain ⟨c, tail, rfl, hc⟩ := h
  exact ⟨c, tail ++ rest, rfl, hc⟩

theorem Starts.ne_cons {s tail : List Char} {c : Char} (h : Starts s) (hc : startsValue c = false) :
    s ≠ c :: tail := by
  obtain ⟨d, tail', rfl, hd⟩ := h
  intro heq
  cases heq
  rw [hc] at hd
  contradiction

/-- Nothing is skipped in front of a character that is no blank. -/
theorem skipSpace_cons {c : Char} (hc : isSpace c = false) (tail : List Char) :
    (skipSpace (c :: tail)).1 = c :: tail := by
  simp [skipSpace, hc]

/-- Nothing is skipped in front of a value. -/
theorem Starts.skipSpace {s : List Char} (h : Starts s) : (skipSpace s).1 = s := by
  obtain ⟨c, tail, rfl, hc⟩ := h
  apply skipSpace_cons
  rw [Bool.eq_false_iff]
  intro hspace
  simp only [isSpace, Bool.or_eq_true, beq_iff_eq] at hspace
  rcases hspace with ((rfl | rfl) | rfl) | rfl <;> exact absurd hc (by decide)

theorem starts_write {value : Json} (h : value.Exact) : Starts (write value).toList := by
  have scalars {text : List Char} (hhead : ∃ c tail, text = c :: tail ∧ startsScalar c = true) :
      Starts text := by
    obtain ⟨c, tail, htext, hc⟩ := hhead
    exact ⟨c, tail, htext, by simp [startsValue, hc]⟩
  cases value with
  | null => exact ⟨'n', _, rfl, by decide⟩
  | bool b => cases b with
    | true => exact ⟨'t', _, rfl, by decide⟩
    | false => exact ⟨'f', _, rfl, by decide⟩
  | int i =>
    rw [write]
    exact scalars (head_toString i)
  | real x =>
    rw [write]
    exact scalars (head_writeReal h)
  | str s =>
    rw [write]
    exact ⟨'"', _, toList_writeText s, by decide⟩
  | arr items =>
    rw [write, String.toList_append, String.toList_append]
    exact ⟨'[', _, rfl, by decide⟩
  | obj members =>
    rw [write, String.toList_append, String.toList_append]
    exact ⟨'\x7b', _, rfl, by decide⟩

/-- What follows numbers and constants, texts, lists and objects inside a value. -/
theorem ends_cons {c : Char} (rest : List Char)
    (hc : c.isDigit = false ∧ c ≠ '.' ∧ c ≠ 'e' ∧ c ≠ 'E') : Ends (c :: rest) := by
  intro d hd
  cases hd
  exact hc

theorem reads_scalar {s rest : List Char} {v : Json}
    (hhead : ∃ c tail, s = c :: tail ∧ startsScalar c = true) (h : Reads (scalar s) v rest) :
    Reads (value s) v rest := by
  obtain ⟨c, tail, rfl, hc⟩ := hhead
  rw [value]
  · exact h
  · exact List.cons_ne_nil c tail
  all_goals
    intro rest' heq
    cases heq
    exact absurd hc (by decide)

/-! ## §5. Lists and objects. -/

/-- Where a reader has stopped, blanks do not move it if there are none. -/
theorem after_skipSpace {s : List Char} {r : Shorter s} {c : Char} {tail : List Char}
    (hr : r.1 = c :: tail) (hc : isSpace c = false) : (r.after (skipSpace r.1)).1 = c :: tail := by
  show (skipSpace r.1).1 = _
  rw [hr]
  exact skipSpace_cons hc tail

/-- An item is the last one, or a comma and further items follow. -/
theorem reads_items {s after rest : List Char} {item : Json} {list done : List Json}
    (hitem : Reads (value s) item after)
    (hafter : after = ']' :: rest ∧ list = (item :: done).reverse ∨
      ∃ next, after = ',' :: next ∧ Reads (items (skipSpace next).1 (item :: done)) list rest) :
    Reads (items s done) list rest := by
  obtain ⟨r, hr, hread⟩ := hitem
  rw [items, hread]
  dsimp only
  rcases hafter with ⟨rfl, rfl⟩ | ⟨next, rfl, hmore⟩
  · have stop := after_skipSpace hr (by decide)
    split
    · rename_i rest' heq
      cases stop.symm.trans heq
      exact ⟨_, rfl, rfl⟩
    · rename_i rest' heq
      cases stop.symm.trans heq
    · rename_i heq _
      exact absurd stop (heq rest)
  · have stop := after_skipSpace hr (by decide)
    split
    · rename_i rest' heq
      cases stop.symm.trans heq
    · rename_i rest' heq
      cases stop.symm.trans heq
      exact hmore.map id _
    · rename_i _ heq
      exact absurd stop (heq next)

/-- A member is the last one, or a comma and further members follow. -/
theorem reads_members {s start after rest : List Char} {name : String} {item : Json}
    {list done : List (String × Json)}
    (hname : Reads (text (s.length + 1) s []) name (':' :: start))
    (hitem : Reads (value (skipSpace start).1) item after)
    (hafter : after = '\x7d' :: rest ∧ list = ((name, item) :: done).reverse ∨
      ∃ next, after = ',' :: next ∧
        Reads (members (skipSpace next).1 ((name, item) :: done)) list rest) :
    Reads (members ('"' :: s) done) list rest := by
  obtain ⟨r, hr, hread⟩ := hname
  obtain ⟨v, hv, hvalue⟩ := hitem
  have colon := after_skipSpace hr (by decide)
  rw [members, hread]
  dsimp only
  split
  · rename_i start' heq
    cases colon.symm.trans heq
    rw [hvalue]
    dsimp only
    rcases hafter with ⟨rfl, rfl⟩ | ⟨next, rfl, hmore⟩
    · have stop := after_skipSpace hv (by decide)
      split
      · rename_i rest' heq
        cases stop.symm.trans heq
        exact ⟨_, rfl, rfl⟩
      · rename_i rest' heq
        cases stop.symm.trans heq
      · rename_i heq _
        exact absurd stop (heq rest)
    · have stop := after_skipSpace hv (by decide)
      split
      · rename_i rest' heq
        cases stop.symm.trans heq
      · rename_i rest' heq
        cases stop.symm.trans heq
        exact hmore.map id _
      · rename_i _ heq
        exact absurd stop (heq next)
  · rename_i heq
    exact absurd colon (heq start)

theorem reads_emptyList (rest : List Char) :
    Reads (value ('[' :: ']' :: rest)) (.arr []) rest := by
  rw [value]
  dsimp only
  have stop : (skipSpace (']' :: rest)).1 = ']' :: rest := skipSpace_cons (by decide) rest
  split
  · rename_i after heq
    cases stop.symm.trans heq
    exact ⟨_, rfl, rfl⟩
  · rename_i heq
    exact absurd stop (heq rest)

theorem reads_list {s rest : List Char} {list : List Json}
    (hstart : ∀ tail, (skipSpace s).1 ≠ ']' :: tail)
    (h : Reads (items (skipSpace s).1 []) list rest) :
    Reads (value ('[' :: s)) (.arr list) rest := by
  rw [value]
  dsimp only
  split
  · rename_i after heq
    exact absurd heq (hstart after)
  · exact h.map Json.arr _

theorem reads_emptyObject (rest : List Char) :
    Reads (value ('\x7b' :: '\x7d' :: rest)) (.obj []) rest := by
  rw [value]
  dsimp only
  have stop : (skipSpace ('\x7d' :: rest)).1 = '\x7d' :: rest := skipSpace_cons (by decide) rest
  split
  · rename_i after heq
    cases stop.symm.trans heq
    exact ⟨_, rfl, rfl⟩
  · rename_i heq
    exact absurd stop (heq rest)

theorem reads_object {s rest : List Char} {pairs : List (String × Json)}
    (hstart : ∀ tail, (skipSpace s).1 ≠ '\x7d' :: tail)
    (h : Reads (members (skipSpace s).1 []) pairs rest) :
    Reads (value ('\x7b' :: s)) (.obj (Dictionary.ofPairs pairs)) rest := by
  rw [value]
  dsimp only
  split
  · rename_i after heq
    exact absurd heq (hstart after)
  · exact h.map (fun pairs => Json.obj (Dictionary.ofPairs pairs)) _

/-! ## §6. What is written is read. -/

theorem toList_write_arr (list : List Json) :
    (write (.arr list)).toList = '[' :: ((writeItems list).toList ++ [']']) := by
  rw [write, String.toList_append, String.toList_append]
  rfl

theorem toList_write_obj (list : List (String × Json)) :
    (write (.obj list)).toList = '\x7b' :: ((writeMembers list).toList ++ ['\x7d']) := by
  rw [write, String.toList_append, String.toList_append]
  rfl

theorem toList_writeItems (item next : Json) (more : List Json) :
    (writeItems (item :: next :: more)).toList =
      (write item).toList ++ ',' :: (writeItems (next :: more)).toList := by
  rw [writeItems, String.toList_append, String.toList_append, List.append_assoc]
  · rfl
  · exact List.cons_ne_nil next more

theorem toList_writeMember (name : String) (item : Json) :
    (writeMembers [(name, item)]).toList =
      '"' :: (escaped name.toList ++ '"' :: ':' :: (write item).toList) := by
  rw [writeMembers, String.toList_append, String.toList_append, toList_writeText]
  simp

theorem toList_writeMembers (pair next : String × Json) (more : List (String × Json)) :
    (writeMembers (pair :: next :: more)).toList =
      (writeMembers [pair]).toList ++ ',' :: (writeMembers (next :: more)).toList := by
  rw [writeMembers, writeMembers, String.toList_append, String.toList_append, List.append_assoc]
  · rfl
  · exact List.cons_ne_nil next more

theorem starts_writeItems {item : Json} {more : List Json} (h : ExactItems (item :: more)) :
    Starts (writeItems (item :: more)).toList := by
  cases more with
  | nil => exact starts_write h.1
  | cons next more =>
    rw [toList_writeItems]
    exact (starts_write h.1).append _

theorem starts_writeMembers (pair : String × Json) (more : List (String × Json)) :
    Starts (writeMembers (pair :: more)).toList := by
  have first : Starts (writeMembers [pair]).toList :=
    ⟨'"', _, toList_writeMember pair.1 pair.2, by decide⟩
  cases more with
  | nil => exact first
  | cons next more =>
    rw [toList_writeMembers]
    exact first.append _

/-- A member, before what ends it. -/
theorem reads_writeMember {name : String} {item : Json} {after rest : List Char}
    {list done : List (String × Json)} (h : item.Exact)
    (hitem : Reads (value ((write item).toList ++ after)) item after)
    (hafter : after = '\x7d' :: rest ∧ list = ((name, item) :: done).reverse ∨
      ∃ next, after = ',' :: next ∧
        Reads (members (skipSpace next).1 ((name, item) :: done)) list rest) :
    Reads (members ((writeMembers [(name, item)]).toList ++ after) done) list rest := by
  rw [← ((starts_write h).append after).skipSpace] at hitem
  rw [toList_writeMember, List.cons_append, List.append_assoc]
  exact reads_members (reads_text name _ _) hitem hafter

mutual

/-- **A value** is read as it was, and what follows it is left. -/
theorem reads_write : ∀ (v : Json) (rest : List Char), v.Exact → Ends rest →
    Reads (value ((write v).toList ++ rest)) v rest
  | .null, _, _, _ => reads_scalar ⟨'n', _, rfl, by decide⟩ ⟨_, rfl, rfl⟩
  | .bool true, _, _, _ => reads_scalar ⟨'t', _, rfl, by decide⟩ ⟨_, rfl, rfl⟩
  | .bool false, _, _, _ => reads_scalar ⟨'f', _, rfl, by decide⟩ ⟨_, rfl, rfl⟩
  | .int i, rest, h, hrest => by
    rw [write]
    obtain ⟨c, tail, htext, hc⟩ := head_toString i
    exact reads_scalar ⟨c, tail ++ rest, by rw [htext]; rfl, hc⟩ (scalar_toString h hrest)
  | .real x, rest, h, hrest => by
    rw [write]
    obtain ⟨c, tail, htext, hc⟩ := head_writeReal h
    exact reads_scalar ⟨c, tail ++ rest, by rw [htext]; rfl, hc⟩ (scalar_writeReal h hrest)
  | .str s, rest, _, _ => by
    rw [write, toList_writeText, List.cons_append, List.append_assoc, value]
    exact (reads_text s _ rest).map Json.str _
  | .arr [], rest, _, _ => reads_emptyList rest
  | .arr (item :: more), rest, h, _ => by
    have hstarts := (starts_writeItems h).append (']' :: rest)
    rw [toList_write_arr, List.cons_append, List.append_assoc, List.singleton_append]
    apply reads_list
    · intro tail
      rw [hstarts.skipSpace]
      exact hstarts.ne_cons (by decide)
    · rw [hstarts.skipSpace]
      exact reads_writeItems (item :: more) rest [] (List.cons_ne_nil item more) h
  | .obj [], rest, _, _ => reads_emptyObject rest
  | .obj (pair :: more), rest, h, _ => by
    have hstarts := (starts_writeMembers pair more).append ('\x7d' :: rest)
    have hobject : Reads
        (value ('\x7b' :: ((writeMembers (pair :: more)).toList ++ '\x7d' :: rest)))
        (.obj (Dictionary.ofPairs (pair :: more))) rest := by
      apply reads_object
      · intro tail
        rw [hstarts.skipSpace]
        exact hstarts.ne_cons (by decide)
      · rw [hstarts.skipSpace]
        exact reads_writeMembers (pair :: more) rest [] (List.cons_ne_nil pair more) h.2
    rw [Dictionary.ofPairs_of_nodup h.1] at hobject
    rw [toList_write_obj, List.cons_append, List.append_assoc]
    exact hobject

/-- The items of a list. -/
theorem reads_writeItems : ∀ (list : List Json) (rest : List Char) (done : List Json),
    list ≠ [] → ExactItems list →
      Reads (items ((writeItems list).toList ++ ']' :: rest) done) (done.reverse ++ list) rest
  | [], _, _, hne, _ => absurd rfl hne
  | [item], rest, done, _, h => by
    have hitem := reads_write item (']' :: rest) h.1 (ends_cons rest (by decide))
    exact reads_items hitem (.inl ⟨rfl, List.reverse_cons.symm⟩)
  | item :: next :: more, rest, done, _, h => by
    have hstarts := (starts_writeItems h.2).append (']' :: rest)
    have hitem := reads_write item (',' :: ((writeItems (next :: more)).toList ++ ']' :: rest)) h.1
      (ends_cons _ (by decide))
    have hmore := reads_writeItems (next :: more) rest (item :: done)
      (List.cons_ne_nil next more) h.2
    rw [List.reverse_cons, List.append_assoc, List.singleton_append, ← hstarts.skipSpace] at hmore
    rw [toList_writeItems, List.append_assoc, List.cons_append]
    exact reads_items hitem (.inr ⟨_, rfl, hmore⟩)

/-- The members of an object. -/
theorem reads_writeMembers :
    ∀ (list : List (String × Json)) (rest : List Char) (done : List (String × Json)),
    list ≠ [] → ExactMembers list →
      Reads (members ((writeMembers list).toList ++ '\x7d' :: rest) done)
        (done.reverse ++ list) rest
  | [], _, _, hne, _ => absurd rfl hne
  | [(name, item)], rest, done, _, h => by
    have hitem := reads_write item ('\x7d' :: rest) h.1 (ends_cons rest (by decide))
    exact reads_writeMember h.1 hitem (.inl ⟨rfl, List.reverse_cons.symm⟩)
  | (name, item) :: next :: more, rest, done, _, h => by
    have hstarts := (starts_writeMembers next more).append ('\x7d' :: rest)
    have hitem := reads_write item (',' :: ((writeMembers (next :: more)).toList ++ '\x7d' :: rest))
      h.1 (ends_cons _ (by decide))
    have hmore := reads_writeMembers (next :: more) rest ((name, item) :: done)
      (List.cons_ne_nil next more) h.2
    rw [List.reverse_cons, List.append_assoc, List.singleton_append, ← hstarts.skipSpace] at hmore
    rw [toList_writeMembers, List.append_assoc, List.cons_append]
    exact reads_writeMember h.1 hitem (.inr ⟨_, rfl, hmore⟩)

end

/-- **What is written is read as it was.** -/
theorem read_write {doc : Json} (h : doc.Exact) : read (write doc) = .ok doc := by
  have hends : Ends [] := by
    intro c hc
    cases hc
  have hvalue := reads_write doc [] h hends
  rw [← ((starts_write h).append []).skipSpace, List.append_nil] at hvalue
  obtain ⟨r, hr, hread⟩ := hvalue
  unfold read
  dsimp only
  rw [hread]
  dsimp only
  rw [hr]
  rfl

end PromptForms.Json
