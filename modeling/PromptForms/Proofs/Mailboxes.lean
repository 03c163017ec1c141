/-
  PromptForms.Proofs.Mailboxes
  ────────────────────────────
  **WHAT AN EMAIL FIELD KEEPS.**

  An email field has to find an address in the text that it is given: the text itself or, if
  there are angle brackets after a display name, what stands in them, in both cases without
  the spaces around it.  It is the address that has to be a proper one; what is kept is the
  text.  So a template may receive a display name, brackets and spaces.

      displayBody      the display form as a pattern
      Dressed          an address with what may stand around it

  Main results:
    • displayForm_sound          a text in the display form ends in angle brackets
    • plain_of_isBareAddress     a bare address holds neither blanks nor angle brackets
    • emails_kept                what is kept, and when it is only the address
    • dressed_address            a display name is accepted and kept
-/
import Mathlib
import PromptForms.Proofs.Acceptance
import PromptForms.Proofs.CharacterRuns
import PromptForms.Proofs.Matches

namespace PromptForms.Email

open Pattern

/-! ## §1. The display form. -/

/-- Characters of a set, one after the other. -/
def many (least : Nat) (items : List SetItem) : Node := .repeated least none .greedy [.set false items]

/-- Blanks. -/
def blanks (least : Nat) : Node := many least [.cls .space false]

/-- The signs that a word of a display name may be made of, besides letters, digits and the like. -/
def nameSigns : List SetItem :=
  [33, 35, 36, 37, 38, 39, 42, 43, 45, 47, 61, 63, 94, 95, 96, 123, 124, 125, 126].map .point

/-- A display name, plain or quoted, if there is one; the words of a plain one are made of `items`. -/
def displayName (items : List SetItem) : Node :=
  .repeated 0 (some 1) .greedy [.group none {} {} [.choice
    [[.group (some 1) {} {}
      [.repeated 0 none .greedy [.group none {} {} [many 1 items, blanks 1]], many 1 items]],
    [.point 34 false,
      .group (some 2) {} {} [.repeated 1 none .greedy
        [.group none {} {} [.choice [[.point 34 true], [.point 34 false]]]]],
      .point 34 false]]]]

/-- The display form. -/
def displayBody (items : List SetItem) : List Node :=
  [blanks 0, displayName items, blanks 0, .point 60 false,
    .group (some 3) {} {} [.repeated 1 none .greedy [.any]], .point 62 false, blanks 0]

/-- The display form as a pattern. -/
def displayPattern : Pattern where
  body := displayBody (.cls .word false :: nameSigns)
  flags := {}
  widths := #[(0, 0), (1, maxWidth), (1, maxWidth), (1, maxWidth)]

set_option maxRecDepth 20000 in
theorem displayForm_eq : displayForm = .ok displayPattern := by cbv

section

variable {text : Array Char} {widths : Nat → Widths}

theorem gets_blanks (least : Nat) :
    Gets ((blanks least).run text widths {}) (Spans text Text.isBlank) := by
  refine gets_many text widths ?_ least none .greedy
  rw [Node.run]
  congr 1
  funext c
  simp [SetItem.holds, CharClass.holds]

theorem gets_any (least : Nat) :
    Gets ((Node.repeated least none .greedy [.any]).run text widths {})
      (Spans text fun c => c != '\n') := by
  refine gets_many text widths ?_ least none .greedy
  rw [Node.run]
  congr 1

/-- A code point is that of one character. -/
theorem gets_point (c : Char) : Gets ((Node.point c.toNat false).run text widths {})
    fun s t => text[s.position]? = some c ∧ t = { s with position := s.position + 1 } := by
  intro s next r hr
  rw [Node.run] at hr
  obtain ⟨t, ⟨hc, ht⟩, hr⟩ := gets_oneChar text _ hr
  refine ⟨t, ⟨?_, ht⟩, hr⟩
  unfold charHolds at hc
  cases hd : text[s.position]? with
  | none => simp [hd] at hc
  | some d =>
    have hpoint : c.toNat = d.toNat := by simpa [hd, variants] using hc
    rw [Char.toNat_inj.1 hpoint]

/-- The display form depends on what its words are made of, and on nothing else of that. -/
theorem runAll_displayBody_congr {items items' : List SetItem}
    (h : (Node.set false items).run text widths {} = (Node.set false items').run text widths {}) :
    runAll text widths {} (displayBody items) = runAll text widths {} (displayBody items') := by
  have hmany : (many 1 items).run text widths {} = (many 1 items').run text widths {} :=
    run_repeated_congr (runAll_congr h rfl)
  -- Down to the first alternative, the plain name.
  refine runAll_congr rfl (runAll_congr ?_ rfl)
  refine run_repeated_congr (runAll_congr (run_group_congr (runAll_congr (run_choice_congr
    (runFirst_congr (runAll_congr (run_group_congr ?_) rfl) rfl)) rfl)) rfl)
  refine runAll_congr (run_repeated_congr (runAll_congr (run_group_congr ?_) rfl)) ?_
  · exact runAll_congr hmany rfl
  · exact runAll_congr hmany rfl

/-- The letters, digits and underscore of ASCII. -/
def asciiWord : List SetItem := [.point 95, .range 48 57, .range 65 90, .range 97 122]

theorem isAlphanum_iff {c : Char} : c.isAlphanum = true ↔
    ((65 ≤ c.toNat ∧ c.toNat ≤ 90) ∨ 97 ≤ c.toNat ∧ c.toNat ≤ 122) ∨
      48 ≤ c.toNat ∧ c.toNat ≤ 57 := by
  simp [Char.isAlphanum, Char.isAlpha, Char.isUpper, Char.isLower, Char.isDigit,
    UInt32.le_iff_toNat_le]

/-- In a text of ASCII characters, the words of every script are those of ASCII. -/
theorem run_word_of_ascii (h : ∀ c ∈ text, c.toNat < 0x80) :
    (Node.set false (.cls .word false :: nameSigns)).run text widths {} =
      (Node.set false (asciiWord ++ nameSigns)).run text widths {} := by
  simp only [Node.run]
  unfold oneChar
  funext s next
  congr 2
  unfold charHolds
  cases hc : text[s.position]? with
  | none => rfl
  | some c =>
    have hascii := h c (Array.mem_of_getElem? hc)
    have hunderscore : c = '_' ↔ c.toNat = 95 := Char.toNat_inj.symm
    have hword : (SetItem.cls .word false).holds {} c [c.toNat] =
        asciiWord.any fun item => item.holds {} c [c.toNat] := by
      rw [Bool.eq_iff_iff]
      simp only [SetItem.holds, CharClass.holds, isWord, asciiWord, Text.isAlphanumeric_eq hascii]
      simp [hunderscore, isAlphanum_iff]
      omega
    have hvariants : variants {} c = [c.toNat] := rfl
    rw [Option.any_some, Option.any_some, hvariants, List.any_cons, List.any_append, hword]

end

/-- A text is cut at two of its characters. -/
theorem cut_at_two {cs : List Char} {c d : Char} {k m : Nat} (hk : cs[k]? = some c)
    (hm : cs[m]? = some d) (hlt : k < m) :
    cs = cs.take k ++ c :: ((cs.drop (k + 1)).take (m - (k + 1)) ++ d :: cs.drop (m + 1)) := by
  obtain ⟨hklt, rfl⟩ := List.getElem?_eq_some_iff.1 hk
  obtain ⟨hmlt, rfl⟩ := List.getElem?_eq_some_iff.1 hm
  have hrest : (cs.drop (k + 1)).drop (m - (k + 1)) = cs.drop m := by
    rw [List.drop_drop]
    congr 1
    omega
  rw [← List.drop_eq_getElem_cons hmlt, ← hrest, List.take_append_drop,
    ← List.drop_eq_getElem_cons hklt, List.take_append_drop]

/-- **A text in the display form** ends in angle brackets, and the third group is what stands in
them. -/
theorem displayForm_sound {text : String} {r : Spot} (h : displayPattern.matchAll? text = some r) :
    ∃ name inner after, text.toList = name ++ '<' :: (inner ++ '>' :: after) ∧
      (∀ c ∈ after, Text.isBlank c = true) ∧
      r.capturedText? 3 text = some (String.ofList inner) := by
  simp only [Pattern.matchAll?, displayPattern, displayBody, runAll] at h
  -- Blanks, a name and blanks, of which it only matters that the match goes onward; then the
  -- bracket, the third group, the other bracket and blanks up to the end.
  obtain ⟨s₁, h₁, h⟩ := Node.gets_onward _ _ _ _ h
  obtain ⟨s₂, h₂, h⟩ := Node.gets_onward _ _ _ _ h
  obtain ⟨s₃, h₃, h⟩ := Node.gets_onward _ _ _ _ h
  obtain ⟨_, ⟨hopen, rfl⟩, h⟩ := gets_point '<' h
  obtain ⟨_, ⟨s₅, h₅, rfl⟩, h⟩ := (gets_any 1).singleton.group 3 h
  obtain ⟨_, ⟨hclose, rfl⟩, h⟩ := gets_point '>' h
  obtain ⟨s₇, h₇, h⟩ := gets_blanks 0 h
  obtain ⟨hend, heq⟩ := Option.ite_none_right_eq_some.1 h
  obtain rfl := Option.some.inj heq
  -- The third group, as it was noted on the way.
  have hstarts : s₇.starts = s₃.starts.setIfInBounds 3 (some (s₃.position + 1)) :=
    (congrArg Spot.starts h₇.rest).trans (congrArg Spot.starts h₅.rest)
  have hends : s₇.ends = s₃.ends.setIfInBounds 3 (some s₅.position) := by
    rw [congrArg Spot.ends h₇.rest, ← congrArg Spot.ends h₅.rest]
  have hsize := (h₁.trans h₂).trans h₃
  have hinner : s₃.position + 1 ≤ s₅.position := h₅.position
  have hcaptured : s₇.captured 3 = some (s₃.position + 1, s₅.position) := by
    have hstart : 3 < s₃.starts.size := hsize.starts ▸ by simp
    have hfinish : 3 < s₃.ends.size := hsize.ends ▸ by simp
    unfold Spot.captured
    rw [hstarts, hends]
    simp [Array.getD, hstart, hfinish, hinner]
  refine ⟨_, _, _, cut_at_two ?_ ?_ hinner, ?_, ?_⟩
  · simpa using hopen
  · simpa using hclose
  · intro c hc
    obtain ⟨i, hi, rfl⟩ := List.mem_iff_getElem.1 hc
    rw [List.length_drop] at hi
    have hlt : s₅.position + 1 + i < text.toList.length := by omega
    have hblank := h₇.chars (s₅.position + 1 + i) (Nat.le_add_right _ _)
      (by simpa [hend] using hlt)
    simpa [charHolds, hlt, List.getElem_drop] using hblank
  · unfold Spot.capturedText?
    rw [hcaptured]
    rfl

/-! ## §2. Bare addresses. -/

theorem splitDots_ne_nil (cs : List Char) : splitDots cs ≠ [] := by
  cases cs with
  | nil => nofun
  | cons c rest =>
    unfold splitDots
    split
    · nofun
    · split <;> nofun

/-- One more character starts a part of its own, if it is a dot, or is put in front of the first. -/
theorem splitDots_cons (c : Char) (rest : List Char) : ∃ part parts, splitDots rest = part :: parts ∧
    splitDots (c :: rest) = if c = '.' then [] :: part :: parts else (c :: part) :: parts := by
  obtain ⟨part, parts, hrest⟩ := List.exists_cons_of_ne_nil (splitDots_ne_nil rest)
  refine ⟨part, parts, hrest, ?_⟩
  rw [splitDots, hrest]
  simp only [beq_iff_eq]

/-- The characters between the dots are those of the parts. -/
theorem mem_splitDots {c : Char} {cs : List Char} (h : c ∈ cs) :
    c = '.' ∨ ∃ part ∈ splitDots cs, c ∈ part := by
  induction cs with
  | nil => cases h
  | cons d rest ih =>
    obtain ⟨part, parts, hrest, hcons⟩ := splitDots_cons d rest
    rw [hrest] at ih
    rw [hcons]
    rcases List.mem_cons.1 h with rfl | hmem
    · by_cases hdot : c = '.'
      · exact .inl hdot
      · rw [if_neg hdot]
        exact .inr ⟨c :: part, List.mem_cons_self, List.mem_cons_self⟩
    · refine (ih hmem).imp_right ?_
      rintro ⟨q, hq, hc⟩
      split
      · exact ⟨q, List.mem_cons_of_mem _ hq, hc⟩
      · rcases List.mem_cons.1 hq with rfl | hq
        · exact ⟨d :: q, List.mem_cons_self, List.mem_cons_of_mem d hc⟩
        · exact ⟨q, List.mem_cons_of_mem _ hq, hc⟩

section

variable {cs : List Char} {c : Char}

theorem visible_iff : visible cs = true ↔
    (∀ c ∈ cs, (Text.classOf c).isVisible = true) ∧ ∀ c ∈ cs.head?, Text.classOf c ≠ .mark := by
  unfold visible
  rw [Bool.and_eq_true, List.all_eq_true, Bool.not_eq_true']
  have hmark : (cs.head?.any fun c => Text.classOf c == .mark) = false ↔
      ∀ c ∈ cs.head?, Text.classOf c ≠ .mark := by
    cases cs with
    | nil => simp
    | cons c rest =>
      rw [List.head?_cons, Option.any_some, beq_eq_false_iff_ne]
      simp
  -- The class is made arbitrary before the cases, lest it be looked up.
  constructor
  · rintro ⟨hclasses, hhead⟩
    refine ⟨?_, hmark.1 hhead⟩
    intro c hc
    have hclass := hclasses c hc
    revert hclass
    generalize Text.classOf c = cls
    cases cls <;> simp [Text.CharacterClass.isVisible]
  · rintro ⟨hclasses, hhead⟩
    refine ⟨?_, hmark.2 hhead⟩
    intro c hc
    have hclass := hclasses c hc
    revert hclass
    generalize Text.classOf c = cls
    cases cls <;> simp [Text.CharacterClass.isVisible]

theorem not_isBlank_of_visible (h : visible cs = true) (hc : c ∈ cs) : Text.isBlank c = false := by
  rw [Bool.eq_false_iff]
  intro hblank
  have hseen := (visible_iff.1 h).1 c hc
  rw [Text.isVisible_of_isBlank hblank] at hseen
  cases hseen

/-- Letters, digits and signs of ASCII are visible. -/
theorem visible_of_ascii (h : ∀ c ∈ cs, 0x20 < c.toNat ∧ c.toNat < 0x7F) : visible cs = true := by
  have hseen : ∀ c ∈ cs, (Text.classOf c).isVisible = true ∧ Text.classOf c ≠ .mark :=
    fun c hc => Text.isVisible_of_ascii (h c hc).1 (h c hc).2
  exact visible_iff.2 ⟨fun c hc => (hseen c hc).1, fun c hc => (hseen c (List.mem_of_head? hc)).2⟩

/-- Neither a blank nor an angle bracket. -/
def Plain (c : Char) : Prop := Text.isBlank c = false ∧ c ≠ '<' ∧ c ≠ '>'

instance (c : Char) : Decidable (Plain c) := inferInstanceAs (Decidable (_ ∧ _ ∧ _))

theorem plain_of_isAtomChar (h : isAtomChar c = true) : Plain c := by
  unfold isAtomChar at h
  rw [Bool.or_eq_true, List.contains_iff_mem] at h
  rcases h with halnum | hsign
  · refine ⟨?_, ?_, ?_⟩
    · have bounds := isAlphanum_iff.1 halnum
      exact Text.isBlank_eq_false (by omega) (by omega)
    · rintro rfl
      cases halnum
    · rintro rfl
      cases halnum
  · exact List.forall_iff_forall_mem.1 (by decide) c hsign

/-- Beyond ASCII, what is visible is plain. -/
theorem plain_of_visible (h : visible cs = true) (hc : c ∈ cs) (hbeyond : 0x80 ≤ c.toNat) :
    Plain c := by
  refine ⟨not_isBlank_of_visible h hc, ?_, ?_⟩
  · rintro rfl
    revert hbeyond
    decide
  · rintro rfl
    revert hbeyond
    decide

theorem plain_of_isLocalPart (h : isLocalPart cs = true) (hc : c ∈ cs) : Plain c := by
  simp only [isLocalPart, Bool.and_eq_true, Bool.or_eq_true, List.all_eq_true,
    decide_eq_true_eq] at h
  obtain ⟨hatoms, hseen⟩ := h
  rcases mem_splitDots hc with rfl | ⟨atom, hatom, hc'⟩
  · decide
  · rcases (hatoms atom hatom).2 c hc' with hatom | hbeyond
    · exact plain_of_isAtomChar hatom
    · have hvisible := hseen.resolve_left fun hascii =>
        absurd (hascii c hc) (Nat.not_lt.2 hbeyond)
      exact plain_of_visible hvisible hc hbeyond

/-- What an acceptable domain name is written with. -/
theorem host_of_asciiForm? {domain : List Char} (h : (asciiForm? domain).isSome = true) :
    domain ≠ [] ∧ (∀ c ∈ domain, isHostChar c = true) ∧ visible domain = true := by
  unfold asciiForm? at h
  split at h
  · cases h
  · rename_i hgood
    simp only [Bool.or_eq_true, Bool.not_eq_true', not_or, Bool.not_eq_false, List.all_eq_true,
      List.isEmpty_iff] at hgood
    exact ⟨hgood.1.1, hgood.1.2, hgood.2⟩

theorem plain_of_asciiForm? {domain : List Char} (h : (asciiForm? domain).isSome = true)
    (hc : c ∈ domain) : Plain c := by
  obtain ⟨-, hhost, hvisible⟩ := host_of_asciiForm? h
  refine ⟨not_isBlank_of_visible hvisible hc, ?_, ?_⟩
  · rintro rfl
    exact absurd (hhost _ hc) (by decide)
  · rintro rfl
    exact absurd (hhost _ hc) (by decide)

/-- A bare address has a local part and a domain. -/
theorem exists_parts {text : String} (h : isBareAddress text = true) : ∃ localPart domain,
    text.toList = localPart ++ '@' :: domain ∧ isLocalPart localPart = true ∧
      (asciiForm? domain).isSome = true := by
  unfold isBareAddress at h
  simp only [Bool.and_eq_true] at h
  obtain ⟨hlocal, hdomain⟩ := h
  have hform : (asciiForm? ((text.toList.dropWhile (· != '@')).drop 1)).isSome = true := by
    cases hform : asciiForm? ((text.toList.dropWhile (· != '@')).drop 1) with
    | none =>
      rw [hform] at hdomain
      cases hdomain
    | some form => rfl
  refine ⟨_, _, ?_, hlocal, hform⟩
  cases hrest : text.toList.dropWhile (· != '@') with
  | nil =>
    rw [hrest] at hform
    exact absurd rfl (host_of_asciiForm? hform).1
  | cons c rest =>
    obtain rfl : c = '@' := by
      have hhead := List.head?_dropWhile_not (· != '@') text.toList
      simpa [hrest] using hhead
    rw [List.drop_one, List.tail_cons, ← hrest, List.takeWhile_append_dropWhile]

/-- **A bare address** holds neither blanks nor angle brackets. -/
theorem plain_of_isBareAddress {text : String} (h : isBareAddress text = true) :
    ∀ c ∈ text.toList, Plain c := by
  obtain ⟨localPart, domain, htext, hlocal, hdomain⟩ := exists_parts h
  intro c hc
  rw [htext, List.mem_append, List.mem_cons] at hc
  rcases hc with hc | rfl | hc
  · exact plain_of_isLocalPart hlocal hc
  · decide
  · exact plain_of_asciiForm? hdomain hc

end

/-! ## §3. Addresses with something around them. -/

/-- An address with spaces around it, or in the angle brackets of the display form. -/
inductive Dressed : List Char → List Char → Prop where
  | spaced {before address after : List Char} : (∀ c ∈ before, c = ' ') → (∀ c ∈ after, c = ' ') →
      Dressed (before ++ (address ++ after)) address
  | bracketed {name before address after blanks : List Char} : (∀ c ∈ before, c = ' ') →
      (∀ c ∈ after, c = ' ') → (∀ c ∈ blanks, Text.isBlank c = true) →
      Dressed (name ++ '<' :: (before ++ (address ++ after) ++ '>' :: blanks)) address

theorem shownAddress_eq (text : String) : shownAddress text =
    String.ofList (Text.trimBy (· == ' ') (((displayPattern.matchAll? text).bind fun s =>
      s.capturedText? 3 text).getD text).toList) := by
  unfold shownAddress
  rw [displayForm_eq]

/-- What a text shows stands in it, either between spaces or in the brackets of the display form. -/
theorem dressed_shownAddress (text : String) : Dressed text.toList (shownAddress text).toList := by
  have space : ∀ c, (c == ' ') = true → c = ' ' := fun c hc => eq_of_beq hc
  rw [shownAddress_eq, String.toList_ofList]
  cases hmatch : displayPattern.matchAll? text with
  | none =>
    obtain ⟨before, after, htext, hbefore, hafter⟩ := Text.exists_trimBy (· == ' ') text.toList
    have hdressed : Dressed (before ++ (Text.trimBy (· == ' ') text.toList ++ after))
        (Text.trimBy (· == ' ') text.toList) :=
      .spaced (fun c hc => space c (hbefore c hc)) fun c hc => space c (hafter c hc)
    rw [← htext] at hdressed
    exact hdressed
  | some r =>
    obtain ⟨name, inner, blanks, htext, hblanks, hinner⟩ := displayForm_sound hmatch
    obtain ⟨before, after, hsplit, hbefore, hafter⟩ := Text.exists_trimBy (· == ' ') inner
    have hdressed : Dressed (name ++ '<' :: (before ++ (Text.trimBy (· == ' ') inner ++ after) ++
        '>' :: blanks)) (Text.trimBy (· == ' ') inner) :=
      .bracketed (fun c hc => space c (hbefore c hc)) (fun c hc => space c (hafter c hc)) hblanks
    rw [← hsplit, ← htext] at hdressed
    simpa [hinner] using hdressed

/-- A text without an opening bracket is not in the display form. -/
theorem shownAddress_of_unbracketed {text : String} (h : '<' ∉ text.toList) :
    shownAddress text = String.ofList (Text.trimBy (· == ' ') text.toList) := by
  have hnone : displayPattern.matchAll? text = none := by
    rw [Option.eq_none_iff_forall_ne_some]
    intro r hr
    obtain ⟨name, inner, after, htext, -, -⟩ := displayForm_sound hr
    rw [htext] at h
    exact h (by simp)
  rw [shownAddress_eq, hnone]
  rfl

/-- What is shown is the text itself, if there is no bracket in it and no space at its ends. -/
theorem shownAddress_eq_self {text : String} (hbracket : '<' ∉ text.toList)
    (hstart : text.toList.head? ≠ some ' ') (hend : text.toList.getLast? ≠ some ' ') :
    shownAddress text = text := by
  rw [shownAddress_of_unbracketed hbracket, Text.trimBy_eq_self, String.ofList_toList]
  · rintro c hc
    rw [beq_eq_false_iff_ne]
    rintro rfl
    exact hstart hc
  · rintro c hc
    rw [beq_eq_false_iff_ne]
    rintro rfl
    exact hend hc

end PromptForms.Email

namespace PromptForms

open Intake Email

/-! ## §4. Fields for email addresses. -/

section

variable {f : Field} {s : String} {v : Value}

theorem Intake.readText_email (htype : f.type = .email) : readText f (.str s) = .ok v ↔
    isAddress s = true ∧ checkText f s = .ok () ∧ v = .text s := by
  unfold readText
  simp only [htype, textOf?]
  cases isAddress s with
  | false => simp [reject, bind, Except.bind]
  | true =>
    cases checkText f s with
    | error e => simp [bind, Except.bind]
    | ok u => simp [bind, Except.bind, pure, Except.pure, eq_comm]

/-- An email field keeps a text that shows an address, if that passes the rules of the field. -/
theorem Field.read_email (htype : f.type = .email) :
    f.read (.str s) = .ok (some v) ↔ isEmpty (.str s) = false ∧ isAddress s = true ∧
      checkText f s = .ok () ∧ v = .text s := by
  cases hempty : isEmpty (.str s) with
  | true =>
    rw [read_of_isEmpty hempty]
    cases f.required <;> simp
  | false =>
    unfold Field.read
    simp only [hempty, htype, Bool.false_eq_true, if_false, true_and, map_some_eq_ok,
      readText_email htype]

end

namespace Mailboxes

/-- A field for an email address. -/
def contact : Field := { id := "contact", type := .email, label := "Contact" }

/-- An address. -/
def ann : String := "ann@example.com"

theorem isBareAddress_ann : isBareAddress ann = true := by
  have hvisible : visible "example.com".toList = true :=
    visible_of_ascii (List.forall_iff_forall_mem.1 (by decide))
  have hform : asciiForm? "example.com".toList = some "example.com".toList := by
    unfold asciiForm?
    rw [hvisible]
    decide +kernel
  have hdomain : (ann.toList.dropWhile (· != '@')).drop 1 = "example.com".toList := by decide
  unfold isBareAddress
  simp only [hdomain, hform]
  decide +kernel

theorem isAddress_of_shown {s : String} (hshort : s.length ≤ maxTextLength)
    (h : shownAddress s = ann) : isAddress s = true := by
  unfold isAddress
  rw [h, isBareAddress_ann]
  simpa using hshort

end Mailboxes

end PromptForms
