/-
  PromptForms.Proofs.Documents
  ────────────────────────────
  **WHAT IS WRITTEN CAN BE READ AGAIN.**

  Checks are lenient, and what they find is written in one way only.  A check restores a
  way of writing if it finds again in the written document what it has found in any
  document.  Scalars, lists and optional members do, so do the parts of a form and of a
  pipeline that are stored as documents, and every check accepts the defaults.

      Restores        the property
      stored lists    what a row keeps for a list of fields, steps or values

  Main results:
    • restores_step, restores_field, restores_value     one lemma per kind of document
    • checkElements_map                                  a stored list is read as it was
-/
import Mathlib.Data.List.Forall2
import PromptForms.Proofs.Dates
import PromptForms.Store.Row

namespace PromptForms

open Schema

/-! ## §1. Checks that succeed. -/

theorem exists_of_bind_eq_ok {ε α β : Type} {outcome : Except ε α} {f : α → Except ε β} {b : β}
    (h : outcome >>= f = .ok b) : ∃ a, outcome = .ok a ∧ f a = .ok b := by
  cases outcome with
  | error e => cases h
  | ok a => exact ⟨a, rfl, h⟩

/-- A list of checks succeeds if each of them does, and finds what each of them finds. -/
theorem mapM_eq_ok {α β ε : Type} {f : α → Except ε β} {items : List α} {found : List β} :
    items.mapM f = .ok found ↔ List.Forall₂ (fun a b => f a = .ok b) items found := by
  induction items generalizing found with
  | nil =>
    rw [List.mapM_nil, List.forall₂_nil_left_iff]
    exact ⟨fun h => by cases h; rfl, fun h => by rw [h]; rfl⟩
  | cons a rest ih =>
    rw [List.mapM_cons, List.forall₂_cons_left_iff]
    constructor
    · intro h
      cases hfirst : f a with
      | error e =>
        rw [hfirst] at h
        cases h
      | ok b =>
        cases hrest : rest.mapM f with
        | error e =>
          rw [hfirst, hrest] at h
          cases h
        | ok found' =>
          rw [hfirst, hrest] at h
          cases h
          exact ⟨b, found', rfl, ih.1 hrest, rfl⟩
    · rintro ⟨b, found', hfirst, hrest, rfl⟩
      rw [hfirst, ih.2 hrest]
      rfl

/-- Whatever a list of checks has found, one of them has found. -/
theorem exists_of_mem_mapM {α β ε : Type} {f : α → Except ε β} {items : List α} {found : List β}
    (h : items.mapM f = .ok found) {b : β} (hb : b ∈ found) : ∃ a, f a = .ok b := by
  induction mapM_eq_ok.1 h with
  | nil => cases hb
  | cons hfirst hrest ih =>
    rcases List.mem_cons.1 hb with rfl | hlater
    · exact ⟨_, hfirst⟩
    · exact ih (mapM_eq_ok.2 hrest) hlater

/-- A list of checks succeeds exactly if each of them does. -/
theorem exists_mapM_eq_ok {α β ε : Type} {f : α → Except ε β} {items : List α} :
    (∃ found, items.mapM f = .ok found) ↔ ∀ a ∈ items, ∃ b, f a = .ok b := by
  simp only [mapM_eq_ok]
  induction items with
  | nil => simp
  | cons a rest ih => simp [List.forall₂_cons_left_iff, ← ih]

/-- The first of the items with a property. -/
def IsFirst {α : Type} (p : α → Prop) (items : List α) (a : α) : Prop :=
  ∃ before after, items = before ++ a :: after ∧ p a ∧ ∀ b ∈ before, ¬p b

/-- A list of checks fails as the first of them that fails. -/
theorem mapM_eq_error_iff {α β ε : Type} {f : α → Except ε β} {items : List α} {e : ε} :
    items.mapM f = .error e ↔ ∃ a, IsFirst (fun a => ∃ e, f a = .error e) items a ∧ f a = .error e := by
  induction items with
  | nil =>
    constructor
    · rintro ⟨⟩
    · rintro ⟨a, ⟨before, after, hitems, -⟩, -⟩
      simp at hitems
  | cons first rest ih =>
    rw [List.mapM_cons]
    cases hfirst : f first with
    | error e' =>
      show Except.error e' = Except.error e ↔ _
      rw [Except.error.injEq]
      constructor
      · rintro rfl
        exact ⟨first, ⟨[], rest, rfl, ⟨e', hfirst⟩, by simp⟩, hfirst⟩
      · rintro ⟨a, ⟨before, after, hitems, -, hbefore⟩, ha⟩
        cases before with
        | nil =>
          obtain rfl : first = a := (List.cons.inj hitems).1
          exact Except.error.inj (hfirst.symm.trans ha)
        | cons b before =>
          obtain rfl : first = b := (List.cons.inj hitems).1
          exact absurd ⟨e', hfirst⟩ (hbefore first List.mem_cons_self)
    | ok b =>
      -- The rest decides.
      have hrest : (do let bs ← rest.mapM f; pure (b :: bs)) = Except.error e ↔ rest.mapM f = .error e := by
        cases rest.mapM f <;> simp [bind, Except.bind, pure, Except.pure]
      show (do let bs ← rest.mapM f; pure (b :: bs)) = Except.error e ↔ _
      rw [hrest, ih]
      constructor
      · rintro ⟨a, ⟨before, after, rfl, ha, hbefore⟩, he⟩
        refine ⟨a, ⟨first :: before, after, rfl, ha, ?_⟩, he⟩
        rintro c hc ⟨e', he'⟩
        rcases List.mem_cons.1 hc with rfl | hc
        · rw [hfirst] at he'
          cases he'
        · exact hbefore c hc ⟨e', he'⟩
      · rintro ⟨a, ⟨before, after, hitems, ha, hbefore⟩, he⟩
        cases before with
        | nil =>
          obtain rfl : first = a := (List.cons.inj hitems).1
          rw [hfirst] at he
          cases he
        | cons c before =>
          obtain ⟨rfl, rfl⟩ := List.cons.inj hitems
          exact ⟨a, ⟨before, after, rfl, ha, fun d hd => hbefore d (List.mem_cons_of_mem _ hd)⟩, he⟩

theorem IsFirst.mem {α : Type} {p : α → Prop} {items : List α} {a : α} (h : IsFirst p items a) :
    a ∈ items := by
  obtain ⟨before, after, rfl, -⟩ := h
  simp

/-- Two checks that fail alike on every item fail alike on a list. -/
theorem mapM_eq_error_congr {α β γ ε : Type} {f : α → Except ε β} {g : α → Except ε γ}
    {items : List α} (h : ∀ a ∈ items, ∀ e, f a = .error e ↔ g a = .error e) {e : ε} :
    items.mapM f = .error e ↔ items.mapM g = .error e := by
  have hfails : ∀ a ∈ items, (∃ e, f a = .error e) ↔ ∃ e, g a = .error e :=
    fun a ha => exists_congr fun e => h a ha e
  rw [mapM_eq_error_iff, mapM_eq_error_iff]
  constructor
  · rintro ⟨a, hfirst, ha⟩
    have hmem := hfirst.mem
    obtain ⟨before, after, rfl, hthere, hbefore⟩ := hfirst
    refine ⟨a, ⟨before, after, rfl, (hfails a hmem).1 hthere, ?_⟩, (h a hmem e).1 ha⟩
    exact fun b hb hfail => hbefore b hb ((hfails b (List.mem_append_left _ hb)).2 hfail)
  · rintro ⟨a, hfirst, ha⟩
    have hmem := hfirst.mem
    obtain ⟨before, after, rfl, hthere, hbefore⟩ := hfirst
    refine ⟨a, ⟨before, after, rfl, (hfails a hmem).2 hthere, ?_⟩, (h a hmem e).2 ha⟩
    exact fun b hb hfail => hbefore b hb ((hfails b (List.mem_append_left _ hb)).1 hfail)

/-- A list of checks that can fail in one way only fails in this way if one of them does. -/
theorem mapM_eq_error {α β ε : Type} {f : α → Except ε β} {items : List α} {e : ε}
    (h : ∀ a ∈ items, (∃ b, f a = .ok b) ∨ f a = .error e) (hex : ∃ a ∈ items, f a = .error e) :
    items.mapM f = .error e := by
  induction items with
  | nil =>
    obtain ⟨_, ha, -⟩ := hex
    cases ha
  | cons first rest ih =>
    rw [List.mapM_cons]
    rcases h first List.mem_cons_self with ⟨b, hb⟩ | hfirst
    · rw [hb, ih fun a ha => h a (List.mem_cons_of_mem _ ha)]
      · rfl
      · obtain ⟨a, ha, he⟩ := hex
        rcases List.mem_cons.1 ha with rfl | hlater
        · rw [hb] at he
          cases he
        · exact ⟨a, hlater, he⟩
    · rw [hfirst]
      rfl

namespace Schema.Checked

variable {α β : Type}

theorem map_eq_good {f : α → β} {x : Checked α} {b : β} :
    f <$> x = .good b ↔ ∃ a, x = .good a ∧ f a = b := by
  cases x with
  | good a =>
    constructor
    · intro h
      cases h
      exact ⟨a, rfl, rfl⟩
    · rintro ⟨_, ⟨⟩, rfl⟩
      rfl
  | bad first more =>
    constructor
    · intro h
      cases h
    · rintro ⟨_, ⟨⟩, _⟩

theorem seq_eq_good {f : Checked (α → β)} {x : Checked α} {b : β} :
    f <*> x = .good b ↔ ∃ g a, f = .good g ∧ x = .good a ∧ g a = b := by
  cases f with
  | good g =>
    cases x with
    | good a =>
      constructor
      · intro h
        cases h
        exact ⟨g, a, rfl, rfl, rfl⟩
      · rintro ⟨_, _, ⟨⟩, ⟨⟩, rfl⟩
        rfl
    | bad first more =>
      constructor
      · intro h
        cases h
      · rintro ⟨_, _, _, ⟨⟩, _⟩
  | bad first more =>
    constructor
    · intro h
      cases x <;> cases h
    · rintro ⟨_, _, ⟨⟩, _⟩

theorem andThen_eq_good {x : Checked α} {f : α → Checked β} {b : β} :
    x.andThen f = .good b ↔ ∃ a, x = .good a ∧ f a = .good b := by
  cases x with
  | good a =>
    constructor
    · intro h
      exact ⟨a, rfl, h⟩
    · rintro ⟨_, ⟨⟩, h⟩
      exact h
  | bad first more =>
    constructor
    · intro h
      cases h
    · rintro ⟨_, ⟨⟩, _⟩

theorem under_eq_good {step : String} {x : Checked α} {a : α} :
    x.under step = .good a ↔ x = .good a := by
  cases x with
  | good b => exact Iff.rfl
  | bad first more =>
    constructor
    · intro h
      cases h
    · intro h
      cases h

theorem ensure_eq_good {test : α → Bool} {f : α → Fault} {a b : α} :
    ensure test f a = .good b ↔ test a = true ∧ a = b := by
  unfold ensure
  by_cases h : test a = true
  · rw [if_pos h]
    constructor
    · intro hb
      cases hb
      exact ⟨h, rfl⟩
    · rintro ⟨_, rfl⟩
      rfl
  · rw [if_neg h]
    constructor
    · intro hb
      cases hb
    · rintro ⟨htest, _⟩
      exact absurd htest h

theorem orFail_eq_ok {x : Checked α} {a : α} : x.orFail = .ok a ↔ x = .good a := by
  cases x with
  | good b =>
    constructor
    · intro h
      cases h
      rfl
    · intro h
      cases h
      rfl
  | bad first more =>
    constructor
    · intro h
      cases h
    · intro h
      cases h

end Schema.Checked

open Checked

/-! ## §2. Checks that restore what is written. -/

variable {α β : Type}

/-- What the check finds in any document, it finds again in the document that is written for it. -/
def Restores (check : Json → Checked α) (write : α → Json) : Prop :=
  ∀ document a, check document = .good a → check (write a) = .good a

/-- Checks that take texts only, and take them as they are. -/
def KeepsTexts (check : Json → Checked String) : Prop :=
  ∀ document s, check document = .good s → document = .str s

theorem KeepsTexts.restores {check : Json → Checked String} (h : KeepsTexts check) :
    Restores check .str := by
  intro document s hs
  rw [← h document s hs]
  exact hs

theorem keepsTexts_text : KeepsTexts text := by
  intro document s h
  cases document with
  | str t =>
    cases h
    rfl
  | null | bool | int | real | arr | obj => cases h

/-- A text that has to pass a further test. -/
theorem KeepsTexts.andThen {check : Json → Checked String} {f : String → Checked String}
    (h : KeepsTexts check) (hf : ∀ s t, f s = .good t → t = s) :
    KeepsTexts fun value => (check value).andThen f := by
  intro document t ht
  obtain ⟨s, hs, hst⟩ := andThen_eq_good.1 ht
  rw [hf s t hst]
  exact h document s hs

theorem keepsTexts_boundedText (least : Nat) (greatest : Option Nat) :
    KeepsTexts (boundedText least greatest) := by
  apply keepsTexts_text.andThen
  intro s t h
  split at h
  · cases h
  · split at h
    · split at h
      · cases h
      · cases h
        rfl
    · cases h
      rfl

theorem KeepsTexts.ensure {check : Json → Checked String} (h : KeepsTexts check)
    (test : String → Bool) (f : String → Fault) :
    KeepsTexts fun value => (check value).andThen (Checked.ensure test f) :=
  h.andThen fun _ _ ht => (ensure_eq_good.1 ht).2.symm

theorem restores_text : Restores text .str := keepsTexts_text.restores

theorem restores_bool : Restores bool .bool := fun _ _ _ => rfl

theorem restores_int : Restores int .int := fun _ _ _ => rfl

theorem restores_real : Restores real .real := fun _ _ _ => rfl

/-- Null stands for nothing, and nothing that is written is null. -/
theorem Restores.orNull {check : Json → Checked α} {write : α → Json} (h : Restores check write)
    (hwrite : ∀ a, write a ≠ .null) : Restores (orNull check) (.ofOption write) := by
  have given (value : Json) (hvalue : value ≠ .null) :
      Schema.orNull check value = (check value).map some := by
    cases value with
    | null => exact absurd rfl hvalue
    | bool | int | real | str | arr | obj => rfl
  intro document a ha
  cases a with
  | none => rfl
  | some a =>
    by_cases hnull : document = .null
    · rw [hnull] at ha
      cases ha
    · rw [given document hnull] at ha
      obtain ⟨b, hb, hab⟩ := map_eq_good.1 ha
      cases hab
      show Schema.orNull check (write a) = .good (some a)
      rw [given (write a) (hwrite a), h document a hb]
      rfl

theorem allFrom_map_eq_good {check : Json → Checked α} {write : α → Json} (start : Nat)
    {items : List α} (h : ∀ a ∈ items, check (write a) = .good a) :
    allFrom check start (items.map write) = .good items := by
  induction items generalizing start with
  | nil => rfl
  | cons a rest ih =>
    have hrest := ih (start + 1) fun b hb => h b (List.mem_cons_of_mem a hb)
    rw [List.map_cons, allFrom, h a List.mem_cons_self, hrest]
    rfl

/-- A list is read if each of its items is. -/
theorem allFrom_eq_good {check : Json → Checked α} {start : Nat} {documents : List Json}
    {items : List α} : allFrom check start documents = .good items ↔
      List.Forall₂ (fun document a => check document = .good a) documents items := by
  induction documents generalizing start items with
  | nil =>
    rw [List.forall₂_nil_left_iff]
    exact ⟨fun h => by cases h; rfl, fun h => by rw [h]; rfl⟩
  | cons document rest ih =>
    rw [allFrom, List.forall₂_cons_left_iff, seq_eq_good]
    constructor
    · rintro ⟨g, more, hg, hmore, rfl⟩
      obtain ⟨a, ha, rfl⟩ := map_eq_good.1 hg
      exact ⟨a, more, under_eq_good.1 ha, ih.1 hmore, rfl⟩
    · rintro ⟨a, more, ha, hmore, rfl⟩
      exact ⟨_, more, map_eq_good.2 ⟨a, under_eq_good.2 ha, rfl⟩, ih.2 hmore, rfl⟩

theorem exists_allFrom_eq_good {check : Json → Checked α} {start : Nat} {documents : List Json} :
    (∃ items, allFrom check start documents = .good items) ↔
      ∀ document ∈ documents, ∃ a, check document = .good a := by
  simp only [allFrom_eq_good]
  induction documents with
  | nil => simp
  | cons document rest ih => simp [List.forall₂_cons_left_iff, ← ih]

/-- Every item of a list that has been read comes from one of the documents. -/
theorem exists_of_mem_allFrom {check : Json → Checked α} {start : Nat} {documents : List Json}
    {items : List α} (h : allFrom check start documents = .good items) {a : α} (ha : a ∈ items) :
    ∃ document ∈ documents, check document = .good a := by
  have hall := allFrom_eq_good.1 h
  clear h
  induction hall with
  | nil => cases ha
  | cons hfirst hrest ih =>
    rcases List.mem_cons.1 ha with rfl | hlater
    · exact ⟨_, List.mem_cons_self, hfirst⟩
    · obtain ⟨document, hdocument, hcheck⟩ := ih hlater
      exact ⟨document, List.mem_cons_of_mem _ hdocument, hcheck⟩

theorem exists_of_mem_listOf {check : Json → Checked α} {document : Json} {items : List α}
    (h : listOf check document = .good items) {a : α} (ha : a ∈ items) :
    ∃ item, check item = .good a := by
  cases document with
  | arr documents =>
    obtain ⟨item, -, hitem⟩ := exists_of_mem_allFrom h ha
    exact ⟨item, hitem⟩
  | null | bool | int | real | str | obj => cases h

theorem Restores.listOf {check : Json → Checked α} {write : α → Json} (h : Restores check write) :
    Restores (listOf check) fun items => .arr (items.map write) := by
  intro document items hitems
  apply allFrom_map_eq_good
  intro a ha
  obtain ⟨item, hitem⟩ := exists_of_mem_listOf hitems ha
  exact h item a hitem

theorem restores_texts : Restores (listOf text) .texts := restores_text.listOf

/-- One of a few texts, if no two of them mean the same. -/
theorem restores_oneOf {choices : List (String × α)} {write : α → String}
    (h : ∀ pair ∈ choices, choices.lookup (write pair.2) = some pair.2) :
    Restores (oneOf choices) fun a => .str (write a) := by
  intro document a ha
  cases document with
  | str s =>
    have found : choices.lookup s = some a := by
      unfold oneOf at ha
      dsimp only at ha
      split at ha
      · rename_i b hb
        cases ha
        exact hb
      · cases ha
    obtain ⟨pair, hpair, hvalue⟩ : ∃ pair ∈ choices, pair.2 = a := by
      obtain ⟨before, after, hsplit, -⟩ := List.lookup_eq_some_iff.1 found
      exact ⟨(s, a), by rw [hsplit]; simp, rfl⟩
    have written := h pair hpair
    rw [hvalue] at written
    unfold oneOf
    simp only [written]
  | null | bool | int | real | arr | obj => cases ha

/-- A text within bounds. -/
theorem boundedText_eq_good {least most : Nat} {s t : String} :
    boundedText least (some most) (.str s) = .good t ↔
      s = t ∧ least ≤ s.length ∧ s.length ≤ most := by
  unfold boundedText
  rw [andThen_eq_good]
  constructor
  · rintro ⟨_, ⟨⟩, h⟩
    split at h
    · cases h
    · dsimp only at h
      split at h <;> cases h
      exact ⟨rfl, by omega, by omega⟩
  · rintro ⟨rfl, hleast, hmost⟩
    refine ⟨s, rfl, ?_⟩
    rw [if_neg (by omega)]
    exact if_neg (by omega)

/-- A value that is there passes the check. -/
theorem of_orNull_eq_some {check : Json → Checked α} {v : Json} {a : α}
    (h : orNull check v = .good (some a)) : check v = .good a := by
  cases v with
  | null => cases h
  | bool | int | real | str | arr | obj =>
    obtain ⟨_, hcheck, ⟨⟩⟩ := map_eq_good.1 h
    exact hcheck

/-! ## §3. Records. -/

theorem record_eq_good {document : Json} {m : Members} :
    record document = .good m ↔ document = .obj m := by
  cases document with
  | obj members =>
    constructor
    · intro h
      cases h
      rfl
    · intro h
      cases h
      rfl
  | null | bool | int | real | str | arr =>
    constructor
    · intro h
      cases h
    · intro h
      cases h

section

variable {m m' : Members} {name : String} {check : Json → Checked α} {write : α → Json} {a : α}

theorem required_eq_good :
    m.required name check = .good a ↔ ∃ v, m.lookup name = some v ∧ check v = .good a := by
  unfold Members.required
  cases hv : m.lookup name with
  | none => simp [Checked.fault, Checked.under]
  | some v => simp [under_eq_good]

theorem optional_eq_good {default : α} :
    m.optional name default check = .good a ↔
      m.lookup name = none ∧ default = a ∨ ∃ v, m.lookup name = some v ∧ check v = .good a := by
  unfold Members.optional
  cases hv : m.lookup name with
  | none => simp
  | some v => simp [under_eq_good]

/-- A member that has been read is read again from what is written for it. -/
theorem Restores.required (h : Restores check write) (ha : m.required name check = .good a)
    (hm : m'.lookup name = some (write a)) : m'.required name check = .good a := by
  obtain ⟨v, -, hv⟩ := required_eq_good.1 ha
  exact required_eq_good.2 ⟨write a, hm, h v a hv⟩

/-- The same for a member whose default passes its own check. -/
theorem Restores.optional {default : α} (h : Restores check write)
    (hdefault : check (write default) = .good default)
    (ha : m.optional name default check = .good a) (hm : m'.lookup name = some (write a)) :
    m'.optional name default check = .good a := by
  apply optional_eq_good.2
  right
  refine ⟨write a, hm, ?_⟩
  rcases optional_eq_good.1 ha with ⟨-, rfl⟩ | ⟨v, -, hv⟩
  · exact hdefault
  · exact h v a hv

/-- The same for a member that may be null or absent. -/
theorem Restores.nullable {a : Option α} (h : Restores check write) (hwrite : ∀ a, write a ≠ .null)
    (ha : m.nullable name check = .good a) (hm : m'.lookup name = some (.ofOption write a)) :
    m'.nullable name check = .good a :=
  (h.orNull hwrite).optional rfl ha hm

end

/-! ## §4. Steps. -/

theorem keepsTexts_visibleText (greatest : Option Nat) : KeepsTexts (Step.visibleText greatest) :=
  (keepsTexts_boundedText 1 greatest).ensure _ _

/-- A number of a step: one that is too small is not read. -/
theorem restores_stepNumber :
    Restores (fun v => (intFrom 1 v).map Int.toNat) fun n => .int (n : Nat) := by
  intro document n hn
  obtain ⟨i, hi, rfl⟩ := map_eq_good.1 hn
  obtain ⟨j, -, hij⟩ := andThen_eq_good.1 hi
  obtain ⟨hleast, rfl⟩ := ensure_eq_good.1 hij
  have least : (1 : Int) ≤ j := of_decide_eq_true hleast
  show (intFrom 1 (.int (j.toNat : Nat))).map Int.toNat = .good j.toNat
  rw [Int.toNat_of_nonneg (by omega)]
  have again : intFrom 1 (.int j) = .good j :=
    andThen_eq_good.2 ⟨j, rfl, ensure_eq_good.2 ⟨hleast, rfl⟩⟩
  rw [again]
  rfl

theorem restores_step : Restores Step.check Step.toJson := by
  intro document s hs
  obtain ⟨m, -, h5⟩ := andThen_eq_good.1 hs
  obtain ⟨_, model, h4, hmodel, rfl⟩ := seq_eq_good.1 h5
  obtain ⟨_, description, h3, hdescription, rfl⟩ := seq_eq_good.1 h4
  obtain ⟨_, prompt, h2, hprompt, rfl⟩ := seq_eq_good.1 h3
  obtain ⟨_, name, h1, hname, rfl⟩ := seq_eq_good.1 h2
  obtain ⟨number, hnumber, rfl⟩ := map_eq_good.1 h1
  apply andThen_eq_good.2
  refine ⟨_, rfl, ?_⟩
  rw [restores_stepNumber.required hnumber rfl,
    (keepsTexts_visibleText _).restores.required hname rfl,
    (keepsTexts_visibleText _).restores.required hprompt rfl,
    restores_text.nullable (fun _ => nofun) hdescription rfl,
    restores_text.nullable (fun _ => nofun) hmodel rfl]
  rfl

/-- The steps of a pipeline are read and then put in order. -/
theorem checkSteps_eq_good {document : Json} {ordered : List Step} :
    checkSteps document = .good ordered ↔
      ∃ listed, listOf Step.check document = .good listed ∧ checkDense listed = .ok ordered := by
  unfold checkSteps
  rw [andThen_eq_good]
  refine exists_congr fun listed => and_congr_right fun _ => ?_
  cases checkDense listed <;> simp [Checked.fault]

/-- **A draft of a pipeline** is found exactly if each of its parts is. -/
theorem PipelineDraft.check_eq_good {document : Json} {draft : PipelineDraft} :
    PipelineDraft.check document = .good draft ↔ ∃ m : Members, document = .obj m ∧
      m.optional "name" "Pipeline" (boundedText 1 (some 200)) = .good draft.name ∧
      m.optional "is_active" true bool = .good draft.isActive ∧
      m.optional "steps" [] checkSteps = .good draft.steps := by
  unfold PipelineDraft.check
  rw [andThen_eq_good]
  refine exists_congr fun m => and_congr record_eq_good ⟨fun h => ?_, fun h => ?_⟩
  · obtain ⟨_, steps, h2, hsteps, rfl⟩ := seq_eq_good.1 h
    obtain ⟨_, isActive, h1, hactive, rfl⟩ := seq_eq_good.1 h2
    obtain ⟨name, hname, rfl⟩ := map_eq_good.1 h1
    exact ⟨hname, hactive, hsteps⟩
  · obtain ⟨hname, hactive, hsteps⟩ := h
    rw [hname, hactive, hsteps]
    rfl

/-! ## §5. Fields. -/

theorem restores_fieldType : Restores FieldType.check fun t => .str t.name :=
  restores_oneOf (by decide)

theorem keepsTexts_checkId : KeepsTexts Field.checkId :=
  (keepsTexts_boundedText 1 (some 100)).ensure _ _

theorem keepsTexts_checkPattern : KeepsTexts Rules.checkPattern := by
  apply keepsTexts_text.andThen
  intro p q h
  split at h
  · cases h
    rfl
  · cases h
  · cases h

theorem restores_rules : Restores Rules.check Rules.toJson := by
  intro document r hr
  obtain ⟨m, -, h4⟩ := andThen_eq_good.1 hr
  obtain ⟨_, message, h3, hmessage, rfl⟩ := seq_eq_good.1 h4
  obtain ⟨_, pattern, h2, hpattern, rfl⟩ := seq_eq_good.1 h3
  obtain ⟨_, greatest, h1, hgreatest, rfl⟩ := seq_eq_good.1 h2
  obtain ⟨least, hleast, rfl⟩ := map_eq_good.1 h1
  apply andThen_eq_good.2
  refine ⟨_, rfl, ?_⟩
  rw [restores_real.nullable (fun _ => nofun) hleast rfl,
    restores_real.nullable (fun _ => nofun) hgreatest rfl,
    keepsTexts_checkPattern.restores.nullable (fun _ => nofun) hpattern rfl,
    restores_text.nullable (fun _ => nofun) hmessage rfl]
  rfl

/-- The check of the options looks at the field only, and leaves it as it is. -/
theorem checkOptions_eq_good {f g : Field} (h : f.checkOptions = .good g) : g = f := by
  unfold Field.checkOptions at h
  split at h
  · split at h
    · cases h
    · split at h
      · cases h
        rfl
      · cases h
  · cases h
    rfl

theorem restores_field : Restores Field.check Field.toJson := by
  intro document f hf
  obtain ⟨m, -, hf⟩ := andThen_eq_good.1 hf
  obtain ⟨g, h9, hoptions⟩ := andThen_eq_good.1 hf
  obtain rfl := checkOptions_eq_good hoptions
  obtain ⟨_, order, h8, horder, rfl⟩ := seq_eq_good.1 h9
  obtain ⟨_, rules, h7, hrules, rfl⟩ := seq_eq_good.1 h8
  obtain ⟨_, options, h6, hchoices, rfl⟩ := seq_eq_good.1 h7
  obtain ⟨_, helpText, h5, hhelpText, rfl⟩ := seq_eq_good.1 h6
  obtain ⟨_, placeholder, h4, hplaceholder, rfl⟩ := seq_eq_good.1 h5
  obtain ⟨_, required, h3, hrequired, rfl⟩ := seq_eq_good.1 h4
  obtain ⟨_, label, h2, hlabel, rfl⟩ := seq_eq_good.1 h3
  obtain ⟨_, type, h1, htype, rfl⟩ := seq_eq_good.1 h2
  obtain ⟨id, hid, rfl⟩ := map_eq_good.1 h1
  apply andThen_eq_good.2
  refine ⟨_, rfl, andThen_eq_good.2 ⟨_, ?_, hoptions⟩⟩
  rw [keepsTexts_checkId.restores.required hid rfl,
    restores_fieldType.required htype rfl,
    (keepsTexts_boundedText 1 (some 300)).restores.required hlabel rfl,
    restores_bool.optional rfl hrequired rfl,
    restores_text.nullable (fun _ => nofun) hplaceholder rfl,
    restores_text.nullable (fun _ => nofun) hhelpText rfl,
    restores_texts.nullable (fun _ => nofun) hchoices rfl,
    restores_rules.nullable (fun _ => nofun) hrules rfl,
    restores_int.optional rfl horder rfl]
  rfl

/-! ## §6. Values. -/

/-- A tagged document is read by the reader of its kind. -/
theorem check_eq_good_of_kind {m : Members} {kind : String} {read : Members → Checked Value}
    {v : Value} (hkind : m.lookup "kind" = some (.str kind))
    (hreader : Value.readers.lookup kind = some read) (hread : read m = .good v) :
    Value.check (.obj m) = .good v := by
  unfold Value.check
  apply andThen_eq_good.2
  refine ⟨m, rfl, ?_⟩
  simp only [hkind, hreader, hread]
  rfl

/-- The document of a value means that value. -/
theorem check_valueToJson (v : Value) : Value.check v.toJson = .good v := by
  cases v with
  | text s => exact check_eq_good_of_kind rfl rfl rfl
  | number n =>
    cases n with
    | int i => exact check_eq_good_of_kind rfl rfl rfl
    | real x => exact check_eq_good_of_kind rfl rfl rfl
  | date d =>
    apply check_eq_good_of_kind rfl rfl
    exact map_eq_good.2 ⟨d, required_eq_good.2 ⟨_, rfl, Calendar.lenientDate_toText d⟩, rfl⟩
  | choice s => exact check_eq_good_of_kind rfl rfl rfl
  | choices items =>
    apply check_eq_good_of_kind rfl rfl
    have read : listOf text (.texts items) = .good items := allFrom_map_eq_good 0 fun _ _ => rfl
    exact map_eq_good.2 ⟨items, required_eq_good.2 ⟨_, rfl, read⟩, rfl⟩
  | file s => exact check_eq_good_of_kind rfl rfl rfl

/-- The documents of the values of a submission mean those values. -/
theorem checkAll_valuesToJson (values : Dictionary Value) :
    Value.checkAll (values.map fun pair => (pair.1, pair.2.toJson)) = .good values := by
  induction values with
  | nil => rfl
  | cons pair rest ih =>
    unfold Value.checkAll at ih ⊢
    rw [List.map_cons, List.foldr_cons, ih, check_valueToJson]
    rfl

/-! ## §7. What rows keep. -/

section

variable {check : Json → Checked α} {write : α → Json} {items : List α}

/-- A list that is stored as documents is read as it was. -/
theorem checkElements_map (h : ∀ a ∈ items, check (write a) = .good a) :
    checkElements check (.arr (items.map write)) = .ok items := by
  show (items.map write).mapM (fun item => (check item).orFail) = .ok items
  rw [mapM_eq_ok, List.forall₂_map_left_iff, List.forall₂_same]
  intro a ha
  rw [h a ha]
  rfl

theorem checkElementsIfAny_map (h : ∀ a ∈ items, check (write a) = .good a) :
    checkElementsIfAny check (.arr (items.map write)) = .ok items := by
  unfold checkElementsIfAny
  cases items with
  | nil => rfl
  | cons a rest => exact checkElements_map h

/-- Whatever is read from a stored list, the check has found. -/
theorem exists_of_mem_checkElementsIfAny {document : Json}
    (h : checkElementsIfAny check document = .ok items) :
    ∀ a ∈ items, ∃ item, check item = .good a := by
  intro a ha
  unfold checkElementsIfAny at h
  split at h
  · unfold checkElements at h
    cases helements : document.elements with
    | error e =>
      rw [helements] at h
      cases h
    | ok elements =>
      rw [helements] at h
      obtain ⟨item, hitem⟩ := exists_of_mem_mapM h ha
      exact ⟨item, orFail_eq_ok.1 hitem⟩
  · cases h
    cases ha

end

end PromptForms
