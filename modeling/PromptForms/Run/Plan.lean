/-
  PromptForms.Run.Plan
  ────────────────────
  **PLANS.**

  An operation of the program is a plan: a tree of statements on the world and requests
  for generated text, with an outcome at its end.  A statement is carried out at once
  and as a whole.  A statement on the memory of a process needs no waiting; while a
  statement on the store or a request is waited for, other plans may change the world.
  What answers a request is not part of the plan, and neither is the order of turns.

      World          the store, the active runs, the clock, and tokens for public ids
      Plan           the tree
      Plan.bind      one plan after another
      Job            a plan that may fail
      Plan.run       a plan by itself, in given surroundings
-/
import PromptForms.Run.Registry
import PromptForms.Store.Basic

namespace PromptForms

/-! ## §1. The world. -/

/-- What plans share. -/
structure World where
  store : Store := {}
  /-- The active runs of each process, by the number of the process. -/
  registries : Nat → Registry := fun _ => {}
  now : Calendar.Instant := ⟨0⟩
  /-- Tokens for public ids; no two are the same. -/
  tokens : Nat → String
  /-- How many tokens are used up. -/
  drawn : Nat := 0
  /-- Why the store takes no part in the steps of runs at present, if it does not. -/
  outage : Option StoreFault := none

namespace World

/-- The world with another registry of a process. -/
def withRegistry (w : World) (process : Nat) (r : Registry) : World :=
  { w with registries := fun p => if p = process then r else w.registries p }

/-- Refuses a statement during an outage. -/
def checkOutage (w : World) : Except Failure Unit :=
  match w.outage with
  | some fault => .error (.store fault)
  | none => .ok ()

/-- The world with another store. -/
def withStore (w : World) (s : Store) : World := { w with store := s }

theorem registries_withRegistry_self (w : World) (process : Nat) (r : Registry) :
    (w.withRegistry process r).registries process = r := by simp [withRegistry]

theorem registries_withRegistry_of_ne (w : World) {process other : Nat} (r : Registry)
    (h : other ≠ process) : (w.withRegistry process r).registries other = w.registries other := by
  simp [withRegistry, h]

end World

/-! ## §2. Requests and their outcomes. -/

/-- A request for generated text. -/
structure Request where
  prompt : String
  model : String
  deriving DecidableEq, Repr

/-- What a generator replies.  It is not trusted to keep to the types; null stands for a missing
part. -/
structure Reply where
  text : Json := .null
  model : Json := .null
  tokenCount : Json := .null

/-- How a request ends. -/
inductive Outcome where
  /-- With a reply, after some seconds. -/
  | replied (reply : Reply) (seconds : Binary64)
  /-- The generator says why it has no reply. -/
  | refused (message : String)
  /-- The generator fails with another error. -/
  | failed (error message : String)
  | timedOut
  /-- The whole plan is interrupted while it waits. -/
  | interrupted

/-! ## §3. Plans. -/

/-- What a statement is about. -/
inductive Access where
  /-- The memory of a process: its active runs, and tokens. -/
  | memory
  /-- The store, which is waited for. -/
  | store
  deriving DecidableEq, Repr

/-- A tree of statements and requests. -/
inductive Plan (α : Type) where
  | done (value : α)
  /-- A statement: `update` changes the world, and the plan goes on with what the world was
  right before. -/
  | act (access : Access) (update : World → World) (next : World → Plan α)
  | generate (request : Request) (next : Outcome → Plan α)

namespace Plan

variable {α β : Type}

/-- One plan after another. -/
def bind : Plan α → (α → Plan β) → Plan β
  | done a, f => f a
  | act access update next, f => act access update fun w => (next w).bind f
  | generate request next, f => generate request fun o => (next o).bind f

instance : Monad Plan where
  pure := done
  bind := bind

theorem bind_done (t : Plan α) : t.bind done = t := by
  induction t with
  | done a => rfl
  | act access update next ih => simp [bind, ih]
  | generate request next ih => simp [bind, ih]

theorem bind_assoc {γ : Type} (t : Plan α) (f : α → Plan β) (g : β → Plan γ) :
    (t.bind f).bind g = t.bind fun a => (f a).bind g := by
  induction t with
  | done a => rfl
  | act access update next ih => simp [bind, ih]
  | generate request next ih => simp [bind, ih]

instance : LawfulMonad Plan := LawfulMonad.mk' Plan bind_done (fun _ _ => rfl) bind_assoc

/-- What surrounds a plan that runs by itself: something that answers requests and may use the
world, and something that happens after a statement, given the world before and after it. -/
structure Surroundings (σ : Type) where
  answer : Request → World → σ → Outcome × World × σ
  react : (before after : World) → σ → World × σ

/-- Runs a plan by itself. -/
def run {σ : Type} (around : Surroundings σ) : Plan α → World → σ → α × World × σ
  | done a, w, s => (a, w, s)
  | act _ update next, w, s =>
    let (w', s') := around.react w (update w) s
    (next w).run around w' s'
  | generate request next, w, s =>
    let (outcome, w', s') := around.answer request w s
    (next outcome).run around w' s'

theorem run_bind {σ : Type} (around : Surroundings σ) (t : Plan α) (f : α → Plan β) (w : World)
    (s : σ) :
    (t.bind f).run around w s =
      let (a, w', s') := t.run around w s
      (f a).run around w' s' := by
  induction t generalizing w s with
  | done a => rfl
  | act access update next ih => simp [bind, run, ih]
  | generate request next ih => simp [bind, run, ih]

end Plan

/-! ## §4. Plans that may fail. -/

/-- A plan that ends with a value or a failure. -/
abbrev Job (α : Type) := ExceptT Failure Plan α

namespace Job

variable {α : Type}

/-- A statement that may change the world and may fail; if it fails it changes nothing. -/
def statementOn (access : Access) (f : World → Except Failure (α × World)) : Job α :=
  -- The world and the answer are computed apart, since a plan is a tree and not a function.
  ExceptT.mk (.act access
    (fun w => match f w with
      | .ok (_, w') => w'
      | .error _ => w)
    (fun w => .done ((f w).map (·.1))))

/-- A statement on the store. -/
def statement (f : World → Except Failure (α × World)) : Job α := statementOn .store f

/-- A statement on the memory of a process. -/
def inMemory (f : World → Except Failure (α × World)) : Job α := statementOn .memory f

/-- A statement that only reads the store. -/
def read (f : World → Except Failure α) : Job α :=
  ExceptT.mk (.act .store id fun w => .done (f w))

/-- A statement that only reads the store and does not fail. -/
def ask (f : World → α) : Job α := read fun w => .ok (f w)

/-- A statement that only reads the memory of a process. -/
def readMemory (f : World → α) : Job α := ExceptT.mk (.act .memory id fun w => .done (.ok (f w)))

/-- A failure of the program's own. -/
def fail (cause : Cause) : Job α := throw (Failure.ofCause cause)

/-- A value or a failure that is already known. -/
def ofExcept (x : Except Failure α) : Job α := ExceptT.mk (.done x)

/-- A value or a cause that is already known. -/
def ofCauses (x : Except Cause α) : Job α :=
  match x with
  | .ok a => pure a
  | .error c => fail c

/-- Requests generated text. -/
def request (r : Request) : Job Outcome := ExceptT.mk (.generate r fun o => .done (.ok o))

/-- Does something afterwards, however the job ends. -/
def andFinally (job : Job α) (cleanup : Job Unit) : Job α :=
  ExceptT.mk (job.run.bind fun result => cleanup.run.bind fun _ => .done result)

/-- The outcome of a job as a value. -/
def outcome (job : Job α) : Job (Except Failure α) :=
  ExceptT.mk (job.run.bind fun result => .done (.ok result))

end Job

end PromptForms
