/-
  PromptForms.Store.Table
  ───────────────────────
  **TABLES.**

  A table is a list of rows, each with an id of its own, in ascending order of ids.  A
  new row gets the id after the greatest one, so the ids of deleted last rows are used
  again.  Queries count the rows of a table by groups, put what matches beside each row,
  and take a part of the rows.

      Table.nextId    the id of the next row
      Table.get?      the row of an id
      Table.insert    adds a row at its place
      Table.replace   changes the row of an id
      Query.tally     the numbers of rows of all groups
      Query.total     the sum of such numbers
      Query.outerJoin the rows of one list beside those of another
      Query.page      a part of the rows
-/

namespace PromptForms

/-- A kind of row: it has an id. -/
class HasId (ρ : Type) where
  id : ρ → Int

/-- The rows of one kind in ascending order of ids. -/
abbrev Table (ρ : Type) := List ρ

namespace Table

variable {ρ : Type} [HasId ρ]

/-- The id of the next row. -/
def nextId (rows : Table ρ) : Int := rows.foldl (fun n row => max n (HasId.id row)) 0 + 1

/-- The row of an id. -/
def get? (rows : Table ρ) (id : Int) : Option ρ := rows.find? fun row => HasId.id row == id

/-- Adds a row before the rows with greater ids. -/
def insert : Table ρ → ρ → Table ρ
  | [], row => [row]
  | first :: rest, row =>
    if HasId.id row < HasId.id first then row :: first :: rest else first :: insert rest row

/-- Changes the row of an id. -/
def replace (rows : Table ρ) (id : Int) (change : ρ → ρ) : Table ρ :=
  rows.map fun row => if HasId.id row == id then change row else row

/-- Removes the rows that pass a test. -/
def remove (rows : Table ρ) (test : ρ → Bool) : Table ρ := rows.filter fun row => !test row

end Table

namespace Query

variable {α β κ : Type}

/-- Counts one more for a group; a new group comes last. -/
def bump [DecidableEq κ] (group : κ) : List (κ × Nat) → List (κ × Nat)
  | [] => [(group, 1)]
  | (other, n) :: rest =>
    if other = group then (other, n + 1) :: rest else (other, n) :: bump group rest

/-- The numbers of rows of all groups that have any. -/
def tally [DecidableEq κ] (group : α → κ) (rows : List α) : List (κ × Nat) :=
  rows.foldl (fun counts row => bump (group row) counts) []

/-- The sum of the numbers of all groups. -/
def total : List (κ × Nat) → Nat
  | [] => 0
  | (_, n) :: rest => n + total rest

/-- Every item of the first list beside each item of the second one that matches it, or beside nothing
if none does. -/
def outerJoin (matches? : α → β → Bool) (left : List α) (right : List β) : List (α × Option β) :=
  left.flatMap fun a => match right.filter (matches? a) with
    | [] => [(a, none)]
    | found => found.map fun b => (a, some b)

/-- A part of a list. -/
def page (skip limit : Nat) (items : List α) : List α := (items.drop skip).take limit

end Query

end PromptForms
