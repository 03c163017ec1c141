/-
  PromptForms.Template.Scan
  ─────────────────────────
  **PLACEHOLDERS IN TEMPLATES.**

  A template refers to a variable by its name between braces, `{name}`.  The name is
  every character between a `{` and the next `}`, and holds no brace and no line
  break; the empty name is a name.  Braces that do not enclose a name are ordinary
  characters.  There is no escaping and no nesting.

      scan            a template as a list of pieces
      findVariables   the names, in order of first appearance
      render          replaces the names that have a text
-/
import PromptForms.Dictionary

namespace PromptForms.Template

/-! ## §1. Pieces. -/

/-- A character that is left as it is, or a placeholder. -/
inductive Piece where
  | literal (c : Char)
  | placeholder (name : List Char)
  deriving DecidableEq, Repr

/-- The characters of a piece. -/
def Piece.source : Piece → List Char
  | .literal c => [c]
  | .placeholder name => '{' :: name ++ ['}']

/-- The characters that no name holds. -/
def endsName (c : Char) : Bool := c == '{' || c == '}' || c == '\r' || c == '\n'

/-- The pieces of a template.  `open?` is the part of a name that has been read since the last
opening brace, in reverse. -/
def scanFrom : (open? : Option (List Char)) → List Char → List Piece
  | none, [] => []
  | some name, [] => .literal '{' :: name.reverse.map .literal
  | none, c :: rest => if c == '{' then scanFrom (some []) rest else .literal c :: scanFrom none rest
  | some name, c :: rest =>
    if c == '}' then .placeholder name.reverse :: scanFrom none rest
    else if c == '{' then .literal '{' :: name.reverse.map .literal ++ scanFrom (some []) rest
    else if endsName c then
      .literal '{' :: name.reverse.map .literal ++ .literal c :: scanFrom none rest
    else scanFrom (some (c :: name)) rest

/-- The pieces of a template. -/
def scan (template : String) : List Piece := scanFrom none template.toList

/-- The pieces spell the template. -/
theorem flatMap_source_scanFrom (open? : Option (List Char)) (cs : List Char) :
    (scanFrom open? cs).flatMap Piece.source =
      (open?.elim [] fun name => '{' :: name.reverse) ++ cs := by
  have literals (l : List Char) : (l.map Piece.literal).flatMap Piece.source = l := by
    induction l with
    | nil => rfl
    | cons c l ih => simp [Piece.source, ih]
  have reversed (l : List Char) : (l.map Piece.literal).reverse.flatMap Piece.source = l.reverse := by
    rw [← List.map_reverse]
    exact literals _
  induction cs generalizing open? with
  | nil => cases open? <;> simp [scanFrom, Piece.source, reversed]
  | cons c rest ih =>
    cases open? with
    | none =>
      by_cases h : c = '{' <;> simp [scanFrom, h, ih, Piece.source]
    | some name =>
      by_cases h1 : c = '}'
      · simp [scanFrom, h1, ih, Piece.source]
      · by_cases h2 : c = '{'
        · simp [scanFrom, h2, ih, Piece.source, reversed]
        · by_cases h3 : endsName c = true <;>
            simp [scanFrom, h1, h2, h3, ih, Piece.source, reversed]

/-! ## §2. Variables. -/

/-- The name of a placeholder. -/
def Piece.name? : Piece → Option String
  | .literal _ => none
  | .placeholder name => some (String.ofList name)

/-- The names that a template refers to, in order of first appearance. -/
def findVariables (template : String) : List String :=
  ((scan template).filterMap Piece.name?).eraseDups

/-! ## §3. Rendering. -/

/-- Names of variables with their texts. -/
abbrev Context := Dictionary String

/-- The text of a piece: a placeholder whose name has a text is replaced by that text, which is
not scanned again. -/
def Piece.render (context : Context) (piece : Piece) : List Char :=
  match piece.name?.bind fun name => context.lookup name with
  | some text => text.toList
  | none => piece.source

/-- A template with the known names replaced and the unknown ones left as they are. -/
def render (template : String) (context : Context) : String :=
  String.ofList ((scan template).flatMap (Piece.render context))

/-- The names without a text, in order of first appearance. -/
def unresolved (template : String) (context : Context) : List String :=
  (findVariables template).filter fun name => (context.lookup name).isNone

/-- How names without a text are treated. -/
inductive Mode where
  /-- They are left in the text. -/
  | lenient
  /-- They are refused. -/
  | strict
  deriving DecidableEq, Repr

/-- The text of a template, or the names that are refused. -/
def resolve (mode : Mode) (template : String) (context : Context) : Except (List String) String :=
  match mode, unresolved template context with
  | .strict, name :: more => .error (name :: more)
  | _, _ => .ok (render template context)

end PromptForms.Template
