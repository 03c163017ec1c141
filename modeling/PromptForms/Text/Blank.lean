/-
  PromptForms.Text.Blank
  ──────────────────────
  **BLANK TEXT.**

  A submitted value that holds nothing but white space counts as absent, a step
  name or prompt of that kind is refused, and a generated text of that kind is no
  output.  All three use the one notion of a blank character below: the Unicode
  white space characters together with the four information separators.

      isBlank        one character
      blankText      a text without a visible character (the empty one included)
      trim           a text without its blank ends
      pieces         what stands between the occurrences of a mark
      words          the maximal runs of characters that are not blank
-/

namespace PromptForms.Text

/-! ## §1. Blank characters. -/

/-- The characters with the Unicode property White_Space. -/
def isWhiteSpace (c : Char) : Bool :=
  let n := c.toNat
  (0x09 ≤ n && n ≤ 0x0D) || n == 0x20 || n == 0x85 || n == 0xA0 || n == 0x1680 ||
    (0x2000 ≤ n && n ≤ 0x200A) || n == 0x2028 || n == 0x2029 || n == 0x202F ||
    n == 0x205F || n == 0x3000

/-- White space and the information separators U+001C to U+001F. -/
def isBlank (c : Char) : Bool :=
  isWhiteSpace c || (0x1C ≤ c.toNat && c.toNat ≤ 0x1F)

/-- The six blanks of ASCII that numerals may be padded with. -/
def isAsciiSpace (c : Char) : Bool :=
  (0x09 ≤ c.toNat && c.toNat ≤ 0x0D) || c == ' '

theorem isBlank_of_isWhiteSpace {c : Char} (h : isWhiteSpace c = true) : isBlank c = true := by
  simp [isBlank, h]

/-- Beyond the space, ASCII has no blanks. -/
theorem isBlank_eq_false {c : Char} (h : 0x20 < c.toNat) (h' : c.toNat < 0x80) :
    isBlank c = false := by
  simp only [isBlank, isWhiteSpace, Bool.or_eq_false_iff, Bool.and_eq_false_iff,
    decide_eq_false_iff_not, beq_eq_false_iff_ne]
  omega

/-! ## §2. Blank texts and trimming. -/

/-- A text without its longest prefix and suffix of characters in `drop`. -/
def trimBy (drop : Char → Bool) (text : List Char) : List Char :=
  ((text.dropWhile drop).reverse.dropWhile drop).reverse

/-- A text that neither starts nor ends with a character to drop stays as it is. -/
theorem trimBy_eq_self {drop : Char → Bool} {text : List Char}
    (hstart : ∀ c ∈ text.head?, drop c = false) (hend : ∀ c ∈ text.getLast?, drop c = false) :
    trimBy drop text = text := by
  have kept : ∀ cs : List Char, (∀ c ∈ cs.head?, drop c = false) → cs.dropWhile drop = cs := by
    intro cs hcs
    cases cs with
    | nil => rfl
    | cons c rest => rw [List.dropWhile_cons_of_neg (by simp [hcs c rfl])]
  unfold trimBy
  rw [kept text hstart, kept _ (by rwa [List.head?_reverse]), List.reverse_reverse]

/-- What is dropped stands at the ends. -/
theorem exists_trimBy (drop : Char → Bool) (text : List Char) : ∃ before after,
    text = before ++ (trimBy drop text ++ after) ∧ (∀ c ∈ before, drop c = true) ∧
      ∀ c ∈ after, drop c = true := by
  have taken : ∀ cs : List Char, ∀ c ∈ cs.takeWhile drop, drop c = true :=
    fun cs c hc => List.all_eq_true.1 List.all_takeWhile c hc
  let rest := (text.dropWhile drop).reverse
  refine ⟨text.takeWhile drop, (rest.takeWhile drop).reverse, ?_, taken text, ?_⟩
  · show text = text.takeWhile drop ++ ((rest.dropWhile drop).reverse ++ (rest.takeWhile drop).reverse)
    rw [← List.reverse_append, List.takeWhile_append_dropWhile, List.reverse_reverse,
      List.takeWhile_append_dropWhile]
  · intro c hc
    exact taken rest c (List.mem_reverse.1 hc)

/-- A text without its blank ends. -/
def trim (text : String) : String :=
  String.ofList (trimBy isBlank text.toList)

/-- No character of the text is visible. -/
def blankText (text : String) : Bool :=
  text.toList.all isBlank

/-! ## §3. Parts of texts. -/

/-- The pieces of a text between the occurrences of a mark, empty ones included. -/
def pieces (mark : Char) (text : String) : List String :=
  (text.toList.splitOn mark).map String.ofList

/-- The maximal runs of characters that are not blank. -/
def words (text : String) : List String :=
  (runs text.toList).map String.ofList
where
  /-- The runs of a list of characters; a character joins the run that starts right after it. -/
  runs : List Char → List (List Char)
    | [] => []
    | c :: rest =>
      if isBlank c then runs rest
      else match rest, runs rest with
        | d :: _, run :: more => if isBlank d then [c] :: run :: more else (c :: run) :: more
        | _, more => [c] :: more

end PromptForms.Text
