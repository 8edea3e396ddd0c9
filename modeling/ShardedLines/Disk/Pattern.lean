import ShardedLines.Text.Pieces

/-!
Patterns for file names and paths.

In the text of a pattern `*` stands for any run of characters without a slash, `[c]` for the
character `c`, and every other character for itself. Two stars in a row and a bracket that is not
closed after one character are no pattern. `escape` writes a character so that it stands for
itself.

`accepts` says what a pattern stands for, star by star; `covers` decides the same in one pass over
the text.
-/

namespace ShardedLines

/-- What a part of a pattern stands for. -/
inductive PatternToken where
  /-- The character, as it stands. -/
  | plain (c : Char)
  /-- The character, written in brackets. -/
  | bracketed (c : Char)
  /-- Any run of characters without a slash. -/
  | run
  deriving DecidableEq, Repr

namespace Pattern

/-- The tokens of a pattern's text. -/
def tokens? : List Char → Option (List PatternToken)
  | [] => some []
  | '*' :: rest =>
    if rest.head? == some '*' then none else (tokens? rest).map (.run :: ·)
  | '[' :: c :: ']' :: rest => (tokens? rest).map (.bracketed c :: ·)
  | '[' :: _ => none
  | c :: rest => (tokens? rest).map (.plain c :: ·)

/-- The pattern text that stands for one character. -/
def escape (c : Char) : List Char :=
  if c == '?' || c == '*' || c == '[' || c == ']' then ['[', c, ']'] else [c]

/-- Whether a pattern stands for a text. -/
def accepts : List PatternToken → List Char → Bool
  | [], text => text.isEmpty
  | .plain _ :: _, [] => false
  | .plain c :: rest, x :: text => c == x && accepts rest text
  | .bracketed _ :: _, [] => false
  | .bracketed c :: rest, x :: text => c == x && accepts rest text
  | .run :: rest, [] => accepts rest []
  | .run :: rest, x :: text => accepts rest (x :: text) || x != '/' && accepts (.run :: rest) text

/-- The text of a pattern that is written without star and brackets. -/
def text? : List PatternToken → Option (List Char)
  | [] => some []
  | .plain c :: rest => (text? rest).map (c :: ·)
  | _ :: _ => none

/-! ## One pass over the text -/

/-- Whether a pattern and each of its rests, down to the empty one, stand for a text. -/
def verdicts (text : List Char) : List PatternToken → List Bool
  | [] => [accepts [] text]
  | token :: rest => accepts (token :: rest) text :: verdicts text rest

theorem head?_verdicts (text : List Char) (pattern : List PatternToken) :
    (verdicts text pattern).head? = some (accepts pattern text) := by
  cases pattern <;> rfl

/-- The verdicts on the empty text. -/
def emptyVerdicts : List PatternToken → List Bool
  | [] => [true]
  | .run :: rest => (emptyVerdicts rest).headD false :: emptyVerdicts rest
  | _ :: rest => false :: emptyVerdicts rest

/-- The verdicts on a text with one more character in front, from those on the text. -/
def extendVerdicts (x : Char) : List PatternToken → List Bool → List Bool
  | [], _ => [false]
  | token :: rest, old =>
    let later := extendVerdicts x rest old.tail
    match token with
    | .plain c => (c == x && old.tail.headD false) :: later
    | .bracketed c => (c == x && old.tail.headD false) :: later
    | .run => (later.headD false || x != '/' && old.headD false) :: later

/-- Whether a pattern stands for a text; more stars do not make it slower. -/
def covers (pattern : List PatternToken) (text : List Char) : Bool :=
  (text.foldr (fun x old => extendVerdicts x pattern old) (emptyVerdicts pattern)).headD false

theorem emptyVerdicts_eq (pattern : List PatternToken) :
    emptyVerdicts pattern = verdicts [] pattern := by
  induction pattern with
  | nil => simp [emptyVerdicts, verdicts, accepts]
  | cons token rest ih =>
    cases token with
    | plain c => simp [emptyVerdicts, verdicts, accepts, ih]
    | bracketed c => simp [emptyVerdicts, verdicts, accepts, ih]
    | run => simp [emptyVerdicts, verdicts, accepts, ih, head?_verdicts]

theorem extendVerdicts_eq (x : Char) (text : List Char) (pattern : List PatternToken) :
    extendVerdicts x pattern (verdicts text pattern) = verdicts (x :: text) pattern := by
  induction pattern with
  | nil => simp [extendVerdicts, verdicts, accepts]
  | cons token rest ih =>
    cases token <;> simp [extendVerdicts, verdicts, accepts, ih, head?_verdicts]

theorem covers_eq_accepts (pattern : List PatternToken) (text : List Char) :
    covers pattern text = accepts pattern text := by
  have h : text.foldr (fun x old => extendVerdicts x pattern old) (emptyVerdicts pattern) =
      verdicts text pattern := by
    induction text with
    | nil => exact emptyVerdicts_eq pattern
    | cons x text ih => rw [List.foldr_cons, ih, extendVerdicts_eq]
  simp [covers, h, head?_verdicts]

end Pattern

end ShardedLines
