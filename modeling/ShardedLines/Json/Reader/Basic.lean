import ShardedLines.Json.Value

/-!
Reading JSON text from left to right into typed values.

A `Reader` takes characters off the front of the text. It stops at the first thing that is wrong,
be it in the text or in the type of a value, so one fault tells what came first: the text ended, it
is not JSON, or a value was refused. Values that nobody asked for are skipped: they must be JSON,
but their strings and numbers are not turned into values, and they may be nested to any depth.
-/

namespace ShardedLines

/-- What is wrong with a JSON text. -/
inductive ReadFault where
  /-- The text ended too early. -/
  | truncated
  /-- The text is not JSON. -/
  | malformed
  /-- A value does not fit where it stands, with a reason in words where there is one. -/
  | rejected (reason? : Option String)
  deriving DecidableEq, Repr

/-- Takes a value off the front of a text. -/
abbrev Reader (α : Type) := StateT (List Char) (Except ReadFault) α

namespace Reader

variable {α σ : Type}

/-! ## Characters -/

def isJsonBlank (c : Char) : Bool :=
  c == ' ' || c == '\t' || c == '\n' || c == '\r'

def skipBlanks : Reader Unit := fun text => .ok ((), text.dropWhile isJsonBlank)

/-- The next character, which stays. -/
def peek : Reader (Option Char) := fun text => .ok (text.head?, text)

/-- Drops the next character. -/
def advance : Reader Unit := fun text => .ok ((), text.tail)

/-- The next character after blanks; there must be one. -/
def peekValue : Reader Char := do
  skipBlanks
  match ← peek with
  | none => throw .truncated
  | some c => pure c

/-- Takes a given character after blanks. -/
def expect (c : Char) : Reader Unit := do
  if (← peekValue) == c then advance else throw .malformed

/-- Takes given characters. -/
def word : List Char → Reader Unit
  | [] => pure ()
  | c :: rest => do
    match ← peek with
    | none => throw .truncated
    | some d => if d == c then advance else throw .malformed
    word rest

/-! ## Strings -/

/-- The character that a letter after a backslash stands for. -/
def simpleEscape? : Char → Option Char
  | '"' => some '"'
  | '\\' => some '\\'
  | '/' => some '/'
  | 'b' => some '\x08'
  | 'f' => some '\x0c'
  | 'n' => some '\n'
  | 'r' => some '\r'
  | 't' => some '\t'
  | _ => none

def hexValue? (c : Char) : Option Nat :=
  if '0' ≤ c && c ≤ '9' then some (c.toNat - '0'.toNat)
  else if 'a' ≤ c && c ≤ 'f' then some (c.toNat - 'a'.toNat + 10)
  else if 'A' ≤ c && c ≤ 'F' then some (c.toNat - 'A'.toNat + 10)
  else none

/-- Four hexadecimal digits. The text counts as ended if fewer than four bytes are left. -/
def hexQuad : List Char → Except ReadFault (Nat × List Char)
  | a :: b :: c :: d :: rest =>
    match hexValue? a, hexValue? b, hexValue? c, hexValue? d with
    | some a, some b, some c, some d => .ok (((a * 16 + b) * 16 + c) * 16 + d, rest)
    | _, _, _, _ => .error .malformed
  | rest =>
    if (rest.flatMap String.utf8EncodeChar).length < 4 then .error .truncated else .error .malformed

def isHighSurrogate (n : Nat) : Bool := 0xD800 ≤ n && n ≤ 0xDBFF

def isLowSurrogate (n : Nat) : Bool := 0xDC00 ≤ n && n ≤ 0xDFFF

/-- The character written by a code unit after `\u`, or by two of them. -/
def unicodeEscape (text : List Char) : Except ReadFault (Char × List Char) :=
  match hexQuad text with
  | .error fault => .error fault
  | .ok (unit, rest) =>
    if isLowSurrogate unit then .error .malformed
    else if !isHighSurrogate unit then .ok (Char.ofNat unit, rest)
    else match rest with
      | '\\' :: 'u' :: rest =>
        match hexQuad rest with
        | .error fault => .error fault
        | .ok (second, rest) =>
          if isLowSurrogate second then
            .ok (Char.ofNat (0x10000 + (unit - 0xD800) * 0x400 + (second - 0xDC00)), rest)
          else .error .malformed
      | [] => .error .truncated
      | ['\\'] => .error .truncated
      | _ => .error .malformed

theorem hexQuad_length {text rest : List Char} {n : Nat} (h : hexQuad text = .ok (n, rest)) :
    rest.length < text.length := by
  unfold hexQuad at h
  split at h
  · split at h
    · cases h; simp only [List.length_cons]; omega
    · cases h
  · split at h <;> cases h

theorem unicodeEscape_length {text rest : List Char} {c : Char}
    (h : unicodeEscape text = .ok (c, rest)) : rest.length < text.length := by
  unfold unicodeEscape at h
  split at h
  · cases h
  · rename_i unit rest₁ h₁
    have h₃ := hexQuad_length h₁
    split at h
    · cases h
    · split at h
      · cases h; assumption
      · split at h
        · split at h
          · cases h
          · rename_i h₂
            have h₄ := hexQuad_length h₂
            simp only [List.length_cons] at h₃
            split at h
            · obtain rfl := (Prod.mk.inj (Except.ok.inj h)).2
              omega
            · cases h
        · cases h
        · cases h
        · cases h

/-- The rest of a string, after its opening quote. -/
def stringRest : List Char → Except ReadFault (List Char × List Char)
  | [] => .error .truncated
  | c :: rest =>
    if c == '"' then .ok ([], rest)
    else if c == '\\' then
      match rest with
      | [] => .error .truncated
      | e :: rest =>
        if e == 'u' then
          match _h : unicodeEscape rest with
          | .error fault => .error fault
          | .ok (c, after) =>
            match stringRest after with
            | .error fault => .error fault
            | .ok (cs, after) => .ok (c :: cs, after)
        else match simpleEscape? e with
          | none => .error .malformed
          | some c =>
            match stringRest rest with
            | .error fault => .error fault
            | .ok (cs, after) => .ok (c :: cs, after)
    else if c.toNat < 0x20 then .error .malformed
    else
      match stringRest rest with
      | .error fault => .error fault
      | .ok (cs, after) => .ok (c :: cs, after)
termination_by text => text.length
decreasing_by
  · have := unicodeEscape_length ‹_›
    simp only [List.length_cons]
    omega
  · simp only [List.length_cons]; omega
  · simp only [List.length_cons]; omega

/-- Skips the rest of a string, after its opening quote. Escapes need their digits, but need not
make sense. -/
def skipStringRest : List Char → Except ReadFault (List Char)
  | [] => .error .truncated
  | c :: rest =>
    if c == '"' then .ok rest
    else if c == '\\' then
      match rest with
      | [] => .error .truncated
      | e :: rest =>
        if e == 'u' then
          match _h : hexQuad rest with
          | .error fault => .error fault
          | .ok (_, after) => skipStringRest after
        else if (simpleEscape? e).isSome then skipStringRest rest
        else .error .malformed
    else if c.toNat < 0x20 then .error .malformed
    else skipStringRest rest
termination_by text => text.length
decreasing_by
  · have := hexQuad_length ‹_›
    simp only [List.length_cons]
    omega
  · simp only [List.length_cons]; omega
  · simp only [List.length_cons]; omega

/-- A string whose opening quote comes next. -/
def quotedString : Reader String := fun text =>
  match stringRest text.tail with
  | .error fault => .error fault
  | .ok (cs, rest) => .ok (String.ofList cs, rest)

/-- Skips a string whose opening quote comes next. -/
def skipQuotedString : Reader Unit := fun text =>
  match skipStringRest text.tail with
  | .error fault => .error fault
  | .ok rest => .ok ((), rest)

/-! ## Numbers -/

def digits : Reader (List Char) := fun text =>
  .ok (text.takeWhile Char.isDigit, text.dropWhile Char.isDigit)

/-- At least one digit. -/
def someDigits : Reader (List Char) := do
  match ← peek with
  | none => throw .truncated
  | some c => if c.isDigit then digits else throw .malformed

/-- The digits before the point: no zero may stand in front of another digit. -/
def wholeDigits : Reader (List Char) := do
  let whole ← someDigits
  if whole.head? == some '0' && 1 < whole.length then throw .malformed else pure whole

/-- Takes a character if it comes next, and tells whether it did. -/
def takeIf (accepted : Char → Bool) : Reader Bool := do
  match ← peek with
  | none => pure false
  | some c => if accepted c then do advance; pure true else pure false

/-- A number that comes next. -/
def numeral : Reader Numeral := do
  let negative ← takeIf (· == '-')
  let whole ← wholeDigits
  let fraction? ← do
    if ← takeIf (· == '.') then pure (some (← someDigits)) else pure none
  let exponent? ← do
    if ← takeIf fun c => c == 'e' || c == 'E' then do
      if ← takeIf (· == '+') then pure (some (false, ← someDigits))
      else
        let sign ← takeIf (· == '-')
        pure (some (sign, ← someDigits))
    else pure none
  pure { negative, whole, fraction?, exponent? }

/-- Skips a number that comes next. Where the text ends inside it, the number is taken for broken. -/
def skipNumeral : Reader Unit := fun text =>
  match numeral text with
  | .ok (_, rest) => .ok ((), rest)
  | .error .truncated => .error .malformed
  | .error fault => .error fault

/-- A number that comes next and is not beyond the largest double. -/
def boundedNumeral : Reader Numeral := do
  let n ← numeral
  match n.value? with
  | none => throw .malformed
  | some _ => pure n

end Reader

end ShardedLines
