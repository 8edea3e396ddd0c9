import ShardedLines.Json.Reader.Value

/-!
Reading JSON values of given types.

A value of another type is refused; where it is broken as well, that is noticed first.
-/

namespace ShardedLines.Reader

variable {α : Type}

/-! ## Values of a given type -/

/-- Refuses the value that comes next for its type. A broken value is noticed first, but a list or
an object is refused at its bracket. -/
def mistyped : Reader α := do
  let c ← peekValue
  if c == 'n' then word "null".toList
  else if c == 't' then word "true".toList
  else if c == 'f' then word "false".toList
  else if c == '-' || c.isDigit then do let _ ← boundedNumeral
  else if c == '"' then do let _ ← quotedString
  else if c == '[' || c == '\x7b' then pure ()
  else throw .malformed
  throw (.rejected none)

def string : Reader String := do
  if (← peekValue) == '"' then quotedString else mistyped

def bool : Reader Bool := do
  let c ← peekValue
  if c == 't' then do word "true".toList; pure true
  else if c == 'f' then do word "false".toList; pure false
  else mistyped

/-- Takes `null`. -/
def null : Reader Unit := do
  if (← peekValue) == 'n' then word "null".toList else mistyped

/-- An integer between two bounds, written without fraction and exponent. -/
def int (least most : Int) : Reader Int := do
  let c ← peekValue
  if c == '-' || c.isDigit then do
    match (← boundedNumeral).value? with
    | some (.integer n) => if least ≤ n ∧ n ≤ most then pure n else throw (.rejected none)
    | _ => throw (.rejected none)
  else mistyped

/-- A value, or `null` for none. -/
def option (inner : Reader α) : Reader (Option α) := do
  if (← peekValue) == 'n' then do word "null".toList; pure none
  else pure (some (← inner))

def list (item : Reader α) : Reader (List α) := do
  if (← peekValue) == '[' then do
    advance
    let result ← items item
    expect ']'
    pure result
  else mistyped

/-! ## Records

A record is an object, of which fields may be missing if they have a default, and unknown members
are skipped; or a list of the fields in order.
-/

/-- Reads a field of an object on from the colon; a field may be there only once. -/
def field (seen : Option α) (item : Reader α) : Reader (Option α) := do
  if seen.isSome then throw (.rejected none)
  colon
  pure (some (← item))

/-- Skips a member on from the colon. -/
def skipMember : Reader Unit := do
  colon
  skip

/-- The next item of a list, if there is one. -/
def item? (first : Bool) (item : Reader α) : Reader (Option α) := do
  if ← nextItem first then pure (some (← item)) else pure none

/-- The next item of a list; there must be one. -/
def item (first : Bool) (item : Reader α) : Reader α := do
  match ← item? first item with
  | some a => pure a
  | none => throw (.rejected none)

/-- A field that must be there. -/
def required : Option α → Reader α
  | some a => pure a
  | none => throw (.rejected none)

/-- Reads a record in either form. -/
def record (fromList fromObject : Reader α) : Reader α := do
  let c ← peekValue
  if c == '[' then do
    advance
    let result ← fromList
    expect ']'
    pure result
  else if c == '\x7b' then do
    advance
    let result ← fromObject
    expect '\x7d'
    pure result
  else mistyped

/-- A string where nothing else may stand, as for the name of an alternative. -/
def onlyString : Reader String := do
  if (← peekValue) == '"' then quotedString else throw .malformed

/-- Reads one of several named alternatives: a string that names it, or an object with the name as
its only key and the content as its value. -/
def variant (named : String → Reader α) (content : String → Reader α) : Reader α := do
  let c ← peekValue
  if c == '"' then do named (← quotedString)
  else if c == '\x7b' then do
    advance
    let result ← content (← onlyString)
    expect '\x7d'
    pure result
  else throw .malformed

/-! ## Whole texts -/

/-- Reads a text that holds one value and nothing else. -/
def run (reader : Reader α) (text : String) : Except ReadFault α :=
  match reader text.toList with
  | .error fault => .error fault
  | .ok (a, rest) => if rest.all isJsonBlank then .ok a else .error .malformed

end ShardedLines.Reader
