import ShardedLines.Json.Reader.Basic

/-!
Reading and skipping JSON values of any kind.

Lists and objects are read item by item, which leaves the kind of an item to the reader of the
list. A value that is kept may be nested to a given depth; one that is skipped to any depth.
-/

namespace ShardedLines.Reader

variable {α σ : Type}

/-! ## Lists and objects -/

/-- Goes on to the next item after the opening bracket or an earlier item; answers whether there is
one. The closing bracket stays. -/
def nextItem (first : Bool) : Reader Bool := do
  let c ← peekValue
  if c == ']' then pure false
  else if first then pure true
  else if c == ',' then do
    advance
    if (← peekValue) == ']' then throw .malformed else pure true
  else throw .malformed

/-- Goes on to the next key after the opening brace or an earlier member; answers whether there is
one. The closing brace stays. -/
def nextKey (first : Bool) : Reader Bool := do
  let c ← peekValue
  if c == '\x7d' then pure false
  else if first then
    if c == '"' then pure true else throw .malformed
  else if c == ',' then do
    advance
    if (← peekValue) == '"' then pure true else throw .malformed
  else throw .malformed

def itemsLoop (item : Reader α) : (fuel : Nat) → (first : Bool) → Reader (List α)
  | 0, _ => throw .malformed
  | fuel + 1, first => do
    if ← nextItem first then
      let head ← item
      let tail ← itemsLoop item fuel false
      pure (head :: tail)
    else pure []

/-- The items up to the closing bracket, which stays. Every item takes a character, so the length
of the text bounds their number. -/
def items (item : Reader α) : Reader (List α) := fun text =>
  itemsLoop item (text.length + 1) true text

def membersLoop (key : Reader α) (member : σ → α → Reader σ) :
    (fuel : Nat) → (first : Bool) → σ → Reader σ
  | 0, _, _ => throw .malformed
  | fuel + 1, first, state => do
    if ← nextKey first then
      let k ← key
      let state ← member state k
      membersLoop key member fuel false state
    else pure state

/-- The members up to the closing brace, which stays. `member` reads on after each key, from the
colon. -/
def members (key : Reader α) (member : σ → α → Reader σ) (state : σ) : Reader σ := fun text =>
  membersLoop key member (text.length + 1) true state text

def colon : Reader Unit := expect ':'

/-! ## Values of any kind -/

/-- Reads a value, whose brackets are left to `nested`. -/
def valueWith (nested? : Option (Reader Json)) : Reader Json := do
  let c ← peekValue
  if c == 'n' then do word "null".toList; pure .null
  else if c == 't' then do word "true".toList; pure (.bool true)
  else if c == 'f' then do word "false".toList; pure (.bool false)
  else if c == '-' || c.isDigit then do pure (.number (← boundedNumeral))
  else if c == '"' then do pure (.string (← quotedString))
  else if c == '[' then
    match nested? with
    | none => throw .malformed
    | some nested => do
      advance
      let list ← items nested
      expect ']'
      pure (.array list)
  else if c == '\x7b' then
    match nested? with
    | none => throw .malformed
    | some nested => do
      advance
      let list ← members quotedString
        (fun list key => do colon; pure ((key, ← nested) :: list)) []
      expect '\x7d'
      pure (.object list.reverse)
  else throw .malformed

/-- Reads a value whose lists and objects are nested no deeper than `depth`. -/
def value : (depth : Nat) → Reader Json
  | 0 => valueWith none
  | depth + 1 => valueWith (some (value depth))

/-- Skips a value, whose brackets are left to `nested`. -/
def skipWith (nested : Reader Unit) : Reader Unit := do
  let c ← peekValue
  if c == 'n' then word "null".toList
  else if c == 't' then word "true".toList
  else if c == 'f' then word "false".toList
  else if c == '-' || c.isDigit then skipNumeral
  else if c == '"' then skipQuotedString
  else if c == '[' then do
    advance
    let _ ← items nested
    expect ']'
  else if c == '\x7b' then do
    advance
    members skipQuotedString (fun _ _ => do colon; nested) ()
    expect '\x7d'
  else throw .malformed

def skipNested : (depth : Nat) → Reader Unit
  | 0 => throw .malformed
  | depth + 1 => skipWith (skipNested depth)

/-- Skips a value of any depth: every level takes a character, so the length of the text bounds the
depth. -/
def skip : Reader Unit := fun text => skipNested (text.length + 1) text

end ShardedLines.Reader
