import ShardedLines.Decimal.Shortest

/-!
How JSON writes texts and numbers, in compact form.
-/

namespace ShardedLines.Json

/-- One character between the quotes. Quotes, backslashes and control characters are escaped, all
else stands as it is. -/
def escape (c : Char) : List Char :=
  if c == '"' then ['\\', '"']
  else if c == '\\' then ['\\', '\\']
  else if c == '\x08' then ['\\', 'b']
  else if c == '\x0c' then ['\\', 'f']
  else if c == '\n' then ['\\', 'n']
  else if c == '\r' then ['\\', 'r']
  else if c == '\t' then ['\\', 't']
  else if c.toNat < 0x20 then
    ['\\', 'u', '0', '0', Nat.digitChar (c.toNat / 16), Nat.digitChar (c.toNat % 16)]
  else [c]

/-- A text between quotes. -/
def quoted (text : String) : List Char :=
  '"' :: text.toList.flatMap escape ++ ['"']

def natText (n : Nat) : List Char := Nat.toDigits 10 n

def intText : Int → List Char
  | .ofNat n => natText n
  | .negSucc n => '-' :: natText (n + 1)

/-- An integer with its sign, also where it is not negative. -/
def signedText (n : Int) : List Char :=
  if 0 ≤ n then '+' :: intText n else intText n

/-- A decimal as a number with a point. It is written out where the point stands at most sixteen
places after the first digit and at most four zeros before it; beyond that an exponent is used,
always with its sign. -/
def decimalText (decimal : Decimal.Scaled) : List Char :=
  let digits := natText decimal.digits
  let point := digits.length + decimal.exponent
  if 0 ≤ decimal.exponent ∧ point ≤ 16 then
    digits ++ List.replicate decimal.exponent.toNat '0' ++ ['.', '0']
  else if 0 < point ∧ point ≤ 16 then
    digits.take point.toNat ++ ['.'] ++ digits.drop point.toNat
  else if -5 < point ∧ point ≤ 0 then
    ['0', '.'] ++ List.replicate (-point).toNat '0' ++ digits
  else
    let tail := if digits.length == 1 then [] else '.' :: digits.drop 1
    digits.take 1 ++ tail ++ ['e'] ++ signedText (point - 1)

/-- A double in the fewest digits that read back; infinities and what is not a number become
`null`. -/
def floatText (x : Float) : List Char :=
  if x.isNaN || x.isInf then "null".toList
  else
    let b := Decimal.Binary.ofBits x.toBits.toNat
    let sign := if b.negative then ['-'] else []
    if b.mantissa == 0 then sign ++ "0.0".toList
    else sign ++ decimalText (Decimal.shortest b)

def boolText (b : Bool) : List Char :=
  if b then "true".toList else "false".toList

/-- Texts with commas between them. -/
def commaSeparated (items : List (List Char)) : List Char :=
  [','].intercalate items

/-- A list of values that are already written. -/
def arrayText (items : List (List Char)) : List Char :=
  '[' :: commaSeparated items ++ [']']

/-- A member of an object whose value is already written. -/
def memberText (key : String) (value : List Char) : List Char :=
  quoted key ++ ':' :: value

/-- An object of members whose values are already written. -/
def objectText (members : List (String × List Char)) : List Char :=
  '\x7b' :: commaSeparated (members.map fun member => memberText member.1 member.2) ++ ['\x7d']

/-- A value that may be missing. -/
def optionText {α : Type} (text : α → List Char) : Option α → List Char
  | none => "null".toList
  | some a => text a

end ShardedLines.Json
