import ShardedLines.Json.Text

/-!
JSON values, and the numbers in them.

A number keeps the digits it was written with: whether it is an integer, and which, is decided by
`Numeral.value?`.
-/

namespace ShardedLines

/-- A number as it is written. -/
structure Numeral where
  negative : Bool := false
  /-- The digits before the point. -/
  whole : List Char
  /-- The digits after the point. -/
  fraction? : Option (List Char) := none
  /-- The sign and the digits of the exponent. -/
  exponent? : Option (Bool × List Char) := none
  deriving DecidableEq, Repr

/-- What a numeral stands for. -/
inductive Number where
  /-- An integer of 64 bits, with or without sign. -/
  | integer (n : Int)
  | double (x : Float)

namespace Numeral

def digitValue (c : Char) : Nat := c.toNat - '0'.toNat

/-- The number that some digits write. -/
def natValue (digits : List Char) : Nat :=
  digits.foldl (fun n c => n * 10 + digitValue c) 0

/-- Takes digits into a number for as long as it fits 64 bits; answers with the number and how many
digits it has taken. -/
def takeDigits (n : Nat) : List Char → Nat × Nat
  | [] => (n, 0)
  | c :: rest =>
    let next := n * 10 + digitValue c
    if UInt64.size ≤ next then (n, 0)
    else
      let (n, taken) := takeDigits next rest
      (n, taken + 1)

/-- The leading digits that fit 64 bits, as a number, and the power of ten that it counts. Where the
digits before the point do not all fit, those after it are tried again from their first. -/
def significand (numeral : Numeral) : Nat × Int :=
  let (n, whole) := takeDigits 0 numeral.whole
  let (n, fraction) := takeDigits n (numeral.fraction?.getD [])
  (n, (numeral.whole.length : Int) - whole - fraction)

/-- The exponent of ten that an exponent part adds. -/
def exponentValue (numeral : Numeral) : Int :=
  match numeral.exponent? with
  | none => 0
  | some (true, digits) => -(natValue digits : Int)
  | some (false, digits) => natValue digits

/-- A power of ten, as the nearest double. -/
def tenTo (n : Nat) : Float := Float.ofScientific 1 false n

/-- Divides by a power of ten, in steps that doubles can hold. -/
def shrink (x : Float) (n : Nat) : Float :=
  if n ≤ 308 then x / tenTo n
  else if x == 0 then x
  else shrink (x / tenTo 308) (n - 308)
termination_by n

/-- The double that a numeral stands for, unless it is beyond the largest one: the leading digits
that fit 64 bits, times or over a power of ten. -/
def double? (numeral : Numeral) : Option Float :=
  let (n, scale) := numeral.significand
  let exponent := numeral.exponentValue + scale
  let x := (UInt64.ofNat n).toFloat
  let size? : Option Float :=
    if exponent < 0 then some (shrink x exponent.natAbs)
    else if n == 0 then some x
    else if exponent > 308 then none
    else
      let y := x * tenTo exponent.toNat
      if y.isInf then none else some y
  size?.map fun y => if numeral.negative then -y else y

/-- The value of a numeral, unless it is beyond the largest double. Without fraction and exponent
it is an integer if it fits 64 bits; minus zero is a double. -/
def value? (numeral : Numeral) : Option Number :=
  if numeral.fraction?.isNone && numeral.exponent?.isNone then
    let n := natValue numeral.whole
    if !numeral.negative && n < UInt64.size then some (.integer n)
    else if numeral.negative && 0 < n && n ≤ Nat.pow 2 63 then some (.integer (-n))
    else numeral.double?.map .double
  else numeral.double?.map .double

def text (numeral : Numeral) : List Char :=
  (if numeral.negative then ['-'] else []) ++ numeral.whole ++
    (match numeral.fraction? with
      | none => []
      | some digits => '.' :: digits) ++
    match numeral.exponent? with
      | none => []
      | some (negative, digits) => 'e' :: (if negative then ['-'] else []) ++ digits

def ofNat (n : Nat) : Numeral where
  whole := Nat.toDigits 10 n

def ofInt (n : Int) : Numeral where
  negative := n < 0
  whole := Nat.toDigits 10 n.natAbs

end Numeral

inductive Json where
  | null
  | bool (b : Bool)
  | number (n : Numeral)
  | string (s : String)
  | array (items : List Json)
  | object (members : List (String × Json))

namespace Json

def ofNat (n : Nat) : Json := .number (.ofNat n)

def ofInt (n : Int) : Json := .number (.ofInt n)

/-- The value of the first member with a key. -/
def member? (key : String) : Json → Option Json
  | .object members => members.lookup key
  | _ => none

mutual

/-- The compact text of a value. -/
def text : Json → List Char
  | .null => "null".toList
  | .bool b => boolText b
  | .number n => n.text
  | .string s => quoted s
  | .array items => arrayText (itemTexts items)
  | .object members => objectText (memberTexts members)

def itemTexts : List Json → List (List Char)
  | [] => []
  | item :: rest => item.text :: itemTexts rest

def memberTexts : List (String × Json) → List (String × List Char)
  | [] => []
  | (key, value) :: rest => (key, value.text) :: memberTexts rest

end

end Json

end ShardedLines
