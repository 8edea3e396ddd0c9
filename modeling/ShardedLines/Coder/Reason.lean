import ShardedLines.Json.Value

/-!
The reasons that records give for not being written.

A reason that ends in a position, as in `bad at line 3 column 7`, is taken for a reason and a
position: the position's numbers are written without leading zeros, and a position in line zero
stands for none and is left out.
-/

namespace ShardedLines.Reason

/-- The number that a text consists of, if it is digits of a number of 64 bits. -/
def number? (digits : List Char) : Option Nat :=
  if digits.isEmpty || !digits.all Char.isDigit then none
  else
    let n := Numeral.natValue digits
    if n < UInt64.size then some n else none

/-- The line and the column that a text states and nothing else. -/
def position? (text : List Char) : Option (Nat × Nat) :=
  let line := text.takeWhile Char.isDigit
  let rest := text.dropWhile Char.isDigit
  let mark := " column ".toList
  if mark.isPrefixOf rest then
    match number? line, number? (rest.drop mark.length) with
    | some line, some column => some (line, column)
    | _, _ => none
  else none

/-- The last place where a reason turns to a position: what stands before it, and after it. -/
def splitPosition? : List Char → Option (List Char × List Char)
  | [] => none
  | c :: rest =>
    match splitPosition? rest with
    | some (before, after) => some (c :: before, after)
    | none =>
      let mark := " at line ".toList
      if mark.isPrefixOf (c :: rest) then some ([], (c :: rest).drop mark.length) else none

/-- A reason as it is reported. -/
def reported (reason : String) : String :=
  match splitPosition? reason.toList with
  | none => reason
  | some (before, after) =>
    match position? after with
    | none => reason
    | some (0, _) => String.ofList before
    | some (line, column) =>
      String.ofList before ++ s!" at line {line} column {column}"

end ShardedLines.Reason
