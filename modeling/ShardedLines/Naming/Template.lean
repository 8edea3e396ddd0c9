/-!
Names of shard files.

A shard's file is named by a stem and a template. In the template the first run of `S` stands for
the shard and the first run of `N` for the number of shards, both in decimal and padded with zeros
to the length of the run. `fill?` reads the template once from left to right. There is a largest
width that numbers can be padded to, and with a longer run the work ends in a panic: it has no
answer, which is `none`.
-/

namespace ShardedLines.Naming

def defaultTemplate : String := "-SSSSS-of-NNNNN"

/-- The decimal digits of a number, with zeros in front up to a width. -/
def padded (width n : Nat) : List Char :=
  (Nat.toDigits 10 n).leftpad width '0'

theorem length_padded (width n : Nat) :
    (padded width n).length = max width (Nat.toDigits 10 n).length := by
  simp only [padded, List.leftpad, List.length_append, List.length_replicate]
  omega

/-- The largest width that a number can be padded to. -/
def maxWidth : Nat := 65535

/-- The digits of a number at a width that is only known as the template is read. It panics if the
width is too large. -/
def padded? (width n : Nat) : Option (List Char) :=
  if width ≤ maxWidth then some (padded width n) else none

/-- The length of the run of a character at the start. -/
def runLength (c : Char) (template : List Char) : Nat :=
  (template.takeWhile (· == c)).length

/-- What is left after the run of a character at the start. -/
def afterRun (c : Char) (template : List Char) : List Char :=
  template.dropWhile (· == c)

theorem afterRun_length_le (c : Char) (template : List Char) :
    (afterRun c template).length ≤ template.length :=
  (List.dropWhile_suffix _).length_le

/-- Fills the numbers that are still to be placed: a number is placed at the first run of its
letter, and all else stays. It panics at a run that is too long for a number. -/
def fill? : (shard? shards? : Option Nat) → List Char → Option (List Char)
  | _, _, [] => some []
  | shard?, shards?, c :: rest =>
    if c == 'S' then
      match shard? with
      | some shard =>
        (padded? (1 + runLength 'S' rest) shard).bind fun number =>
          (fill? none shards? (afterRun 'S' rest)).map (number ++ ·)
      | none => (fill? none shards? rest).map (c :: ·)
    else if c == 'N' then
      match shards? with
      | some shards =>
        (padded? (1 + runLength 'N' rest) shards).bind fun number =>
          (fill? shard? none (afterRun 'N' rest)).map (number ++ ·)
      | none => (fill? shard? none rest).map (c :: ·)
    else (fill? shard? shards? rest).map (c :: ·)
termination_by _ _ template => template.length
decreasing_by
  all_goals simp only [List.length_cons]
  · have := afterRun_length_le 'S' rest; omega
  · omega
  · have := afterRun_length_le 'N' rest; omega
  · omega
  · omega

/-- The name of one of several shard files, if it can be formatted. -/
def shardFile? (stem template : String) (shard shards : Nat) : Option String :=
  (fill? (some shard) (some shards) template.toList).map fun filled => stem ++ String.ofList filled

end ShardedLines.Naming
