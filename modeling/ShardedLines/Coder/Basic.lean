import ShardedLines.Bytes
import ShardedLines.Fault
import ShardedLines.Json.Text

/-!
Coders turn a record into the bytes of its line.

A coder appends to a buffer. One that fails may have appended a part already, which stays in the
buffer.
-/

namespace ShardedLines

structure Coder (α : Type) where
  /-- Whether a record can be written, and the bytes that are appended for it, failed or not. -/
  run : α → Except Fault Unit × Bytes

namespace Coder

variable {α β : Type}

/-- Appends a record to a buffer. -/
def encode (coder : Coder α) (record : α) (buffer : Bytes) : Except Fault Unit × Bytes :=
  ((coder.run record).1, buffer ++ (coder.run record).2)

/-- The bytes of a record. -/
def bytes? (coder : Coder α) (record : α) : Except Fault Bytes :=
  match coder.encode record [] with
  | (.ok (), buffer) => .ok buffer
  | (.error fault, _) => .error fault

theorem bytes?_eq_ok_iff {coder : Coder α} {record : α} {line : Bytes} :
    coder.bytes? record = .ok line ↔ coder.run record = (.ok (), line) := by
  unfold bytes? encode
  rcases coder.run record with ⟨_ | _, _⟩ <;> simp

/-- A coder for records that hold what another coder writes. -/
def comap (f : β → α) (coder : Coder α) : Coder β where
  run record := coder.run (f record)

/-- Writes texts as they are. -/
def text : Coder String where
  run record := (.ok (), utf8 record)

/-- Writes integers in decimal. -/
def decimal : Coder Int where
  run record := (.ok (), utf8 (String.ofList (Json.intText record)))

end Coder

/-- The integer that a word of some bits stands for, as a signed or an unsigned one. -/
def wordValue (signed : Bool) {bits : Nat} (word : BitVec bits) : Int :=
  if signed then word.toInt else word.toNat

/-- Writes the integers of a type. -/
def Coder.word (signed : Bool) (bits : Nat) : Coder (BitVec bits) :=
  decimal.comap (wordValue signed)

end ShardedLines
