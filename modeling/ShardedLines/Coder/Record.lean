import ShardedLines.Coder.Basic
import ShardedLines.Coder.Reason

/-!
Structured records, written as compact JSON.

A record is written from left to right, so that what stands before the place where it fails has
been written by then. Map keys are texts; numbers and truth values become texts where they are
keys.
-/

namespace ShardedLines

/-- A value that can be written as JSON, or fails to. -/
inductive Datum where
  | null
  | bool (b : Bool)
  | int (n : Int)
  | float (x : Float)
  | text (s : String)
  | seq (items : List Datum)
  /-- Pairs of a key and a value, in the order in which they are written. -/
  | map (entries : List (Datum × Datum))
  /-- A value that refuses to be written, with its reason. -/
  | failure (reason : String)

namespace Datum

/-! ## Values of JSON -/

/-- Adds a member to members whose keys are sorted, in the place of an earlier one of its key. -/
def putMember (key : String) (value : Datum) : List (String × Datum) → List (String × Datum)
  | [] => [(key, value)]
  | entry :: rest =>
    if key < entry.1 then (key, value) :: entry :: rest
    else if key == entry.1 then (key, value) :: rest
    else entry :: putMember key value rest

mutual

/-- The record of a JSON value. Members are sorted by their keys, of which the last one counts; a
number beyond the largest double is none. -/
def ofJson : Json → Datum
  | .null => .null
  | .bool b => .bool b
  | .number n =>
    match n.value? with
    | some (.integer n) => .int n
    | some (.double x) => .float x
    | none => .null
  | .string s => .text s
  | .array items => .seq (ofItems items)
  | .object members => .map ((ofMembers members []).map fun (key, value) => (.text key, value))

def ofItems : List Json → List Datum
  | [] => []
  | item :: rest => ofJson item :: ofItems rest

def ofMembers : List (String × Json) → List (String × Datum) → List (String × Datum)
  | [], sorted => sorted
  | (key, value) :: rest, sorted => ofMembers rest (putMember key (ofJson value) sorted)

end

/-! ## Writing -/

/-- Text that has been written, and whether writing went well. -/
structure Written where
  result : Except Fault Unit := .ok ()
  text : List Char := []

/-- Text that is written without fail. -/
def Written.ok (text : List Char) : Written where
  text := text

/-- Nothing is written. -/
def Written.fail (fault : Fault) : Written where
  result := .error fault

/-- Goes on writing, unless that has failed. -/
def Written.andThen (first second : Written) : Written :=
  match first.result with
  | .error _ => first
  | .ok () => { second with text := first.text ++ second.text }

/-- A key of a map: a text, or a finite number or a truth value between quotes. -/
def writeKey : Datum → Written
  | .text s => .ok (Json.quoted s)
  | .int n => .ok ('"' :: Json.intText n ++ ['"'])
  | .float x => if x.isFinite then .ok ('"' :: Json.floatText x ++ ['"']) else .fail .keyNotFinite
  | .bool b => .ok ('"' :: Json.boolText b ++ ['"'])
  | .failure reason => .fail (.refused (Reason.reported reason))
  | _ => .fail .keyNotText

/-- The comma before all but the first. -/
def comma (first : Bool) : Written :=
  .ok (if first then [] else [','])

mutual

def write : Datum → Written
  | .null => .ok "null".toList
  | .bool b => .ok (Json.boolText b)
  | .int n => .ok (Json.intText n)
  | .float x => .ok (Json.floatText x)
  | .text s => .ok (Json.quoted s)
  | .seq items => ((Written.ok ['[']).andThen (writeItems true items)).andThen (.ok [']'])
  | .map entries =>
    ((Written.ok ['\x7b']).andThen (writeEntries true entries)).andThen (.ok ['\x7d'])
  | .failure reason => .fail (.refused (Reason.reported reason))

def writeItems (first : Bool) : List Datum → Written
  | [] => .ok []
  | item :: rest => ((comma first).andThen item.write).andThen (writeItems false rest)

def writeEntries (first : Bool) : List (Datum × Datum) → Written
  | [] => .ok []
  | (key, value) :: rest =>
    ((((comma first).andThen key.writeKey).andThen (.ok [':'])).andThen value.write).andThen
      (writeEntries false rest)

end

end Datum

/-- Writes records as compact JSON, each on one line. -/
def Coder.json : Coder Datum where
  run record := (record.write.result, utf8 (String.ofList record.write.text))

end ShardedLines
