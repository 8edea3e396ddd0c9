import ShardedLines.Bytes

/-!
Reading bytes as UTF-8.

`Utf8.scan` cuts a run of bytes into characters and ill-formed stretches, one `none` for each
maximal ill-formed stretch: the longest start of a character that some continuation could have
completed, or else a single byte. `decode?` accepts the bytes without such stretches, and
`decodeLossy` shows each of them as U+FFFD.
-/

namespace ShardedLines.Utf8

/-- A byte that can only stand inside a character. -/
def isContinuation (b : UInt8) : Bool := 0x80 ≤ b && b ≤ 0xBF

/-- The payload of a continuation byte. -/
def payload (b : UInt8) : Nat := b.toNat % 64

/-- The bytes that may follow the first byte of a character of three or four bytes. The bounds shut
out overlong forms, surrogates, and what lies beyond U+10FFFF. -/
def maySecond (lead second : UInt8) : Bool :=
  (if lead == 0xE0 then 0xA0 else if lead == 0xF0 then 0x90 else 0x80) ≤ second &&
    second ≤ (if lead == 0xED then 0x9F else if lead == 0xF4 then 0x8F else 0xBF)

/-- The character or ill-formed stretch that starts with `lead`, and the bytes after it. -/
def next (lead : UInt8) (rest : Bytes) : Option Char × Bytes :=
  if lead < 0x80 then (some (Char.ofNat lead.toNat), rest)
  else if 0xC2 ≤ lead && lead ≤ 0xDF then
    match rest with
    | b :: rest' =>
      if isContinuation b then
        (some (Char.ofNat (lead.toNat % 32 * 64 + payload b)), rest')
      else (none, rest)
    | [] => (none, [])
  else if 0xE0 ≤ lead && lead ≤ 0xEF then
    match rest with
    | b :: rest' =>
      if maySecond lead b then
        match rest' with
        | c :: rest'' =>
          if isContinuation c then
            (some (Char.ofNat ((lead.toNat % 16 * 64 + payload b) * 64 + payload c)), rest'')
          else (none, rest')
        | [] => (none, [])
      else (none, rest)
    | [] => (none, [])
  else if 0xF0 ≤ lead && lead ≤ 0xF4 then
    match rest with
    | b :: rest' =>
      if maySecond lead b then
        match rest' with
        | c :: rest'' =>
          if isContinuation c then
            match rest'' with
            | d :: rest''' =>
              if isContinuation d then
                (some (Char.ofNat (((lead.toNat % 8 * 64 + payload b) * 64 + payload c) * 64
                  + payload d)), rest''')
              else (none, rest'')
            | [] => (none, [])
          else (none, rest')
        | [] => (none, [])
      else (none, rest)
    | [] => (none, [])
  else (none, rest)

theorem next_length_le (lead : UInt8) (rest : Bytes) :
    (next lead rest).2.length ≤ rest.length := by
  unfold next
  repeat' split
  all_goals
    simp only [List.length_cons, List.length_nil]
    omega

/-- The characters of the bytes, with `none` for each maximal ill-formed stretch. -/
def scan : Bytes → List (Option Char)
  | [] => []
  | b :: rest => (next b rest).1 :: scan (next b rest).2
termination_by bytes => bytes.length
decreasing_by
  have := next_length_le b rest
  simp only [List.length_cons]
  omega

/-- The text whose bytes these are, if they are well-formed. -/
def decode? (bytes : Bytes) : Option String :=
  ((scan bytes).mapM id).map String.ofList

/-- The text of the bytes, with U+FFFD for each maximal ill-formed stretch. -/
def decodeLossy (bytes : Bytes) : String :=
  String.ofList ((scan bytes).map (·.getD '\uFFFD'))

end ShardedLines.Utf8
