import ShardedLines.Text.Unprintable
import ShardedLines.Text.GraphemeExtend
import ShardedLines.Text.Ignorable

/-!
Texts and characters as they are shown to people: between quotes, with escapes for what could not
be told apart otherwise.
-/

namespace ShardedLines.Quoted

/-- The code point in hexadecimal, between braces. -/
def codePointEscape (c : Char) : String :=
  "\\u\x7b" ++ String.ofList (Nat.toDigits 16 c.toNat) ++ "\x7d"

/-- The two halfwidth sound marks extend the character before them, yet each has a cell of its
own. -/
def isHalfwidthSoundMark (c : Char) : Bool :=
  c == '\uff9e' || c == '\uff9f'

/-- Whether a character cannot be seen on its own. -/
def isHidden (c : Char) : Bool :=
  (isGraphemeExtend c && !isHalfwidthSoundMark c) || isUnprintable c || isIgnorable c

/-- One character inside quotes of the given kind: that quote and the backslash get a backslash,
and what cannot be seen on its own is written by its code point. -/
def escape (quote c : Char) : String :=
  match c with
  | '\x00' => "\\0"
  | '\t' => "\\t"
  | '\r' => "\\r"
  | '\n' => "\\n"
  | '\\' => "\\\\"
  | _ =>
    if c == quote then "\\" ++ c.toString
    else if isHidden c then codePointEscape c
    else c.toString

/-- A text between double quotes. -/
def text (s : String) : String :=
  "\"" ++ String.join (s.toList.map (escape '"')) ++ "\""

/-- A character between single quotes. -/
def char (c : Char) : String :=
  "'" ++ escape '\'' c ++ "'"

end ShardedLines.Quoted
