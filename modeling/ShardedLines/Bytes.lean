/-!
Bytes, and the UTF-8 bytes of a text.
-/

namespace ShardedLines

abbrev Bytes := List UInt8

/-- The UTF-8 bytes of a text. -/
def utf8 (text : String) : Bytes :=
  text.toList.flatMap String.utf8EncodeChar

end ShardedLines
