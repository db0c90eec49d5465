/-!
# Bytes

What a connection carries. A run of bytes is a plain list, so that concatenation of the chunks
of a stream is `++` and a received stream can be taken apart by recursion.
-/

namespace Rendezvous

/-- A finite run of bytes. -/
abbrev Bytes := List UInt8

namespace Bytes

/-- The carriage return. -/
def cr : UInt8 := 13

/-- The line feed. -/
def lf : UInt8 := 10

/-- The end of a line of a message head: a carriage return and a line feed. -/
def crlf : Bytes := [cr, lf]

/-- The bytes of a text whose characters are all ASCII. -/
def ofAscii (text : String) : Bytes := text.toList.map fun c => UInt8.ofNat c.toNat

end Bytes

end Rendezvous
