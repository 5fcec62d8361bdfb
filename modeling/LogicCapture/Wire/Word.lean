/-!
Table words on the wire: four bytes each, most significant first. Reading them
back ignores up to three bytes at the end that make no whole word.
-/

namespace LogicCapture.Wire

def wordBytes (word : UInt32) : List UInt8 :=
  [(word >>> 24).toUInt8, (word >>> 16).toUInt8, (word >>> 8).toUInt8, word.toUInt8]

/-- The bytes of words, one after the other. -/
def ofWords (words : List UInt32) : List UInt8 := words.flatMap wordBytes

/-- Puts a word together from its bytes, most significant first. -/
def wordOfBytes (b₃ b₂ b₁ b₀ : UInt8) : UInt32 :=
  b₃.toUInt32 <<< 24 ||| b₂.toUInt32 <<< 16 ||| b₁.toUInt32 <<< 8 ||| b₀.toUInt32

/-- The whole words at the front of `bytes`. -/
def toWords : List UInt8 → List UInt32
  | b₃ :: b₂ :: b₁ :: b₀ :: rest => wordOfBytes b₃ b₂ b₁ b₀ :: toWords rest
  | _ => []

end LogicCapture.Wire
