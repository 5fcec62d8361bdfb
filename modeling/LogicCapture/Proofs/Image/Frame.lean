import LogicCapture.Proofs.Image.Layout
import LogicCapture.Proofs.Wire.ByteOrder

/-!
# The frame of an image

The frame that loads an image is the byte of the command, the number of words and
then nothing but the words. No engine has more words than can be counted there, so
`Program.number_in_frame` reads the right number off the two bytes.
-/

namespace LogicCapture

/-! ## Words -/

theorem Image.length_frame (image : Image) : image.frame.length = 4 * image.words.length + 3 := by
  have payload : image.frame.length = image.bytes.length + 3 := rfl
  rw [payload, bytes, Wire.length_ofWords]

theorem Image.toWords_drop_frame (image : Image) :
    Wire.toWords (image.frame.drop 3) = image.words :=
  Wire.toWords_ofWords image.words

/-! ## The number of words -/

/-- No engine has as many table words as would not fit the count of the frame. -/
theorem Program.length_words_lt (p : Program) : p.compile.words.length < 65536 := by
  have channels := p.geometry.channels_le
  have steps := p.geometry.stepSlots_le
  have block : p.geometry.wordsPerStep ≤ 32 := by
    unfold Geometry.wordsPerStep
    rcases p.geometry.patternSlots_eq with two | four
    · rw [two]
      omega
    · rw [four]
      omega
  have matchers : p.geometry.stepSlots * p.geometry.wordsPerStep ≤ 32 * 32 :=
    Nat.mul_le_mul steps block
  have total : p.geometry.totalWords = p.geometry.stepSlots * p.geometry.wordsPerStep +
      p.geometry.stepSlots + p.geometry.counterBits + 2 := rfl
  rw [p.length_words, total, p.geometry.counterBits_eq]
  omega

theorem Program.frame_compile (p : Program) :
    p.compile.frame = 0x01 :: Wire.littleEndian 2 p.compile.words.length ++
      p.compile.words.flatMap fun word => Wire.bigEndian 4 word.toNat := by
  rw [Image.frame, Wire.tablesFrame, Wire.pairBytes_eq p.length_words_lt, Image.bytes,
    Wire.ofWords_eq]
  rfl

/-- The number of words stands behind the command, low byte first. -/
theorem Program.number_in_frame (p : Program) : ∃ low high, p.compile.frame[1]? = some low ∧
    p.compile.frame[2]? = some high ∧ low.toNat + 256 * high.toNat = p.compile.words.length := by
  have fits := p.length_words_lt
  rw [p.frame_compile]
  refine ⟨UInt8.ofNat p.compile.words.length, UInt8.ofNat (p.compile.words.length / 256), rfl, rfl,
    ?_⟩
  rw [UInt8.toNat_ofNat', UInt8.toNat_ofNat']
  omega

end LogicCapture
