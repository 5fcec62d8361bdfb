import LogicCapture.Image.Compile
import LogicCapture.Text.Digits

/-!
An image as stimulus of a hardware testbench: declarations in VHDL whose array
holds the frame that loads the image, byte by byte, with the command byte by
its name.
-/

namespace LogicCapture.Image

/-- One byte as a VHDL bit string. -/
def byteLiteral (byte : UInt8) : String := s!"\"{Text.binary 8 byte.toNat}\""

def constantLine (name : String) (value : Nat) : String :=
  s!"   constant {Text.padRight 26 name} : natural := {value};"

/-- The bytes of one word, with a comma unless it is the last of the array. -/
def wordLine (final : Bool) (word : UInt32) : String :=
  "      " ++ ", ".intercalate ((Wire.wordBytes word).map byteLiteral) ++
    (if final then "" else ",")

/-- A region under its title; `index` is the place of its first word in the
array, which has `total` words. -/
def regionLines (total : Nat) (title : String) (index : Nat) (words : List UInt32) :
    List String :=
  s!"      -- {title} ({words.length} LUTs)" ::
    (words.zipIdx index).map fun (word, place) => wordLine (place + 1 == total) word

/-- The declarations, line by line. -/
def stimulusLines (image : Image) : List String :=
  let g := image.geometry
  let total := image.words.length
  let combinersAt := image.matchers.length
  let countsAt := combinersAt + image.combiners.length
  let flagsAt := countsAt + image.counts.length
  let header := Wire.pairBytes (UInt16.ofNat total)
  ["",
    constantLine "SIM_SAMPLE_WIDTH" g.channels,
    constantLine "SIM_MAX_TRIGGER_STEPS" g.stepSlots,
    constantLine "SIM_MAX_TRIGGER_PATTERNS" g.patternSlots,
    constantLine "SIM_NUM_TRIGGER_FLAGS" (g.flagRegion.stop - g.flagRegion.start),
    constantLine "SIM_NUM_MATCH_COUNTER_BITS" g.counterBits,
    "",
    s!"   type StimulusArray is array (0 to {4 * total - 1 + 3}) of DataBusType;",
    "   variable stimulus : StimulusArray := (",
    "      -- Preamble",
    "      C_LUT_CONFIG, " ++ ", ".intercalate (header.map byteLiteral) ++
      s!", -- {4 * total} bytes ({total} LUTs)"] ++
    regionLines total "PatternMatcher LUT values" 0 image.matchers ++
    regionLines total "Combiner LUT values" combinersAt image.combiners ++
    regionLines total "Count LUT values" countsAt image.counts ++
    regionLines total "Flag LUT values" flagsAt image.flags ++
    ["   );"]

/-- The declarations as text; every line ends with a line break. -/
def stimulus (image : Image) : String :=
  String.join (image.stimulusLines.map (· ++ "\n"))

end LogicCapture.Image
