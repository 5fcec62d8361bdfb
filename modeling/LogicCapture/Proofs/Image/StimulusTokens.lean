import LogicCapture.Image.Stimulus
import LogicCapture.Proofs.Text.Token
import Mathlib.Data.List.Forall2

/-!
# The stimulus token by token

The lines that the stimulus is rendered into are read back into tokens, one lemma for
each kind of line (`Reads`), so that the tokens of the whole text are known
(`Image.tokens_stimulus`).
-/

namespace LogicCapture

open Text

namespace Image

/-! ## Tokens line by line -/

/-- The name that stands for the command byte. -/
def commandToken : Token := .word "C_LUT_CONFIG".toList

/-- The token of a byte. -/
def byteToken (byte : UInt8) : Token := .literal (binary 8 byte.toNat).toList

def comma : Token := .mark ','

def decimalToken (n : Nat) : Token := .word (Nat.toDigits 10 n)

def constantTokens (name : String) (value : Nat) : List Token :=
  [.word "constant".toList, .word name.toList, .mark ':', .word "natural".toList, .mark ':',
    .mark '=', decimalToken value, .mark ';']

def boundTokens (bound : Nat) : List Token :=
  [.word "type".toList, .word "StimulusArray".toList, .word "is".toList, .word "array".toList,
    .mark '(', .word "0".toList, .word "to".toList, decimalToken bound, .mark ')',
    .word "of".toList, .word "DataBusType".toList, .mark ';']

def variableTokens : List Token :=
  [.word "variable".toList, .word "stimulus".toList, .mark ':', .word "StimulusArray".toList,
    .mark ':', .mark '=', .mark '(']

/-- A comment that announces `count` words. -/
def announcement (subject : String) (count : Nat) : List Char :=
  subject.toList ++ (Nat.toDigits 10 count ++ " LUTs)".toList)

def headerTokens (total : Nat) (header : List UInt8) : List Token :=
  [commandToken, comma] ++ (header.map byteToken).intersperse comma ++
    [comma, .comment (" ".toList ++ Nat.toDigits 10 (4 * total) ++
      announcement " bytes (" total)]

def wordTokens (final : Bool) (word : UInt32) : List Token :=
  ((Wire.wordBytes word).map byteToken).intersperse comma ++ if final then [] else [comma]

/-- The lines of the words from the place `index` on. -/
def placedTokens (total index : Nat) (words : List UInt32) : List (List Token) :=
  (words.zipIdx index).map fun (word, place) => wordTokens (place + 1 == total) word

def regionTokens (total : Nat) (title : String) (index : Nat) (words : List UInt32) :
    List (List Token) :=
  [.comment (announcement (" " ++ title ++ " (") words.length)] :: placedTokens total index words

/-- All regions, line by line. -/
def allRegionTokens (image : Image) : List (List Token) :=
  let total := image.words.length
  let combinersAt := image.matchers.length
  let countsAt := combinersAt + image.combiners.length
  let flagsAt := countsAt + image.counts.length
  regionTokens total "PatternMatcher LUT values" 0 image.matchers ++
    regionTokens total "Combiner LUT values" combinersAt image.combiners ++
    regionTokens total "Count LUT values" countsAt image.counts ++
    regionTokens total "Flag LUT values" flagsAt image.flags

/-- What stands before the initial value of the array. -/
def openingTokens (image : Image) : List (List Token) :=
  let g := image.geometry
  [[],
    constantTokens "SIM_SAMPLE_WIDTH" g.channels,
    constantTokens "SIM_MAX_TRIGGER_STEPS" g.stepSlots,
    constantTokens "SIM_MAX_TRIGGER_PATTERNS" g.patternSlots,
    constantTokens "SIM_NUM_TRIGGER_FLAGS" (g.flagRegion.stop - g.flagRegion.start),
    constantTokens "SIM_NUM_MATCH_COUNTER_BITS" g.counterBits,
    [],
    boundTokens (4 * image.words.length - 1 + 3),
    variableTokens]

/-- The header under its comment. -/
def preambleTokens (image : Image) : List (List Token) :=
  [[.comment " Preamble".toList],
    headerTokens image.words.length (Wire.pairBytes (UInt16.ofNat image.words.length))]

/-- The tokens of the stimulus, line by line. -/
def stimulusTokens (image : Image) : List (List Token) :=
  image.openingTokens ++ image.preambleTokens ++ image.allRegionTokens ++ [[.mark ')', .mark ';']]

/-- The tokens of the whole text: every line ends with a line break. -/
def document (image : Image) : List Token := image.stimulusTokens.flatMap (· ++ [.lineBreak])

/-! ## Reading the lines -/

/-- The line is made of these tokens. -/
def Reads (line : String) (found : List Token) : Prop :=
  Scans .gap (line.toList ++ ['\n']) (found ++ [.lineBreak]) .gap

variable {line : String} {found : List Token} {text : List Char}

theorem Reads.of_gap (scans : Scans .gap line.toList found .gap) : Reads line found := by
  have ended : Scans .gap ['\n'] [.lineBreak] .gap := rfl
  exact scans.append ended

theorem Reads.of_comment (scans : Scans .gap line.toList found (.comment text)) :
    Reads line (found ++ [.comment text]) := by
  have ended : Scans (.comment text) ['\n'] [.comment text, .lineBreak] .gap := rfl
  rw [Reads, List.append_assoc]
  exact scans.append ended

theorem one_line_toDigits (n : Nat) : '\n' ∉ Nat.toDigits 10 n := by
  intro mem
  cases Nat.isDigit_of_mem_toDigits (by decide) (by decide) mem

theorem one_line_announcement {subject : String} (one_line : '\n' ∉ subject.toList)
    (count : Nat) : '\n' ∉ announcement subject count := by
  have unit : '\n' ∉ " LUTs)".toList := by decide
  simp only [announcement, List.mem_append, not_or]
  exact ⟨one_line, one_line_toDigits count, unit⟩

theorem reads_constantLine {name : String} (letters : ∀ c ∈ name.toList, isLetter c = true)
    (some_letters : name.toList ≠ []) (value : Nat) :
    Reads (constantLine name value) (constantTokens name value) := by
  have opened : Scans .gap "   constant ".toList [.word "constant".toList] .gap := rfl
  have assigned : Scans .gap ": natural := ".toList
      [.mark ':', .word "natural".toList, .mark ':', .mark '='] .gap := rfl
  have closed : Scans (.word (Nat.toDigits 10 value)) ";".toList
      [decimalToken value, .mark ';'] .gap := rfl
  have padded := (scans_word letters some_letters).append
    (scans_word_gap name.toList (26 - name.length))
  have line : (constantLine name value).toList = "   constant ".toList ++
      (name.toList ++ (List.replicate (26 - name.length) ' ' ++
        (" : natural := ".toList ++ (Nat.toDigits 10 value ++ ";".toList)))) := by
    have body : constantLine name value =
        s!"   constant {padRight 26 name} : natural := {value};" := rfl
    simp only [body, padRight, toString_text, String.toList_append, String.toList_ofList,
      toList_toString, List.append_assoc]
  have blank : " : natural := ".toList ++ (Nat.toDigits 10 value ++ ";".toList) =
      [' '] ++ (": natural := ".toList ++ (Nat.toDigits 10 value ++ ";".toList)) := rfl
  have scanned := opened.append (padded.append (assigned.append ((scans_decimal value).append
    closed)))
  refine .of_gap ?_
  rw [line, blank]
  rwa [List.append_assoc, List.append_assoc] at scanned

theorem reads_bound (bound : Nat) :
    Reads s!"   type StimulusArray is array (0 to {bound}) of DataBusType;"
      (boundTokens bound) := by
  have opened : Scans .gap "   type StimulusArray is array (0 to ".toList
      [.word "type".toList, .word "StimulusArray".toList, .word "is".toList, .word "array".toList,
        .mark '(', .word "0".toList, .word "to".toList] .gap := rfl
  have closed : Scans (.word (Nat.toDigits 10 bound)) ") of DataBusType;".toList
      [decimalToken bound, .mark ')', .word "of".toList, .word "DataBusType".toList, .mark ';']
      .gap := rfl
  refine .of_gap ?_
  rw [String.toList_append, String.toList_append, toList_toString]
  exact (opened.append (scans_decimal bound)).append closed

theorem scans_bytes (bytes : List UInt8) :
    Scans .gap (", ".intercalate (bytes.map byteLiteral)).toList
      ((bytes.map byteToken).intersperse comma) .gap := by
  have each : ∀ part ∈ bytes.map fun byte => ((byteLiteral byte).toList, byteToken byte),
      Scans .gap part.1 [part.2] .gap := by
    intro part mem
    obtain ⟨byte, -, rfl⟩ := List.mem_map.1 mem
    have closed : '"' ∉ (binary 8 byte.toNat).toList := by
      intro mem
      cases bit_of_mem_binary mem with
      | inl zero => cases zero
      | inr one => cases one
    have quote : "\"".toList = ['"'] := rfl
    have quoted : (byteLiteral byte).toList = '"' :: ((binary 8 byte.toNat).toList ++ ['"']) := by
      simp only [byteLiteral, toString_text, String.toList_append, quote, List.cons_append,
        List.nil_append]
    rw [quoted]
    exact scans_literal closed
  have separator : ", ".toList = [',', ' '] := rfl
  have scanned := scans_commas each
  simp only [List.map_map, Function.comp_def] at scanned
  simp only [String.toList_intercalate, separator, List.map_map, Function.comp_def]
  exact scanned

theorem reads_header (total : Nat) (header : List UInt8) :
    Reads ("      C_LUT_CONFIG, " ++ ", ".intercalate (header.map byteLiteral) ++
      s!", -- {4 * total} bytes ({total} LUTs)") (headerTokens total header) := by
  have opened : Scans .gap "      C_LUT_CONFIG, ".toList [commandToken, comma] .gap := rfl
  have closed : Scans .gap ", -- ".toList [comma] (.comment " ".toList) := rfl
  have one_line : '\n' ∉ Nat.toDigits 10 (4 * total) ++ announcement " bytes (" total := by
    rw [List.mem_append, not_or]
    exact ⟨one_line_toDigits _, one_line_announcement (by decide) total⟩
  have line : ("      C_LUT_CONFIG, " ++ ", ".intercalate (header.map byteLiteral) ++
      s!", -- {4 * total} bytes ({total} LUTs)").toList = "      C_LUT_CONFIG, ".toList ++
      ((", ".intercalate (header.map byteLiteral)).toList ++ (", -- ".toList ++
        (Nat.toDigits 10 (4 * total) ++ announcement " bytes (" total))) := by
    simp only [announcement, toString_text, String.toList_append, toList_toString,
      List.append_assoc]
  have scanned := opened.append ((scans_bytes header).append
    (closed.append (scans_comment one_line " ".toList)))
  rw [← line] at scanned
  have reads := Reads.of_comment scanned
  rw [headerTokens]
  simpa only [List.append_assoc, List.append_nil, List.cons_append, List.nil_append] using reads

theorem reads_wordLine (final : Bool) (word : UInt32) :
    Reads (wordLine final word) (wordTokens final word) := by
  have opened : Scans .gap "      ".toList [] .gap := rfl
  have scanned := opened.append (scans_bytes (Wire.wordBytes word))
  refine .of_gap ?_
  rw [wordLine, wordTokens, String.toList_append, String.toList_append]
  cases final with
  | false => exact scanned.append (.cons rfl .nil)
  | true => exact scanned.append .nil

theorem reads_title {title : String} (one_line : '\n' ∉ title.toList) (count : Nat) :
    Reads s!"      -- {title} ({count} LUTs)"
      [.comment (announcement (" " ++ title ++ " (") count)] := by
  have opened : Scans .gap "      --".toList [] (.comment []) := rfl
  have text_one_line : '\n' ∉ (" " ++ title ++ " (").toList := by
    simp only [String.toList_append, List.mem_append, not_or]
    exact ⟨⟨by decide, one_line⟩, by decide⟩
  have blank : "      -- ".toList = "      --".toList ++ " ".toList := rfl
  have line : s!"      -- {title} ({count} LUTs)".toList =
      "      --".toList ++ announcement (" " ++ title ++ " (") count := by
    simp only [announcement, toString_text, String.toList_append, toList_toString, blank,
      List.append_assoc]
  have scanned := opened.append (scans_comment (one_line_announcement text_one_line count) [])
  rw [← line] at scanned
  exact .of_comment scanned

theorem reads_regionLines (total : Nat) {title : String}
    (one_line : '\n' ∉ title.toList) (index : Nat) (words : List UInt32) :
    List.Forall₂ Reads (regionLines total title index words)
      (regionTokens total title index words) := by
  refine .cons (reads_title one_line words.length) ?_
  rw [placedTokens, List.forall₂_map_left_iff, List.forall₂_map_right_iff, List.forall₂_same]
  exact fun item _ => reads_wordLine _ _

theorem reads_stimulusLines (image : Image) :
    List.Forall₂ Reads image.stimulusLines image.stimulusTokens := by
  have empty : Reads "" [] := .of_gap rfl
  have declared : Reads "   variable stimulus : StimulusArray := (" variableTokens := .of_gap rfl
  have preamble : Reads "      -- Preamble" ([] ++ [.comment " Preamble".toList]) :=
    .of_comment rfl
  have closing : Reads "   );" [.mark ')', .mark ';'] := .of_gap rfl
  have joined : ∀ {first second : List String} {found more : List (List Token)},
      List.Forall₂ Reads first found → List.Forall₂ Reads second more →
        List.Forall₂ Reads (first ++ second) (found ++ more) :=
    fun first second => List.rel_append first second
  rw [stimulusTokens, allRegionTokens]
  simp only [← List.append_assoc]
  refine joined (joined (joined (joined (joined ?_
    (reads_regionLines _ (by decide) _ _)) (reads_regionLines _ (by decide) _ _))
    (reads_regionLines _ (by decide) _ _)) (reads_regionLines _ (by decide) _ _))
    (.cons closing .nil)
  exact .cons empty (.cons (reads_constantLine (List.all_eq_true.1 rfl) (by decide) _)
    (.cons (reads_constantLine (List.all_eq_true.1 rfl) (by decide) _)
    (.cons (reads_constantLine (List.all_eq_true.1 rfl) (by decide) _)
    (.cons (reads_constantLine (List.all_eq_true.1 rfl) (by decide) _)
    (.cons (reads_constantLine (List.all_eq_true.1 rfl) (by decide) _)
    (.cons empty (.cons (reads_bound _) (.cons declared (.cons preamble
    (.cons (reads_header _ _) .nil))))))))))

/-- The stimulus has these tokens, and a line break behind every line. -/
theorem tokens_stimulus (image : Image) : tokens image.stimulus.toList = image.document := by
  have joined : ∀ {texts : List String} {found : List (List Token)},
      List.Forall₂ Reads texts found → Scans .gap (texts.flatMap fun text => text.toList ++ ['\n'])
        (found.flatMap (· ++ [.lineBreak])) .gap := by
    intro texts found reads
    induction reads with
    | nil => exact .nil
    | cons first _ ih => exact Scans.append first ih
  have text : image.stimulus.toList =
      image.stimulusLines.flatMap fun line => line.toList ++ ['\n'] := by
    have line_break : "\n".toList = ['\n'] := rfl
    simp only [stimulus, String.toList_join, List.flatMap_map, String.toList_append, line_break]
  rw [text]
  exact tokens_of_scans (joined image.reads_stimulusLines)

end Image

end LogicCapture
