import LogicCapture.Proofs.Image.Frame
import LogicCapture.Proofs.Image.StimulusTokens

/-!
# The testbench stimulus

The stimulus of an image is a text and the frame that loads it is bytes; both are
rendered from the words on their own. Here the text is read as a testbench:
`Program.loads_stimulus` says that it holds exactly the bytes of the frame, each in
its place in the array, that the array has room for just these, and that the numbers
of table words in the comments are right.
-/

namespace LogicCapture

open Text

/-! ## Reading a testbench -/

namespace Testbench

open Image (commandToken byteToken)

/-- The byte of a bit string of eight bits. -/
def byte? : Token → Option UInt8
  | .literal digits => readByte? digits
  | _ => none

/-- Neither a comment nor the end of a line. -/
def isCode : Token → Bool
  | .comment _ | .lineBreak => false
  | _ => true

/-- What stands behind the first place where `key` does. -/
def behind? (key : List Token) : List Token → Option (List Token)
  | [] => if key = [] then some [] else none
  | token :: rest =>
    if key.isPrefixOf (token :: rest) then some ((token :: rest).drop key.length)
    else behind? key rest

/-- The upper bound of the array, whose lower one is 0. -/
def bound? (document : List Token) : Option Nat :=
  match behind? [.mark '(', .word "0".toList, .word "to".toList] document with
  | some (.word digits :: .mark ')' :: _) => readDecimal? digits
  | _ => none

/-- The initial value of the array: what stands between the parentheses behind the
assignment, without comments. -/
def aggregate? (document : List Token) : Option (List Token) :=
  (behind? [.mark ':', .mark '=', .mark '('] document).map fun rest =>
    (rest.takeWhile (· != .mark ')')).filter isCode

/-- The number that a comment announces at its end, as in `(26 LUTs)`. -/
def announced? (text : List Char) : Option Nat :=
  match (tokens text).reverse with
  | .mark ')' :: .word unit :: .word digits :: .mark '(' :: _ =>
    if unit = "LUTs".toList then readDecimal? digits else none
  | _ => none

/-- The number that a line announces if it is a comment and no more. -/
def title? : List Token → Option Nat
  | [.comment text] => announced? text
  | _ => none

/-- The number that the comment behind the code of a line announces. -/
def remark? : List Token → Option Nat
  | _ :: rest =>
    match rest.getLast? with
    | some (.comment text) => announced? text
    | _ => none
  | [] => none

/-- The line begins with a bit string. -/
def isWords : List Token → Bool
  | .literal _ :: _ => true
  | _ => false

/-- For every comment that announces words, how many, and how many lines of bit
strings follow it. -/
def regions : List (List Token) → List (Nat × Nat)
  | [] => []
  | line :: rest =>
    match title? line with
    | some announced => (announced, (rest.takeWhile isWords).length) :: regions rest
    | none => regions rest

/-- The lines of a document. -/
def lines (document : List Token) : List (List Token) := document.splitOn .lineBreak

/-- The testbench loads the image as its frame does, and its comments are right. -/
structure Loads (document : List Token) (image : Image) : Prop where
  command : image.frame.head? = some Wire.Command.loadTables.code
  /-- The bit strings of the document are the frame without its command. -/
  bytes : document.filterMap byte? = image.frame.tail
  /-- The command has its place by name, once. -/
  mentions : document.count commandToken = 1
  /-- The array is the frame: one comma stands between neighbours, none behind the last. -/
  elements : aggregate? document =
    some ((commandToken :: image.frame.tail.map byteToken).intersperse (.mark ','))
  bound : ∃ upper, bound? document = some upper ∧ upper + 1 = image.frame.length
  /-- Every region announces its words, and as many lines of words follow. -/
  announced : regions (lines document) =
    [image.matchers, image.combiners, image.counts, image.flags].map
      fun words => (words.length, words.length)
  total : (lines document).filterMap remark? = [((regions (lines document)).map Prod.fst).sum]

end Testbench

namespace Image

open Testbench

/-! ## The array -/

theorem bound?_document (image : Image) (rest : List Token) :
    bound? (image.openingTokens.flatMap (· ++ [.lineBreak]) ++ rest) =
      some (4 * image.words.length - 1 + 3) := by
  have behind : behind? [.mark '(', .word "0".toList, .word "to".toList]
      (image.openingTokens.flatMap (· ++ [.lineBreak]) ++ rest) =
      some (decimalToken (4 * image.words.length - 1 + 3) :: .mark ')' :: .word "of".toList ::
        .word "DataBusType".toList :: .mark ';' :: .lineBreak ::
          (variableTokens ++ [.lineBreak] ++ rest)) := by
    rfl
  rw [bound?, behind]
  exact readDecimal?_toDigits _

theorem behind?_document (image : Image) (rest : List Token) :
    behind? [.mark ':', .mark '=', .mark '(']
      (image.openingTokens.flatMap (· ++ [.lineBreak]) ++ rest) = some (.lineBreak :: rest) := by
  rfl

/-- Tokens that the array is made of. -/
inductive Listed : Token → Prop where
  | command : Listed commandToken
  | comma : Listed comma
  | byte (byte : UInt8) : Listed (byteToken byte)
  | comment (text : List Char) : Listed (.comment text)

theorem Listed.ne {token : Token} (listed : Listed token) :
    token ≠ .mark ')' ∧ token ≠ .lineBreak := by
  cases listed with
  | command => exact ⟨nofun, nofun⟩
  | comma => exact ⟨by decide, nofun⟩
  | byte byte => exact ⟨nofun, nofun⟩
  | comment text => exact ⟨nofun, nofun⟩

theorem intersperse_cons {α : Type} (separator first : α) (rest : List α) :
    (first :: rest).intersperse separator =
      first :: rest.flatMap fun item => [separator, item] := by
  induction rest generalizing first with
  | nil => rfl
  | cons second rest ih => rw [List.intersperse_cons_cons, ih, List.flatMap_cons]; rfl

theorem listed_intersperse {bytes : List UInt8} :
    ∀ token ∈ (bytes.map byteToken).intersperse comma, Listed token := by
  intro token mem
  cases bytes with
  | nil => cases mem
  | cons first rest =>
    rw [List.map_cons, intersperse_cons] at mem
    rcases List.mem_cons.1 mem with rfl | mem
    · exact .byte first
    · obtain ⟨other, other_mem, mem⟩ := List.mem_flatMap.1 mem
      obtain ⟨byte, -, rfl⟩ := List.mem_map.1 other_mem
      rcases List.mem_pair.1 mem with rfl | rfl
      · exact .comma
      · exact .byte byte

theorem listed_headerTokens {total : Nat} {header : List UInt8} :
    ∀ token ∈ headerTokens total header, Listed token := by
  intro token mem
  rcases List.mem_append.1 mem with mem | mem
  · rcases List.mem_append.1 mem with mem | mem
    · rcases List.mem_pair.1 mem with rfl | rfl
      · exact .command
      · exact .comma
    · exact listed_intersperse token mem
  · rcases List.mem_pair.1 mem with rfl | rfl
    · exact .comma
    · exact .comment _

theorem listed_wordTokens {final : Bool} {word : UInt32} :
    ∀ token ∈ wordTokens final word, Listed token := by
  intro token mem
  rcases List.mem_append.1 mem with mem | mem
  · exact listed_intersperse token mem
  · cases final with
    | true => cases mem
    | false => exact List.mem_singleton.1 mem ▸ .comma

theorem forall_placedTokens {P : List Token → Prop} (each : ∀ final word, P (wordTokens final word))
    {total index : Nat} {words : List UInt32} :
    ∀ line ∈ placedTokens total index words, P line := by
  intro line mem
  obtain ⟨item, -, rfl⟩ := List.mem_map.1 mem
  exact each _ _

theorem length_placedTokens (total index : Nat) (words : List UInt32) :
    (placedTokens total index words).length = words.length := by
  rw [placedTokens, List.length_map, List.length_zipIdx]

theorem listed_regionTokens {total index : Nat} {title : String} {words : List UInt32} :
    ∀ line ∈ regionTokens total title index words, ∀ token ∈ line, Listed token := by
  intro line line_mem token mem
  rcases List.mem_cons.1 line_mem with rfl | line_mem
  · exact List.mem_singleton.1 mem ▸ .comment _
  · have listed : ∀ line ∈ placedTokens total index words, ∀ token ∈ line, Listed token :=
      forall_placedTokens fun _ _ => listed_wordTokens
    exact listed line line_mem token mem

theorem listed_allRegionTokens {image : Image} :
    ∀ line ∈ image.allRegionTokens, ∀ token ∈ line, Listed token := by
  intro line line_mem
  simp only [allRegionTokens, List.mem_append] at line_mem
  rcases line_mem with ((mem | mem) | mem) | mem
  · exact listed_regionTokens line mem
  · exact listed_regionTokens line mem
  · exact listed_regionTokens line mem
  · exact listed_regionTokens line mem

theorem listed_preambleTokens {image : Image} :
    ∀ line ∈ image.preambleTokens, ∀ token ∈ line, Listed token := by
  intro line line_mem token mem
  rcases List.mem_pair.1 line_mem with rfl | rfl
  · exact List.mem_singleton.1 mem ▸ .comment _
  · exact listed_headerTokens token mem

/-! ## The elements of the array -/

/-- A comma in front of the words goes from element to element. -/
theorem comma_wordTokens {total index : Nat} {words : List UInt32} (some_words : words ≠ [])
    (ends : index + words.length = total) :
    comma :: (placedTokens total index words).flatten =
      ((Wire.ofWords words).map byteToken).flatMap fun token => [comma, token] := by
  induction words generalizing index with
  | nil => exact absurd rfl some_words
  | cons word rest ih =>
    rw [List.length_cons] at ends
    rw [Wire.ofWords, List.flatMap_cons, ← Wire.ofWords, List.map_append, List.flatMap_append,
      placedTokens, List.zipIdx_cons, List.map_cons, List.flatten_cons]
    cases rest with
    | nil =>
      have last : (index + 1 == total) = true := by
        rw [beq_iff_eq]
        exact ends
      dsimp only
      rw [last]
      rfl
    | cons second rest =>
      have not_last : (index + 1 == total) = false := by
        rw [beq_eq_false_iff_ne]
        rw [List.length_cons] at ends
        omega
      have others := @ih (index + 1) (List.cons_ne_nil _ _) (by omega)
      dsimp only
      rw [not_last, ← others]
      rfl

theorem code_wordTokens (final : Bool) (word : UInt32) :
    (wordTokens final word).filter isCode = wordTokens final word := by
  cases final with
  | true => rfl
  | false => rfl

/-- Without comments and line breaks a region is its words. -/
theorem code_regionTokens (total : Nat) (title : String) (index : Nat) (words : List UInt32) :
    ((regionTokens total title index words).flatMap (· ++ [.lineBreak])).filter isCode =
      (placedTokens total index words).flatten := by
  have title_line : ([Token.comment (announcement (" " ++ title ++ " (") words.length)] ++
      [Token.lineBreak]).filter isCode = [] := rfl
  have line_break : [Token.lineBreak].filter isCode = [] := rfl
  have code : ∀ line ∈ placedTokens total index words,
      (line ++ [Token.lineBreak]).filter isCode = line := by
    refine forall_placedTokens fun final word => ?_
    rw [List.filter_append, code_wordTokens, line_break, List.append_nil]
  rw [regionTokens, List.flatMap_cons, List.filter_append, title_line, List.nil_append,
    List.filter_flatMap, List.flatMap_def, List.map_congr_left code, List.map_id']

/-- The regions together are the words of the image. -/
theorem code_allRegionTokens (image : Image) :
    (image.allRegionTokens.flatMap (· ++ [.lineBreak])).filter isCode =
      (placedTokens image.words.length 0 image.words).flatten := by
  simp only [allRegionTokens, List.flatMap_append, List.filter_append, code_regionTokens]
  rw [words]
  simp only [placedTokens, List.zipIdx_append, List.map_append, List.flatten_append,
    List.length_append, Nat.zero_add, Nat.add_assoc]

/-- The array without what follows it: the header, then the words. -/
def arrayTokens (image : Image) : List Token :=
  .lineBreak :: (image.preambleTokens.flatMap (· ++ [.lineBreak]) ++
    image.allRegionTokens.flatMap (· ++ [.lineBreak]))

theorem cons_tail_arrayTokens (image : Image) :
    .lineBreak :: image.arrayTokens.tail = image.arrayTokens := rfl

theorem listed_arrayTokens {image : Image} :
    ∀ token ∈ image.arrayTokens, (token != .mark ')') = true := by
  have lines : ∀ {document : List (List Token)},
      (∀ line ∈ document, ∀ token ∈ line, Listed token) →
        ∀ token ∈ document.flatMap (· ++ [.lineBreak]), (token != .mark ')') = true := by
    intro document listed token mem
    obtain ⟨line, line_mem, mem⟩ := List.mem_flatMap.1 mem
    rw [bne_iff_ne]
    rcases List.mem_append.1 mem with mem | mem
    · exact (listed line line_mem token mem).ne.1
    · exact List.mem_singleton.1 mem ▸ nofun
  intro token mem
  rcases List.mem_cons.1 mem with rfl | mem
  · rfl
  · rcases List.mem_append.1 mem with mem | mem
    · exact lines listed_preambleTokens token mem
    · exact lines listed_allRegionTokens token mem

theorem code_arrayTokens (image : Image) (some_words : image.words ≠ []) :
    image.arrayTokens.filter isCode =
      (commandToken :: image.frame.tail.map byteToken).intersperse comma := by
  have tail : image.frame.tail =
      Wire.pairBytes (UInt16.ofNat image.words.length) ++ Wire.ofWords image.words := rfl
  have preamble : (Token.lineBreak :: image.preambleTokens.flatMap (· ++ [.lineBreak])).filter
      isCode = commandToken :: ((Wire.pairBytes
        (UInt16.ofNat image.words.length)).map byteToken).flatMap (fun token => [comma, token]) ++
        [comma] := rfl
  have shifted := comma_wordTokens some_words (Nat.zero_add image.words.length)
  rw [arrayTokens, ← List.cons_append, List.filter_append, preamble, code_allRegionTokens,
    List.append_assoc, List.singleton_append, shifted, intersperse_cons, tail, List.map_append,
    List.flatMap_append, List.cons_append]

theorem document_eq (image : Image) : image.document =
    image.openingTokens.flatMap (· ++ [.lineBreak]) ++
      (image.arrayTokens.tail ++ [.mark ')', .mark ';', .lineBreak]) := by
  rw [document, stimulusTokens, List.flatMap_append, List.flatMap_append, List.flatMap_append,
    arrayTokens, List.tail_cons, List.append_assoc]
  rfl

theorem aggregate?_document (image : Image) (some_words : image.words ≠ []) :
    aggregate? image.document =
      some ((commandToken :: image.frame.tail.map byteToken).intersperse comma) := by
  have whole : Token.lineBreak :: (image.arrayTokens.tail ++ [.mark ')', .mark ';', .lineBreak]) =
      image.arrayTokens ++ [.mark ')', .mark ';', .lineBreak] := rfl
  have behind : [Token.mark ')', .mark ';', .lineBreak].takeWhile (· != .mark ')') = [] := rfl
  rw [document_eq, aggregate?, behind?_document, Option.map_some, whole,
    List.takeWhile_append_of_pos listed_arrayTokens, behind, List.append_nil,
    code_arrayTokens image some_words]

/-! ## All bytes -/

theorem byte?_byteToken (byte : UInt8) : byte? (byteToken byte) = some byte :=
  readByte?_binary byte

theorem byte?_comma : byte? comma = none := rfl

theorem bytes_commas (bytes : List UInt8) :
    ((bytes.map byteToken).flatMap fun token => [comma, token]).filterMap byte? = bytes := by
  induction bytes with
  | nil => rfl
  | cons byte rest ih =>
    rw [List.map_cons, List.flatMap_cons, List.cons_append, List.singleton_append,
      List.filterMap_cons_none byte?_comma, List.filterMap_cons_some (byte?_byteToken byte), ih]

theorem byte?_eq_none {token : Token} (no_code : isCode token = false) : byte? token = none := by
  cases token with
  | comment | lineBreak => rfl
  | word | literal | mark => cases no_code

/-- Comments and line breaks hold no bytes. -/
theorem bytes_filter_isCode (document : List Token) :
    (document.filter isCode).filterMap byte? = document.filterMap byte? := by
  rw [List.filterMap_filter]
  refine List.filterMap_congr fun token _ => ?_
  cases code : isCode token with
  | true => rfl
  | false => exact (byte?_eq_none code).symm

theorem bytes_document (image : Image) (some_words : image.words ≠ []) :
    image.document.filterMap byte? = image.frame.tail := by
  have opening : (image.openingTokens.flatMap (· ++ [.lineBreak])).filterMap byte? = [] := rfl
  have closing : [Token.mark ')', .mark ';', .lineBreak].filterMap byte? = [] := rfl
  have array : image.arrayTokens.tail.filterMap byte? = image.arrayTokens.filterMap byte? := by
    rw [← cons_tail_arrayTokens, List.filterMap_cons_none (byte?_eq_none rfl), List.tail_cons]
  have command : byte? commandToken = none := rfl
  rw [document_eq, List.filterMap_append, List.filterMap_append, opening, closing, List.nil_append,
    List.append_nil, array, ← bytes_filter_isCode, code_arrayTokens image some_words,
    intersperse_cons, List.filterMap_cons_none command, bytes_commas]

/-! ## The command by name -/

theorem decimalToken_ne (n : Nat) :
    decimalToken n ≠ .lineBreak ∧ decimalToken n ≠ commandToken := by
  refine ⟨nofun, fun same => ?_⟩
  have letter : 'C' ∈ Nat.toDigits 10 n := by
    rw [Token.word.inj same]
    decide
  cases Nat.isDigit_of_mem_toDigits (by decide) (by decide) letter

theorem constantTokens_ne {name : String} (other : Token.word name.toList ≠ commandToken)
    (value : Nat) :
    ∀ token ∈ constantTokens name value, token ≠ .lineBreak ∧ token ≠ commandToken := by
  simp only [constantTokens, List.forall_mem_cons]
  exact ⟨by decide, ⟨nofun, other⟩, by decide, by decide, by decide, by decide,
    decimalToken_ne value, by decide, nofun⟩

theorem openingTokens_ne {image : Image} : ∀ line ∈ image.openingTokens, ∀ token ∈ line,
    token ≠ .lineBreak ∧ token ≠ commandToken := by
  have bound : ∀ bound, ∀ token ∈ boundTokens bound,
      token ≠ .lineBreak ∧ token ≠ commandToken := by
    intro bound
    simp only [boundTokens, List.forall_mem_cons]
    exact ⟨by decide, by decide, by decide, by decide, by decide, by decide, by decide,
      decimalToken_ne bound, by decide, by decide, by decide, by decide, nofun⟩
  simp only [openingTokens, List.forall_mem_cons]
  exact ⟨nofun, constantTokens_ne (by decide) _, constantTokens_ne (by decide) _,
    constantTokens_ne (by decide) _, constantTokens_ne (by decide) _,
    constantTokens_ne (by decide) _, nofun, bound _, by decide, nofun⟩

theorem count_commandToken (image : Image) (some_words : image.words ≠ []) :
    image.document.count commandToken = 1 := by
  have opening : (image.openingTokens.flatMap (· ++ [.lineBreak])).count commandToken = 0 := by
    refine List.count_eq_zero.2 fun mem => ?_
    obtain ⟨line, line_mem, mem⟩ := List.mem_flatMap.1 mem
    rcases List.mem_append.1 mem with mem | mem
    · exact (openingTokens_ne line line_mem _ mem).2 rfl
    · cases List.mem_singleton.1 mem
  have closing : [Token.mark ')', .mark ';', .lineBreak].count commandToken = 0 := rfl
  have bytes : ((image.frame.tail.map byteToken).flatMap fun token => [comma, token]).count
      commandToken = 0 := by
    refine List.count_eq_zero.2 fun mem => ?_
    obtain ⟨token, token_mem, mem⟩ := List.mem_flatMap.1 mem
    obtain ⟨byte, -, rfl⟩ := List.mem_map.1 token_mem
    rcases List.mem_pair.1 mem with same | same
    · cases same
    · cases same
  have array : image.arrayTokens.tail.count commandToken = 1 := by
    have no_break : Token.lineBreak ≠ commandToken := nofun
    have code : isCode commandToken = true := rfl
    rw [← List.count_cons_of_ne no_break, cons_tail_arrayTokens, ← List.count_filter code,
      code_arrayTokens image some_words, intersperse_cons, List.count_cons_self, bytes]
  rw [document_eq, List.count_append, List.count_append, opening, array, closing]

/-! ## Lines -/

theorem lines_document (image : Image) : lines image.document = image.stimulusTokens ++ [[]] := by
  refine splitOn_closed fun line mem broken => ?_
  simp only [stimulusTokens, List.mem_append] at mem
  rcases mem with ((opening | preamble) | region) | closing
  · exact (openingTokens_ne line opening _ broken).1 rfl
  · exact (listed_preambleTokens line preamble _ broken).ne.2 rfl
  · exact (listed_allRegionTokens line region _ broken).ne.2 rfl
  · rw [List.mem_singleton.1 closing] at broken
    revert broken
    decide

theorem announced?_of_scans {front : List Char} {found : List Token}
    (opened : Scans .gap front (found ++ [.mark '(']) .gap) (count : Nat) :
    announced? (front ++ (Nat.toDigits 10 count ++ " LUTs)".toList)) = some count := by
  have closed : Scans (.word (Nat.toDigits 10 count)) " LUTs)".toList
      [decimalToken count, .word "LUTs".toList, .mark ')'] .gap := rfl
  have found_all := tokens_of_scans (opened.append ((scans_decimal count).append closed))
  have reversed : (tokens (front ++ (Nat.toDigits 10 count ++ " LUTs)".toList))).reverse =
      .mark ')' :: .word "LUTs".toList :: decimalToken count :: .mark '(' :: found.reverse := by
    rw [found_all, List.reverse_append, List.reverse_append, List.reverse_concat]
    rfl
  rw [announced?, reversed]
  exact readDecimal?_toDigits count

theorem title?_wordTokens (final : Bool) (word : UInt32) :
    title? (wordTokens final word) = none := by
  cases final with
  | true => rfl
  | false => rfl

theorem isWords_wordTokens (final : Bool) (word : UInt32) :
    isWords (wordTokens final word) = true := rfl

theorem remark?_wordTokens (final : Bool) (word : UInt32) :
    remark? (wordTokens final word) = none := by
  cases final with
  | true => rfl
  | false => rfl

theorem regions_append_of_untitled {front rest : List (List Token)}
    (untitled : ∀ line ∈ front, title? line = none) : regions (front ++ rest) = regions rest := by
  induction front with
  | nil => rfl
  | cons line front ih =>
    rw [List.cons_append, regions, untitled line List.mem_cons_self]
    exact ih fun other mem => untitled other (List.mem_cons_of_mem line mem)

/-- A region announces its words, and lines of words follow up to what is none. -/
theorem regions_regionTokens {title : String} {found : List Token}
    (opened : Scans .gap (" " ++ title ++ " (").toList (found ++ [.mark '(']) .gap)
    {rest : List (List Token)} (ends : rest.takeWhile isWords = []) (total index : Nat)
    (words : List UInt32) : regions (regionTokens total title index words ++ rest) =
      (words.length, words.length) :: regions rest := by
  have titled : title? [.comment (announcement (" " ++ title ++ " (") words.length)] =
      some words.length := announced?_of_scans opened words.length
  rw [regionTokens, List.cons_append, regions, titled]
  dsimp only
  rw [List.takeWhile_append_of_pos (forall_placedTokens isWords_wordTokens), ends,
    List.append_nil, length_placedTokens,
    regions_append_of_untitled (forall_placedTokens title?_wordTokens)]

theorem regions_document (image : Image) : regions (lines image.document) =
    [image.matchers, image.combiners, image.counts, image.flags].map
      fun words => (words.length, words.length) := by
  have matchers : Scans .gap (" " ++ "PatternMatcher LUT values" ++ " (").toList
      ([.word "PatternMatcher".toList, .word "LUT".toList, .word "values".toList] ++ [.mark '('])
      .gap := rfl
  have combiners : Scans .gap (" " ++ "Combiner LUT values" ++ " (").toList
      ([.word "Combiner".toList, .word "LUT".toList, .word "values".toList] ++ [.mark '(']) .gap :=
    rfl
  have counts : Scans .gap (" " ++ "Count LUT values" ++ " (").toList
      ([.word "Count".toList, .word "LUT".toList, .word "values".toList] ++ [.mark '(']) .gap := rfl
  have flags : Scans .gap (" " ++ "Flag LUT values" ++ " (").toList
      ([.word "Flag".toList, .word "LUT".toList, .word "values".toList] ++ [.mark '(']) .gap := rfl
  have untitled : ∀ rest, regions (image.openingTokens ++ (image.preambleTokens ++ rest)) =
      regions rest := fun rest => rfl
  rw [lines_document, stimulusTokens, allRegionTokens]
  simp only [List.append_assoc]
  rw [untitled, regions_regionTokens matchers rfl, regions_regionTokens combiners rfl,
    regions_regionTokens counts rfl, regions_regionTokens flags rfl]
  rfl

theorem remarks_document (image : Image) :
    (lines image.document).filterMap remark? = [image.words.length] := by
  have region : ∀ title index words,
      (regionTokens image.words.length title index words).filterMap remark? = [] := by
    intro title index words
    rw [regionTokens, List.filterMap_cons_none rfl, List.filterMap_eq_nil_iff]
    exact forall_placedTokens remark?_wordTokens
  have regions : image.allRegionTokens.filterMap remark? = [] := by
    simp only [allRegionTokens, List.filterMap_append, region, List.append_nil]
  have opening : image.openingTokens.filterMap remark? = [] := rfl
  have subject : Scans .gap (" ".toList ++ (Nat.toDigits 10 (4 * image.words.length) ++
      " bytes (".toList)) ([decimalToken (4 * image.words.length), .word "bytes".toList] ++
        [.mark '(']) .gap := by
    have blank : Scans .gap " ".toList [] .gap := rfl
    have unit : Scans (.word (Nat.toDigits 10 (4 * image.words.length))) " bytes (".toList
        [decimalToken (4 * image.words.length), .word "bytes".toList, .mark '('] .gap := rfl
    exact blank.append ((scans_decimal _).append unit)
  have header : remark? (headerTokens image.words.length
      (Wire.pairBytes (UInt16.ofNat image.words.length))) = some image.words.length := by
    have announced := announced?_of_scans subject image.words.length
    simp only [List.append_assoc] at announced
    exact announced
  have preamble : image.preambleTokens.filterMap remark? = [image.words.length] := by
    rw [preambleTokens, List.filterMap_cons_none rfl, List.filterMap_cons_some header]
    rfl
  have closing : [[Token.mark ')', .mark ';']].filterMap remark? = [] := rfl
  have last : [([] : List Token)].filterMap remark? = [] := rfl
  rw [lines_document, stimulusTokens, List.filterMap_append, List.filterMap_append,
    List.filterMap_append, List.filterMap_append, opening, preamble, regions, closing, last]
  rfl

/-! ## The whole testbench -/

/-- An image with any words at all is loaded by its stimulus. -/
theorem loads_document (image : Image) (some_words : image.words ≠ []) :
    Loads image.document image where
  command := rfl
  bytes := bytes_document image some_words
  mentions := count_commandToken image some_words
  elements := aggregate?_document image some_words
  bound := by
    have positive := List.length_pos_of_ne_nil some_words
    refine ⟨4 * image.words.length - 1 + 3, ?_, ?_⟩
    · rw [document_eq]
      exact bound?_document image _
    · rw [length_frame]
      omega
  announced := regions_document image
  total := by
    rw [remarks_document, regions_document, words]
    simp only [List.length_append, List.map_cons, List.map_nil, List.sum_cons, List.sum_nil,
      Nat.add_zero, Nat.add_assoc]

end Image

/-- The stimulus of every program is a testbench that loads its image: byte by byte it
is the frame of the image. -/
theorem Program.loads_stimulus (p : Program) :
    Testbench.Loads (tokens p.compile.stimulus.toList) p.compile := by
  have some_words : p.compile.words ≠ [] := by
    intro none
    have length := congrArg List.length none
    simp only [Image.words, List.length_append, p.length_flags, List.length_nil] at length
    omega
  rw [Image.tokens_stimulus]
  exact p.compile.loads_document some_words

end LogicCapture
