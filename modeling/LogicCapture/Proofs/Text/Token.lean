import LogicCapture.Text.Digits
import Mathlib.Data.Nat.Digits.Defs

/-!
# Tokens

A scanner for hardware descriptions: words, bit strings in quotes, comments up to
the end of their line, line breaks, and single marks for all else but blanks. It is a
machine that takes one character after the other, so what it makes of a text follows
from what it makes of the parts (`Scans.append`). Numbers that were written in digits
are read back.
-/

namespace LogicCapture.Text

/-! ## The scanner -/

inductive Token where
  | word (letters : List Char)
  /-- What stands between quotes. -/
  | literal (digits : List Char)
  | mark (c : Char)
  /-- What stands behind two dashes. -/
  | comment (text : List Char)
  | lineBreak
deriving DecidableEq

/-- What the scanner is in the middle of. -/
inductive Mode where
  | gap
  | word (letters : List Char)
  | literal (digits : List Char)
  | dash
  | comment (text : List Char)

/-- Words are made of letters, digits and underscores. -/
def isLetter (c : Char) : Bool := c.isAlphanum || c == '_'

namespace Mode

/-- What begins with a character that belongs to nothing before it. -/
def begin (c : Char) : List Token × Mode :=
  if isLetter c then ([], word [c])
  else if c = '\n' then ([.lineBreak], gap)
  else if c = ' ' then ([], gap)
  else if c = '"' then ([], literal [])
  else if c = '-' then ([], dash)
  else ([.mark c], gap)

/-- Tokens that end with the next character, and what the scanner is in after it. -/
def next : Mode → Char → List Token × Mode
  | gap, c => begin c
  | word letters, c =>
    if isLetter c then ([], word (letters ++ [c])) else (.word letters :: (begin c).1, (begin c).2)
  | literal digits, c => if c = '"' then ([.literal digits], gap) else ([], literal (digits ++ [c]))
  | dash, c => if c = '-' then ([], comment []) else (.mark '-' :: (begin c).1, (begin c).2)
  | comment text, c =>
    if c = '\n' then ([.comment text, .lineBreak], gap) else ([], comment (text ++ [c]))

/-- What the end of the text makes of it; quotes that are open stay a mark. -/
def finish : Mode → List Token
  | gap => []
  | word letters => [.word letters]
  | literal digits => [.mark '"', .word digits]
  | dash => [.mark '-']
  | comment text => [.comment text]

end Mode

/-- Takes one character after the other. -/
def scan : Mode → List Char → List Token × Mode
  | mode, [] => ([], mode)
  | mode, c :: rest =>
    let (found, between) := mode.next c
    let (more, last) := scan between rest
    (found ++ more, last)

/-- The tokens of a text. -/
def tokens (text : List Char) : List Token :=
  (scan .gap text).1 ++ (scan .gap text).2.finish

/-! ## Scanning by parts -/

/-- Between two modes the scanner finds these tokens in the text. -/
def Scans (mode : Mode) (text : List Char) (found : List Token) (last : Mode) : Prop :=
  scan mode text = (found, last)

variable {mode between last : Mode} {text rest : List Char} {found more : List Token}

theorem Scans.nil : Scans mode [] [] mode := rfl

theorem Scans.cons {c : Char} (first : mode.next c = (found, between))
    (others : Scans between rest more last) : Scans mode (c :: rest) (found ++ more) last := by
  have rest_scanned : scan between rest = (more, last) := others
  rw [Scans, scan, first]
  dsimp only
  rw [rest_scanned]

theorem Scans.append (first : Scans mode text found between)
    (second : Scans between rest more last) :
    Scans mode (text ++ rest) (found ++ more) last := by
  induction text generalizing mode found with
  | nil =>
    cases first
    exact second
  | cons c text ih =>
    rcases step : mode.next c with ⟨now, later⟩
    rcases scanned : scan later text with ⟨others, reached⟩
    have all : scan mode (c :: text) = (now ++ others, reached) := by
      rw [scan, step]
      dsimp only
      rw [scanned]
    cases all.symm.trans first
    rw [List.cons_append, List.append_assoc]
    exact .cons step (ih scanned)

theorem tokens_of_scans (scans : Scans .gap text found .gap) : tokens text = found := by
  have scanned : scan .gap text = (found, .gap) := scans
  rw [tokens, scanned]
  exact List.append_nil found

/-! ## Parts -/

theorem scans_letters {letters : List Char} (all : ∀ c ∈ letters, isLetter c = true)
    (before : List Char) : Scans (.word before) letters [] (.word (before ++ letters)) := by
  induction letters generalizing before with
  | nil => exact (List.append_nil before).symm ▸ .nil
  | cons c rest ih =>
    have taken : (Mode.word before).next c = ([], .word (before ++ [c])) :=
      if_pos (all c List.mem_cons_self)
    have others := ih (fun d mem => all d (List.mem_cons_of_mem c mem)) (before ++ [c])
    rw [List.append_assoc, List.singleton_append] at others
    exact .cons taken others

theorem scans_word {letters : List Char} (all : ∀ c ∈ letters, isLetter c = true)
    (some_letters : letters ≠ []) : Scans .gap letters [] (.word letters) := by
  obtain ⟨c, rest, rfl⟩ := List.exists_cons_of_ne_nil some_letters
  have begun : Mode.gap.next c = ([], .word [c]) := if_pos (all c List.mem_cons_self)
  exact .cons begun (scans_letters (fun d mem => all d (List.mem_cons_of_mem c mem)) [c])

theorem scans_gap (width : Nat) : Scans .gap (List.replicate width ' ') [] .gap := by
  induction width with
  | zero => exact .nil
  | succ width ih => exact .cons rfl ih

/-- Blanks end a word. -/
theorem scans_word_gap (letters : List Char) (width : Nat) :
    Scans (.word letters) (List.replicate width ' ' ++ [' ']) [.word letters] .gap := by
  cases width with
  | zero => exact .cons rfl .nil
  | succ width =>
    have ended : (Mode.word letters).next ' ' = ([.word letters], .gap) := rfl
    exact .cons ended ((scans_gap width).append (.cons rfl .nil))

theorem scans_literal {digits : List Char} (closed : '"' ∉ digits) :
    Scans .gap ('"' :: (digits ++ ['"'])) [.literal digits] .gap := by
  have inside : ∀ before, Scans (.literal before) digits [] (.literal (before ++ digits)) := by
    induction digits with
    | nil => exact fun before => (List.append_nil before).symm ▸ .nil
    | cons c rest ih =>
      intro before
      have taken : (Mode.literal before).next c = ([], .literal (before ++ [c])) :=
        if_neg (List.ne_of_not_mem_cons closed).symm
      have others := ih (List.not_mem_of_not_mem_cons closed) (before ++ [c])
      rw [List.append_assoc, List.singleton_append] at others
      exact .cons taken others
  exact .cons rfl ((inside []).append (.cons rfl .nil))

theorem scans_comment {more : List Char} (one_line : '\n' ∉ more) (before : List Char) :
    Scans (.comment before) more [] (.comment (before ++ more)) := by
  induction more generalizing before with
  | nil => exact (List.append_nil before).symm ▸ .nil
  | cons c rest ih =>
    have taken : (Mode.comment before).next c = ([], .comment (before ++ [c])) :=
      if_neg (List.ne_of_not_mem_cons one_line).symm
    have others := ih (List.not_mem_of_not_mem_cons one_line) (before ++ [c])
    rw [List.append_assoc, List.singleton_append] at others
    exact .cons taken others

/-- Single tokens with commas between them. -/
theorem scans_commas {parts : List (List Char × Token)}
    (each : ∀ part ∈ parts, Scans .gap part.1 [part.2] .gap) :
    Scans .gap ([',', ' '].intercalate (parts.map Prod.fst))
      ((parts.map Prod.snd).intersperse (.mark ',')) .gap := by
  induction parts with
  | nil => exact .nil
  | cons part rest ih =>
    have first := each part List.mem_cons_self
    have others := ih fun other mem => each other (List.mem_cons_of_mem part mem)
    cases rest with
    | nil =>
      rw [List.map_singleton, List.map_singleton, List.intercalate_singleton]
      exact first
    | cons second rest =>
      have comma : Scans .gap [',', ' '] [.mark ','] .gap := rfl
      rw [List.map_cons, List.map_cons, List.map_cons, List.map_cons,
        List.intercalate_cons_cons, List.intersperse_cons_cons]
      exact (first.append comma).append others

/-! ## Lines -/

/-- Parts that are all closed by the same stop, which is in none of them. -/
theorem splitOn_closed {α : Type} [BEq α] [LawfulBEq α] {stop : α} {parts : List (List α)}
    (free : ∀ part ∈ parts, stop ∉ part) :
    (parts.flatMap (· ++ [stop])).splitOn stop = parts ++ [[]] := by
  induction parts with
  | nil => rfl
  | cons part rest ih =>
    have others := ih fun other mem => free other (List.mem_cons_of_mem part mem)
    rw [List.flatMap_cons, List.append_assoc, List.singleton_append,
      List.splitOn_append_cons_self_of_not_mem (free part List.mem_cons_self), others]
    rfl

/-! ## Numbers -/

/-- The number that decimal digits stand for. -/
def readDecimal? (digits : List Char) : Option Nat :=
  if digits ≠ [] ∧ digits.all Char.isDigit then some (Nat.ofDigitChars 10 digits 0) else none

/-- The byte that eight binary digits stand for. -/
def readByte? (digits : List Char) : Option UInt8 :=
  if digits.length = 8 ∧ digits.all (fun c => c == '0' || c == '1') then
    some (UInt8.ofNat (Nat.ofDigitChars 2 digits 0))
  else none

theorem toString_text (text : String) : toString text = text := rfl

theorem toList_toString (n : Nat) : (toString n).toList = Nat.toDigits 10 n := Nat.toList_repr

theorem isLetter_of_isDigit {c : Char} (digit : c.isDigit = true) : isLetter c = true := by
  rw [isLetter, Char.isAlphanum, digit, Bool.or_true, Bool.true_or]

theorem isLetter_of_mem_toDigits {n : Nat} : ∀ c ∈ Nat.toDigits 10 n, isLetter c = true :=
  fun _ mem => isLetter_of_isDigit (Nat.isDigit_of_mem_toDigits (by decide) (by decide) mem)

theorem toDigits_ne_nil (base n : Nat) : Nat.toDigits base n ≠ [] :=
  List.ne_nil_of_length_pos Nat.length_toDigits_pos

theorem readDecimal?_toDigits (n : Nat) : readDecimal? (Nat.toDigits 10 n) = some n := by
  have digits : (Nat.toDigits 10 n).all Char.isDigit = true :=
    List.all_eq_true.2 fun c mem => Nat.isDigit_of_mem_toDigits (by decide) (by decide) mem
  rw [readDecimal?, if_pos ⟨toDigits_ne_nil 10 n, digits⟩, Nat.ofDigitChars_ten_toDigits]

theorem scans_decimal (n : Nat) :
    Scans .gap (Nat.toDigits 10 n) [] (.word (Nat.toDigits 10 n)) :=
  scans_word isLetter_of_mem_toDigits (toDigits_ne_nil 10 n)

theorem bit_of_mem_toDigits {n : Nat} {c : Char} (mem : c ∈ Nat.toDigits 2 n) :
    c = '0' ∨ c = '1' := by
  induction n using Nat.strongRecOn with
  | ind n ih =>
    rcases Nat.lt_or_ge n 2 with small | large
    · rw [Nat.toDigits_of_lt_base small] at mem
      have only := List.mem_singleton.1 mem
      obtain rfl | rfl : n = 0 ∨ n = 1 := by omega
      · exact .inl only
      · exact .inr only
    · have split := Nat.toDigits_append_toDigits (b := 2) (n := n / 2) (d := n % 2)
        (by decide) (by omega) (by omega)
      rw [Nat.div_add_mod] at split
      rw [← split] at mem
      rcases List.mem_append.1 mem with high | low
      · exact ih (n / 2) (by omega) high
      · exact ih (n % 2) (by omega) low

theorem toList_binary (byte : UInt8) : (binary 8 byte.toNat).toList =
    List.replicate (8 - (Nat.toDigits 2 byte.toNat).length) '0' ++ Nat.toDigits 2 byte.toNat := by
  rw [binary, padLeft, String.toList_append, String.toList_ofList, String.toList_ofList,
    String.length_ofList]

theorem bit_of_mem_binary {byte : UInt8} {c : Char} (mem : c ∈ (binary 8 byte.toNat).toList) :
    c = '0' ∨ c = '1' := by
  rw [toList_binary] at mem
  rcases List.mem_append.1 mem with leading | digit
  · exact .inl (List.eq_of_mem_replicate leading)
  · exact bit_of_mem_toDigits digit

theorem ofDigitChars_zeros (width : Nat) (digits : List Char) :
    Nat.ofDigitChars 2 (List.replicate width '0' ++ digits) 0 = Nat.ofDigitChars 2 digits 0 := by
  induction width with
  | zero => rfl
  | succ width ih => exact ih

theorem readByte?_binary (byte : UInt8) : readByte? (binary 8 byte.toNat).toList = some byte := by
  have short : (Nat.toDigits 2 byte.toNat).length ≤ 8 :=
    Nat.toDigits_length 2 byte.toNat 8 (by decide) byte.toNat_lt
  have length : (binary 8 byte.toNat).toList.length = 8 := by
    rw [toList_binary, List.length_append, List.length_replicate]
    omega
  have bits : (binary 8 byte.toNat).toList.all (fun c => c == '0' || c == '1') = true := by
    refine List.all_eq_true.2 fun c mem => ?_
    rcases bit_of_mem_binary mem with rfl | rfl
    · rfl
    · rfl
  rw [readByte?, if_pos ⟨length, bits⟩, toList_binary, ofDigitChars_zeros,
    Nat.ofDigitChars_toDigits (by decide) (by decide), UInt8.ofNat_toNat]

end LogicCapture.Text
