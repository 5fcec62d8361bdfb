import LogicCapture.Trigger.Pattern

/-!
# How patterns are spelled

A symbol has its own letter, the small form of that letter, and for high and low a digit
(`Symbol.spellings`). A text of such letters spells a pattern: short text is filled up
with X on the left, and so every text has one form in which it is written out
(`Pattern.paddedForm`). `Pattern.parseWithin_reads_spelling` says that reading follows
the spelling letter by letter, which text it refuses and for which letter, that it reads
back what was written, and that two texts are read as one pattern exactly when they have
one form. Only a pattern that is too wide to exist is not made.
-/

namespace LogicCapture

/-- A list of which not all are as they should be has a first one that is not. -/
theorem exists_first_failing {α : Type} {Fine : α → Prop} {l : List α}
    (failing : ¬ ∀ x ∈ l, Fine x) :
    ∃ front x back, l = front ++ x :: back ∧ (∀ y ∈ front, Fine y) ∧ ¬ Fine x := by
  induction l with
  | nil => exact absurd (fun x mem => absurd mem List.not_mem_nil) failing
  | cons first rest ih =>
    by_cases fine : Fine first
    · obtain ⟨front, x, back, rfl, others, wrong⟩ := ih fun all =>
        failing (List.forall_mem_cons.2 ⟨fine, all⟩)
      exact ⟨first :: front, x, back, rfl, List.forall_mem_cons.2 ⟨fine, others⟩, wrong⟩
    · exact ⟨[], first, rest, rfl, nofun, fine⟩

/-! ## Letters -/

namespace Symbol

/-- All letters that stand for a symbol. -/
def spellings : List (Char × Symbol) :=
  [('X', any), ('x', any), ('H', high), ('h', high), ('1', high), ('L', low), ('l', low),
    ('0', low), ('R', rising), ('r', rising), ('F', falling), ('f', falling), ('C', change),
    ('c', change)]

/-- The letter stands for a symbol. -/
def IsSpelling (c : Char) : Prop := c ∈ spellings.map Prod.fst

instance : DecidablePred IsSpelling := fun c =>
  inferInstanceAs (Decidable (c ∈ spellings.map Prod.fst))

/-- The letters are looked at one by one, not all characters that there are. -/
instance (letters : List Char) : Decidable (∀ c ∈ letters, IsSpelling c) :=
  List.decidableBAll IsSpelling letters

/-- What a letter stands for, and nothing in particular if it is no spelling. -/
def meaning (c : Char) : Symbol := (spellings.lookup c).getD any

/-- The letter that the symbol of a letter is written as. -/
def canonical (c : Char) : Char := (meaning c).letter

/-- A letter is its own upper case, unless it is one of the 26 small ones. -/
theorem toUpper_eq_self_or (c : Char) : c.toUpper = c ∨ ∃ n < 26, c = Char.ofNat (97 + n) := by
  by_cases small : 'a'.val ≤ c.val ∧ c.val ≤ 'z'.val
  · right
    have low : 97 ≤ c.toNat := small.1
    have high : c.toNat ≤ 122 := small.2
    refine ⟨c.toNat - 97, by omega, ?_⟩
    rw [Nat.add_sub_cancel' low, Char.ofNat_toNat]
  · exact .inl (dif_neg small)

theorem ofChar?_of_isSpelling {c : Char} (spelling : IsSpelling c) :
    ofChar? c = some (meaning c) := by
  have each : ∀ entry ∈ spellings, ofChar? entry.1 = some (meaning entry.1) := by decide
  obtain ⟨entry, mem, rfl⟩ := List.mem_map.1 spelling
  exact each entry mem

/-- Reading takes no letter beyond the spellings. -/
theorem ofChar?_of_not_isSpelling {c : Char} (stray : ¬ IsSpelling c) : ofChar? c = none := by
  rcases toUpper_eq_self_or c with kept | ⟨n, lt, rfl⟩
  · rw [ofChar?, kept]
    split
    case h_9 => rfl
    all_goals exact absurd (by decide) stray
  · have each : ∀ n < 26, ¬ IsSpelling (Char.ofNat (97 + n)) →
        ofChar? (Char.ofNat (97 + n)) = none := by decide
    exact each n lt stray

end Symbol

namespace Pattern

open LogicCapture.Symbol

/-! ## Texts -/

/-- The first of these letters that stands for no symbol. -/
def FirstStray (letters : List Char) (stray : Char) : Prop :=
  ∃ front back, letters = front ++ stray :: back ∧ (∀ c ∈ front, IsSpelling c) ∧
    ¬ IsSpelling stray

/-- The text spells a pattern for this many channels. -/
def Spells (text : String) (channels : Nat) : Prop :=
  (∀ c ∈ text.toList, IsSpelling c) ∧ text.length ≤ channels

/-- The text as it is written out: filled up with X on the left, and every letter the one
that its symbol is written as. -/
def paddedForm (text : String) (channels : Nat) : String :=
  String.ofList (List.replicate (channels - text.length) 'X' ++ text.toList.map canonical)

/-- The pattern that a text spells. -/
def spelled (text : String) (channels : Nat) : Pattern :=
  ⟨List.replicate (channels - text.length) any ++ text.toList.map meaning⟩

variable {text other : String} {channels : Nat} {letters : List Char}

/-- Letters that are not all spellings have a first stray one. -/
theorem exists_firstStray (stray : ¬ ∀ c ∈ letters, IsSpelling c) :
    ∃ c, FirstStray letters c := by
  obtain ⟨front, c, back, rfl, fine, wrong⟩ := exists_first_failing stray
  exact ⟨c, front, back, rfl, fine, wrong⟩

theorem parseLetters_of_spellings (all : ∀ c ∈ letters, IsSpelling c) :
    parseLetters letters = .ok (letters.map meaning) := by
  induction letters with
  | nil => rfl
  | cons first rest ih =>
    obtain ⟨spelling, others⟩ := List.forall_mem_cons.1 all
    rw [parseLetters, ofChar?_of_isSpelling spelling, ih others]
    rfl

theorem parseLetters_of_firstStray {stray : Char} (first : FirstStray letters stray) :
    parseLetters letters = .error (.invalidSymbol stray) := by
  obtain ⟨front, back, rfl, fine, wrong⟩ := first
  induction front with
  | nil => rw [List.nil_append, parseLetters, ofChar?_of_not_isSpelling wrong]
  | cons letter front ih =>
    obtain ⟨spelling, others⟩ := List.forall_mem_cons.1 fine
    rw [List.cons_append, parseLetters, ofChar?_of_isSpelling spelling, ih others]
    rfl

/-! ## Reading a text -/

theorem parse_of_firstStray {stray : Char} (first : FirstStray text.toList stray)
    (channels : Nat) : parse text channels = .error (.invalidSymbol stray) := by
  rw [parse, parseLetters_of_firstStray first]
  rfl

theorem parse_of_spellings (all : ∀ c ∈ text.toList, IsSpelling c) (channels : Nat) :
    parse text channels =
      if channels < text.length then .error (.patternTooWide text channels)
      else .ok (spelled text channels) := by
  have length : (text.toList.map meaning).length = text.length := by
    rw [List.length_map, String.length_toList]
  rw [parse, parseLetters_of_spellings all, spelled, ← length]
  dsimp only [bind, Except.bind]
  split
  · rfl
  · rfl

theorem parse_of_spells (spells : Spells text channels) :
    parse text channels = .ok (spelled text channels) := by
  rw [parse_of_spellings spells.1, if_neg (Nat.not_lt_of_le spells.2)]

/-- The texts that are read, and what they are read as. -/
theorem parse_eq_ok_iff {p : Pattern} :
    parse text channels = .ok p ↔ Spells text channels ∧ p = spelled text channels := by
  refine ⟨fun read => ?_, fun ⟨spells, eq⟩ => eq ▸ parse_of_spells spells⟩
  by_cases all : ∀ c ∈ text.toList, IsSpelling c
  · rw [parse_of_spellings all] at read
    split at read
    · cases read
    · next narrow => exact ⟨⟨all, Nat.le_of_not_lt narrow⟩, (Except.ok.inj read).symm⟩
  · obtain ⟨stray, first⟩ := exists_firstStray all
    rw [parse_of_firstStray first] at read
    cases read

theorem parseWithin_of_le (within : channels ≤ mostChannels) (text : String) :
    parseWithin text channels = (parse text channels).map some :=
  if_pos within

theorem parseWithin_eq_some_iff (within : channels ≤ mostChannels) {p : Pattern} :
    parseWithin text channels = .ok (some p) ↔
      Spells text channels ∧ p = spelled text channels := by
  rw [parseWithin_of_le within, ← parse_eq_ok_iff]
  cases parse text channels with
  | error cause => exact iff_of_false nofun nofun
  | ok read => exact ⟨fun eq => by cases eq; rfl, fun eq => by cases eq; rfl⟩

theorem parseWithin_of_firstStray {stray : Char} (first : FirstStray text.toList stray)
    (channels : Nat) : parseWithin text channels = .error (.invalidSymbol stray) := by
  rw [parseWithin, parse_of_firstStray first, parseLetters_of_firstStray first]
  split
  · rfl
  · rfl

theorem parseWithin_of_beyond (all : ∀ c ∈ text.toList, IsSpelling c)
    (beyond : mostChannels < channels) : parseWithin text channels = .ok none := by
  rw [parseWithin, if_neg (Nat.not_le_of_lt beyond), parseLetters_of_spellings all]
  rfl

/-- A letter is reported exactly if it is the first stray one. -/
theorem parseWithin_eq_invalidSymbol_iff {stray : Char} :
    parseWithin text channels = .error (.invalidSymbol stray) ↔
      FirstStray text.toList stray := by
  refine ⟨fun refused => ?_, fun first => parseWithin_of_firstStray first channels⟩
  by_cases all : ∀ c ∈ text.toList, IsSpelling c
  · rcases Nat.lt_or_ge mostChannels channels with beyond | within
    · rw [parseWithin_of_beyond all beyond] at refused
      cases refused
    · rw [parseWithin_of_le within, parse_of_spellings all] at refused
      split at refused
      · cases refused
      · cases refused
  · obtain ⟨first, isFirst⟩ := exists_firstStray all
    rw [parseWithin_of_firstStray isFirst] at refused
    cases refused
    exact isFirst

/-! ## The pattern that is read -/

theorem width_spelled (narrow : text.length ≤ channels) :
    (spelled text channels).width = channels := by
  rw [width, spelled, List.length_append, List.length_replicate, List.length_map,
    String.length_toList, Nat.sub_add_cancel narrow]

theorem text_spelled (text : String) (channels : Nat) :
    (spelled text channels).text = paddedForm text channels := by
  rw [Pattern.text, spelled, List.map_append, List.map_replicate, List.map_map]
  rfl

/-- The channels from 0 on have the symbols of the letters from the right on. -/
theorem channel?_spelled_of_lt {i : Nat} (lt : i < text.length) :
    (spelled text channels).channel? i = (text.toList.reverse[i]?).map meaning := by
  have inside : i < (text.toList.map meaning).reverse.length := by
    rwa [List.length_reverse, List.length_map, String.length_toList]
  rw [channel?, spelled, List.reverse_append, List.getElem?_append_left inside,
    ← List.map_reverse, List.getElem?_map]

/-- Channels without a letter may do as they like. -/
theorem channel?_spelled_of_le {i : Nat} (le : text.length ≤ i) (lt : i < channels) :
    (spelled text channels).channel? i = some any := by
  have length : (text.toList.map meaning).reverse.length = text.length := by
    rw [List.length_reverse, List.length_map, String.length_toList]
  rw [channel?, spelled, List.reverse_append, List.getElem?_append_right (by omega), length,
    List.reverse_replicate, List.getElem?_replicate, if_pos (by omega)]

theorem letter_injective {a b : Symbol} (same : a.letter = b.letter) : a = b := by
  have read := congrArg ofChar? same
  rw [ofChar?_letter, ofChar?_letter] at read
  exact Option.some.inj read

/-- Patterns that are written alike are the same. -/
theorem text_injective {p q : Pattern} (same : p.text = q.text) : p = q := by
  have letters := String.ofList_injective same
  have symbols := (List.map_inj_right fun _ _ => letter_injective).1 letters
  cases p
  cases q
  exact congrArg Pattern.mk symbols

theorem spelled_eq_spelled_iff :
    spelled text channels = spelled other channels ↔
      paddedForm text channels = paddedForm other channels := by
  rw [← text_spelled, ← text_spelled]
  exact ⟨congrArg Pattern.text, text_injective⟩

/-- Reading follows the spelling. The first letter that is no spelling is reported as it
stands; if all are spellings, a text with more letters than there are channels is; any
other text is read as a pattern with a symbol for each channel, which is written as the
padded form of the text, and has the meaning of the letters from the right in its
channels and no condition on the others. What was written is read back, and two texts
are read as one pattern exactly when both spell one and their padded forms agree. A
pattern of more channels than can be numbered does not exist: only a stray letter is
reported then, and nothing is read otherwise. -/
theorem parseWithin_reads_spelling (text : String) (channels : Nat) :
    (∀ stray, parseWithin text channels = .error (.invalidSymbol stray) ↔
      FirstStray text.toList stray) ∧
    ((∀ c ∈ text.toList, IsSpelling c) → channels ≤ mostChannels →
      (parseWithin text channels = .error (.patternTooWide text channels) ↔
        channels < text.length) ∧
      (text.length ≤ channels → ∃ p, parseWithin text channels = .ok (some p) ∧
        p.width = channels ∧ p.text = paddedForm text channels ∧
        (∀ i < text.length, p.channel? i = (text.toList.reverse[i]?).map meaning) ∧
        ∀ i, text.length ≤ i → i < channels → p.channel? i = some any)) ∧
    (∀ p : Pattern, p.width ≤ mostChannels → parseWithin p.text p.width = .ok (some p)) ∧
    (channels ≤ mostChannels → ∀ other,
      (∃ p, parseWithin text channels = .ok (some p) ∧
        parseWithin other channels = .ok (some p)) ↔
      Spells text channels ∧ Spells other channels ∧
        paddedForm text channels = paddedForm other channels) ∧
    ((∀ c ∈ text.toList, IsSpelling c) → mostChannels < channels →
      parseWithin text channels = .ok none) := by
  refine ⟨fun stray => parseWithin_eq_invalidSymbol_iff, fun all within => ⟨?_, fun narrow => ?_⟩,
    fun p within => ?_, fun within other => ?_, parseWithin_of_beyond⟩
  · rw [parseWithin_of_le within, parse_of_spellings all]
    split
    · next wide => exact iff_of_true rfl wide
    · next fits => exact iff_of_false nofun fits
  · have read := (parseWithin_eq_some_iff within).2 ⟨⟨all, narrow⟩, rfl⟩
    exact ⟨spelled text channels, read, width_spelled narrow, text_spelled text channels,
      fun i => channel?_spelled_of_lt, fun i => channel?_spelled_of_le⟩
  · rw [parseWithin_of_le within, parse_text]
    rfl
  · simp only [parseWithin_eq_some_iff within, ← spelled_eq_spelled_iff]
    constructor
    · rintro ⟨p, ⟨spells, eq⟩, spells', eq'⟩
      exact ⟨spells, spells', eq.symm.trans eq'⟩
    · rintro ⟨spells, spells', same⟩
      exact ⟨spelled text channels, ⟨spells, rfl⟩, spells', same⟩

/-- Two letters, one small and one a digit, on four channels; a stray letter after them. -/
theorem parseWithin_reads_spelling_edge :
    (∃ p, parseWithin "r1" 4 = .ok (some p) ∧ p.text = "XXRH" ∧ p.channel? 0 = some high ∧
      p.channel? 2 = some any) ∧
    parseWithin "r1é" 2 = .error (.invalidSymbol 'é') := by
  obtain ⟨-, reads, -⟩ := parseWithin_reads_spelling "r1" 4
  obtain ⟨-, narrow⟩ := reads (by decide) (by decide)
  obtain ⟨p, read, -, text, letters, free⟩ := narrow (by decide)
  obtain ⟨stray, -⟩ := parseWithin_reads_spelling "r1é" 2
  refine ⟨⟨p, read, text.trans (by decide), letters 0 (by decide), free 2 (by decide) (by decide)⟩,
    (stray 'é').2 ⟨['r', '1'], [], rfl, by decide, by decide⟩⟩

/-- No letter at all spells a pattern of any width, but not of so many channels. -/
theorem parseWithin_empty_beyond :
    Spells "" 9223372036854775808 ∧ ¬ ∃ p, parseWithin "" 9223372036854775808 = .ok (some p) := by
  have all : ∀ c ∈ "".toList, IsSpelling c := by decide
  refine ⟨⟨all, Nat.zero_le _⟩, fun ⟨p, read⟩ => ?_⟩
  rw [parseWithin_of_beyond all (by decide)] at read
  cases read

end Pattern

end LogicCapture
