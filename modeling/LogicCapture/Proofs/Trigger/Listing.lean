import LogicCapture.Analyser.Log
import LogicCapture.Proofs.Text.Token
import LogicCapture.Proofs.Trigger.Spelling

/-!
# Steps as they are listed

A step is written on one line: the operation, the conditions in their order, a word if
the matches have to be contiguous, and the count. The parts differ in length, and there
may be any number of conditions, but a part and whatever follows it can always be told
apart: an operation and a polarity are filled up to a fixed width, a pattern ends at the
comma, and the second letter of what comes next says whether it is a condition.
`Program.listing_unambiguous` puts this together: equal lines are lines of equal steps.
-/

namespace LogicCapture

open Text

/-- Two texts that agree up to a stop that is in neither of them. -/
theorem append_stop_injective {stop : Char} {text other rest rest' : List Char}
    (free : stop ∉ text) (free' : stop ∉ other)
    (same : text ++ stop :: rest = other ++ stop :: rest') : text = other ∧ rest = rest' := by
  have split := congrArg (List.splitOn stop) same
  rw [List.splitOn_append_cons_self_of_not_mem free,
    List.splitOn_append_cons_self_of_not_mem free'] at split
  obtain rfl := (List.cons.inj split).1
  exact ⟨rfl, (List.cons.inj (List.append_cancel_left same)).2⟩

theorem toDigits_injective {n m : Nat} (same : Nat.toDigits 10 n = Nat.toDigits 10 m) : n = m := by
  have read := congrArg (Nat.ofDigitChars 10 · 0) same
  simpa only [Nat.ofDigitChars_ten_toDigits] using read

/-! ## Words of a fixed width -/

namespace Operation

/-- The operation as it is listed. -/
def column (op : Operation) : List Char := (Text.padRight 3 op.name).toList

theorem length_column (op : Operation) : op.column.length = 3 := by cases op <;> rfl

theorem column_injective {op other : Operation} (same : op.column = other.column) :
    op = other := by
  revert same
  cases op <;> cases other <;> decide

end Operation

namespace Polarity

/-- The polarity as it is listed. -/
def column (polarity : Polarity) : List Char := (Text.padRight 8 polarity.name).toList

theorem length_column (polarity : Polarity) : polarity.column.length = 8 := by
  cases polarity <;> rfl

theorem column_injective {polarity other : Polarity} (same : polarity.column = other.column) :
    polarity = other := by
  revert same
  cases polarity <;> cases other <;> decide

end Polarity

/-! ## The parts of a line -/

theorem Symbol.letter_ne_comma (symbol : Symbol) : symbol.letter ≠ ',' := by
  cases symbol <;> decide

theorem Pattern.comma_not_mem_text (p : Pattern) : ',' ∉ p.text.toList := by
  intro mem
  rw [Pattern.text, String.toList_ofList] at mem
  obtain ⟨symbol, -, comma⟩ := List.mem_map.1 mem
  exact symbol.letter_ne_comma comma

namespace Step

/-- The letters of the conditions from number `index` on. -/
def conditionLetters : (index : Nat) → List Condition → List Char
  | _, [] => []
  | index, c :: rest => (conditionText index c).toList ++ conditionLetters (index + 1) rest

/-- What stands behind the conditions: whether the matches have to be contiguous, and
the count. -/
def closingLetters (contiguous : Bool) (count : UInt16) : List Char :=
  (if contiguous then " Contiguous".toList else []) ++
    (" Count = ".toList ++ Nat.toDigits 10 count.toNat)

variable {index : Nat} {c d : Condition} {rest rest' : List Char}

theorem toList_conditionText (index : Nat) (c : Condition) : (conditionText index c).toList =
    " T".toList ++ (Nat.toDigits 10 index ++ ('[' :: (c.pattern.text.toList ++
      (',' :: (' ' :: (c.polarity.column ++ [']'])))))) := by
  simp only [conditionText, Polarity.column, toString_text, toList_toString, String.toList_append,
    List.append_assoc]
  rfl

theorem toList_join_conditionText (index : Nat) (conditions : List Condition) :
    (String.join (conditions.mapIdx fun i => conditionText (index + i))).toList =
      conditionLetters index conditions := by
  induction conditions generalizing index with
  | nil => rfl
  | cons c others ih =>
    have later : (fun i => conditionText (index + (i + 1))) =
        fun i => conditionText (index + 1 + i) := by
      funext i
      rw [Nat.add_assoc, Nat.add_comm 1 i]
    rw [List.mapIdx_cons, String.join_cons, String.toList_append, later, ih, Nat.add_zero,
      conditionLetters]

theorem toList_text (s : Step) : s.text.toList = s.operation.column ++
    (conditionLetters 0 s.conditions ++ closingLetters s.contiguous s.count) := by
  have conditions := toList_join_conditionText 0 s.conditions
  simp only [Nat.zero_add] at conditions
  have word : (if s.contiguous then " Contiguous" else "").toList =
      if s.contiguous then " Contiguous".toList else [] := by
    split <;> rfl
  simp only [text, Operation.column, closingLetters, toString_text, toList_toString,
    String.toList_append, conditions, word, List.append_assoc]

example : text {
    conditions := [⟨⟨[.any, .any, .any, .rising]⟩, .normal⟩,
      ⟨⟨[.any, .any, .high, .low]⟩, .inverted⟩]
    operation := .disj, contiguous := true, count := 7 } =
    "Or  T0[XXXR, Normal  ] T1[XXHL, Inverted] Contiguous Count = 7" := by cbv

/-- A condition tells where it ends. -/
theorem conditionText_append_injective
    (same : (conditionText index c).toList ++ rest = (conditionText index d).toList ++ rest') :
    c = d ∧ rest = rest' := by
  simp only [toList_conditionText, List.append_assoc, List.cons_append, List.append_cancel_left_eq,
    List.cons.injEq, true_and] at same
  obtain ⟨patterns, later⟩ := append_stop_injective c.pattern.comma_not_mem_text
    d.pattern.comma_not_mem_text same
  have lengths : c.polarity.column.length = d.polarity.column.length := by
    rw [Polarity.length_column, Polarity.length_column]
  obtain ⟨polarities, behind⟩ := List.append_inj (List.cons.inj later).2 lengths
  have pattern := Pattern.text_injective (String.toList_inj.1 patterns)
  have polarity := Polarity.column_injective polarities
  cases c
  cases d
  cases pattern
  cases polarity
  exact ⟨rfl, (List.cons.inj behind).2⟩

theorem closingLetters_injective {contiguous contiguous' : Bool} {count count' : UInt16}
    (same : closingLetters contiguous count = closingLetters contiguous' count') :
    contiguous = contiguous' ∧ count = count' := by
  have counts {n m : UInt16} (digits : " Count = ".toList ++ Nat.toDigits 10 n.toNat =
      " Count = ".toList ++ Nat.toDigits 10 m.toNat) : n = m :=
    UInt16.toNat_inj.1 (toDigits_injective (List.append_cancel_left digits))
  -- the fourth letter tells the two words apart
  cases contiguous <;> cases contiguous'
  · exact ⟨rfl, counts same⟩
  · have letter : some 'u' = some 'n' := congrArg (·[3]?) same
    cases letter
  · have letter : some 'n' = some 'u' := congrArg (·[3]?) same
    cases letter
  · exact ⟨rfl, counts (List.append_cancel_left same)⟩

/-- The second letter of a condition is not that of what stands behind all of them. -/
theorem conditionText_append_ne_closing {contiguous : Bool} {count : UInt16} :
    (conditionText index c).toList ++ rest ≠ closingLetters contiguous count := by
  intro same
  rw [toList_conditionText] at same
  have letter : some 'T' = some 'C' := by
    cases contiguous
    · exact congrArg (·[1]?) same
    · exact congrArg (·[1]?) same
  cases letter

/-- From the conditions on a line tells all that the step has. -/
theorem conditionLetters_append_injective {conditions conditions' : List Condition}
    {contiguous contiguous' : Bool} {count count' : UInt16}
    (same : conditionLetters index conditions ++ closingLetters contiguous count =
      conditionLetters index conditions' ++ closingLetters contiguous' count') :
    conditions = conditions' ∧ contiguous = contiguous' ∧ count = count' := by
  induction conditions generalizing index conditions' with
  | nil =>
    cases conditions' with
    | nil => exact ⟨rfl, closingLetters_injective same⟩
    | cons d others' =>
      rw [conditionLetters, conditionLetters, List.nil_append, List.append_assoc] at same
      exact absurd same.symm conditionText_append_ne_closing
  | cons c others ih =>
    cases conditions' with
    | nil =>
      rw [conditionLetters, conditionLetters, List.nil_append, List.append_assoc] at same
      exact absurd same conditionText_append_ne_closing
    | cons d others' =>
      rw [conditionLetters, conditionLetters, List.append_assoc, List.append_assoc] at same
      obtain ⟨rfl, later⟩ := conditionText_append_injective same
      obtain ⟨rfl, closing⟩ := ih later
      exact ⟨rfl, closing⟩

/-- Steps that are written alike are the same. -/
theorem text_injective {s t : Step} (same : s.text = t.text) : s = t := by
  have letters := congrArg String.toList same
  rw [toList_text, toList_text] at letters
  have lengths : s.operation.column.length = t.operation.column.length := by
    rw [Operation.length_column, Operation.length_column]
  obtain ⟨operations, others⟩ := List.append_inj letters lengths
  have operation := Operation.column_injective operations
  obtain ⟨conditions, contiguous, count⟩ := conditionLetters_append_injective others
  cases s
  cases t
  subst operation conditions contiguous count
  rfl

end Step

namespace Program

/-- The lines that list the active steps of a program. -/
def lines (p : Program) : List String := p.listing.map LogLine.text

/-- Line number `i` is that of active step number `i`. -/
theorem getElem?_lines (p : Program) (i : Nat) :
    p.lines[i]? = (p.active[i]?).map fun step => (LogLine.stepListed i step).text := by
  rw [lines, List.getElem?_map, listing, List.getElem?_mapIdx, Option.map_map]
  rfl

theorem active_eq_of_lines {p q : Program} (same : p.lines = q.lines) : p.active = q.active := by
  have told (i : Nat) : Function.Injective fun step => (LogLine.stepListed i step).text := by
    intro s t equal
    have behind : ": " ++ s.text = ": " ++ t.text := (String.append_right_inj _).1 equal
    exact Step.text_injective ((String.append_right_inj ": ").1 behind)
  refine List.ext_getElem? fun i => ?_
  have line := congrArg (·[i]?) same
  simp only [getElem?_lines] at line
  exact Option.map_injective (told i) line

/-- A line tells its step. Steps of any shape are written alike only if they are the
same step, so the lines that list two programs are the same exactly if the programs have
the same active steps. -/
theorem listing_unambiguous :
    (∀ s t : Step, s.text = t.text ↔ s = t) ∧
      ∀ p q : Program, p.lines = q.lines ↔ p.active = q.active := by
  refine ⟨fun s t => ⟨Step.text_injective, congrArg Step.text⟩, fun p q => ⟨active_eq_of_lines, ?_⟩⟩
  intro same
  refine List.ext_getElem? fun i => ?_
  rw [getElem?_lines, getElem?_lines, same]

end Program

end LogicCapture
