import LogicCapture.Capture.Table
import LogicCapture.Proofs.Text.Token
import Mathlib.Data.List.Nodup

/-!
# Tables that are kept in a list

`Table.library` keeps the columns of a table in a list and makes its rows by putting
one column after the other behind what there is of them. `Table.library_documented`
says that it does what is relied on of a library; for the text that takes the columns
turned into rows, and decimals without a comma in them.
-/

namespace LogicCapture

/-! ## Characters of cells -/

namespace PlainText

variable {text more : List Char}

theorem unseparated (plain : PlainText text) : Unseparated text :=
  ⟨fun mem => absurd (plain ',' mem) (by decide), fun mem => absurd (plain '\n' mem) (by decide)⟩

theorem nil : PlainText [] := nofun

theorem cons {c : Char} (first : c.isAlphanum = true ∨ c = '_' ∨ c = '.' ∨ c = '-')
    (rest : PlainText text) : PlainText (c :: text) :=
  List.forall_mem_cons.2 ⟨first, rest⟩

theorem append (first : PlainText text) (second : PlainText more) : PlainText (text ++ more) :=
  List.forall_mem_append.2 ⟨first, second⟩

theorem sublist (plain : PlainText text) (part : more.Sublist text) : PlainText more :=
  fun c mem => plain c (part.subset mem)

theorem letters (all : text.all Char.isAlphanum = true) : PlainText text :=
  fun c mem => .inl (List.all_eq_true.1 all c mem)

theorem zeros (n : Nat) : PlainText (List.replicate n '0') :=
  letters (List.all_eq_true.2 fun _ mem => List.eq_of_mem_replicate mem ▸ rfl)

theorem digits (n : Nat) : PlainText (Nat.toDigits 10 n) := by
  intro c mem
  have digit : c.isDigit = true := Nat.isDigit_of_mem_toDigits (by decide) (by decide) mem
  exact .inl (by rw [Char.isAlphanum, digit, Bool.or_true])

theorem number (n : Nat) : PlainText (toString n).toList := by
  rw [Text.toList_toString]
  exact digits n

theorem integer (n : Int) : PlainText (toString n).toList := by
  cases n with
  | ofNat n => exact number n
  | negSucc n =>
    have signed : (toString (Int.negSucc n)).toList = '-' :: (toString (n + 1)).toList := by
      rw [← List.singleton_append]
      exact String.toList_append
    rw [signed]
    exact .cons (.inr (.inr (.inr rfl))) (number _)

theorem level (level : Bool) : PlainText (toString level).toList := by
  cases level with
  | false => exact letters rfl
  | true => exact letters rfl

end PlainText

namespace Decimal.Layout

/-- A decimal has no character that separates cells, positional or with an exponent. -/
theorem plain_write (l : Layout) (s : Scaled) : PlainText (l.write s).toList := by
  have digits := PlainText.digits s.digits
  have point : ∀ {text}, PlainText text → PlainText ('.' :: text) := fun plain =>
    .cons (.inr (.inr (.inl rfl))) plain
  have zero : ∀ {text}, PlainText text → PlainText ('0' :: text) := fun plain =>
    .cons (.inl rfl) plain
  rw [write, String.toList_ofList]
  split
  · exact (digits.append (.zeros _)).append (point (zero .nil))
  · split
    · exact (digits.sublist (List.take_sublist _ _)).append
        (point (digits.sublist (List.drop_sublist _ _)))
    · split
      · exact zero (point (.append (.zeros _) digits))
      · refine .append (.append (digits.sublist (List.take_sublist _ _)) ?_)
          (.cons (.inl rfl) (.integer _))
        split
        · exact .nil
        · exact point (digits.sublist (List.drop_sublist _ _))

theorem plain_writeBits (l : Layout) (bits : UInt64) : PlainText (l.writeBits bits).toList := by
  have sign : PlainText (if bits.toNat / (1 <<< 63) = 1 then "-" else "").toList := by
    split
    · exact .cons (.inr (.inr (.inr rfl))) .nil
    · exact .nil
  rw [writeBits]
  split
  · split
    · rw [String.toList_append]
      exact sign.append (.letters rfl)
    · exact .letters rfl
  · split
    · rw [String.toList_append]
      exact sign.append (.cons (.inl rfl) (.cons (.inr (.inr (.inl rfl))) (.cons (.inl rfl) .nil)))
    · rw [String.toList_append]
      exact sign.append (l.plain_write _)

end Decimal.Layout

/-! ## Rows -/

namespace Table

/-- Two columns of the same rows side by side. -/
theorem addCells_map {α : Type} (rows : List α) (front cell : α → String) :
    addCells (rows.map front) (rows.map cell) =
      rows.map fun row => front row ++ "," ++ cell row := by
  rw [addCells, List.zipWith_map, List.zipWith_self]

/-- Columns that are added one after the other make up lines of cells. -/
theorem foldl_addCells {α β : Type} (rows : List α) (columns : List β) (front : α → String)
    (cell : β → α → String) :
    columns.foldl (fun text column => addCells text (rows.map (cell column))) (rows.map front) =
      rows.map fun row => ",".intercalate (front row :: columns.map (cell · row)) := by
  induction columns generalizing front with
  | nil =>
    refine List.map_congr_left fun row _ => ?_
    exact String.intercalate_singleton.symm
  | cons column rest ih =>
    rw [List.foldl_cons, addCells_map, ih]
    rfl

/-- A column is written over the numbers of the rows. -/
theorem texts_eq_map_range {t : Table} {column : Column} (mem : column ∈ t.columns)
    (spell : Float → String) : column.entries.texts spell =
      (List.range t.height).map fun index => (column.entries.texts spell).getD index "" := by
  have length : (column.entries.texts spell).length = t.height := by
    rw [Entries.length_texts, t.length_column column mem]
  refine List.ext_getElem (by rw [length, List.length_map, List.length_range]) ?_
  intro index lt lt'
  rw [List.getElem_map, List.getElem_range, List.getD_eq_getElem?_getD,
    List.getElem?_eq_getElem lt, Option.getD_some]

/-- The columns, put together one after the other, are the rows. -/
theorem rows_eq {t : Table} (some_columns : t.columns ≠ []) : t.rows =
    (List.range t.height).map fun index => ",".intercalate (library.row t index) := by
  have written := List.map_congr_left fun column mem =>
    @texts_eq_map_range t column mem Decimal.Layout.table.writeFloat
  obtain ⟨first, rest, columns⟩ := List.exists_cons_of_ne_nil some_columns
  have row : ∀ index, library.row t index = (first :: rest).map fun column =>
      (column.entries.texts Decimal.Layout.table.writeFloat).getD index "" := by
    intro index
    rw [← columns]
    rfl
  rw [rows, written, columns, List.map_cons]
  dsimp only
  rw [List.foldl_map, foldl_addCells]
  simp only [row, List.map_cons]

/-! ## The library -/

theorem make_of_even {columns : List Column} {height : Nat}
    (even : ∀ column ∈ columns, column.entries.length = height)
    (different : (columns.map Column.name).Nodup) :
    ∃ t : Table, make columns = .ok t ∧ t.columns = columns := by
  have lead : ∀ column ∈ columns, column.entries.length = leadLength columns := by
    intro column mem
    obtain ⟨first, rest, rfl⟩ := List.exists_cons_of_ne_nil (List.ne_nil_of_mem mem)
    rw [even column mem]
    exact (even first List.mem_cons_self).symm
  rw [make, dif_pos lead, dif_pos different]
  exact ⟨_, rfl, rfl⟩

/-- Columns in a list do all that is relied on of a library. -/
theorem library_documented : library.Documented where
  make_columns := make_of_even
  add_column := by
    intro t column length fresh
    refine @make_of_even _ t.height ?_ ?_
    · intro other mem
      rcases List.mem_append.1 mem with old | new
      · exact t.length_column other old
      · rw [List.mem_singleton.1 new]
        exact length
    · rw [List.map_append, List.map_singleton, ← List.concat_eq_append]
      exact t.names_nodup.concat fresh
  length_column := fun {t column} mem => t.length_column column mem
  write_lines := by
    intro t some_columns _ header written
    have text : t.csv header = String.join ((library.lines header t).map (· ++ "\n")) := by
      rw [csv, rows_eq some_columns]
      rfl
    rw [← text]
    rfl
  spell_unseparated := fun _ => (Decimal.Layout.plain_writeBits _ _).unseparated

end Table

end LogicCapture
