/-!
Libraries of tables. A reading is handed out as a frame of a library that is not
part of this development: how it stores columns and how it writes them is up to
it. `TableLibrary.Documented` is what is relied on.
-/

namespace LogicCapture

/-! ## Columns -/

/-- The entries of a column, all of one kind. -/
inductive Entries where
  | floats (values : List Float)
  | numbers (values : List UInt32)
  | levels (values : List Bool)

namespace Entries

def length : Entries → Nat
  | floats values => values.length
  | numbers values => values.length
  | levels values => values.length

/-- The entries as text, if `spell` spells floating numbers. -/
def texts (spell : Float → String) : Entries → List String
  | floats values => values.map spell
  | numbers values => values.map fun value => toString value.toNat
  | levels values => values.map toString

theorem length_texts (spell : Float → String) (entries : Entries) :
    (entries.texts spell).length = entries.length := by
  cases entries with
  | floats values => exact List.length_map _
  | numbers values => exact List.length_map _
  | levels values => exact List.length_map _

end Entries

structure Column where
  name : String
  entries : Entries

/-! ## Libraries -/

/-- What a library does with columns. Writing adds to the text so far, and may fail
with part of it written. -/
structure TableLibrary (Frame Failure : Type) where
  /-- The failure of those who ask for more than there is. -/
  outOfBounds : String → Failure
  make : List Column → Except Failure Frame
  add : Column → Frame → Except Failure Frame
  columns : Frame → List Column
  /-- Number of rows. -/
  height : Frame → Nat
  spell : Float → String
  writeCsv : (header : Bool) → Frame → EStateM Failure String Unit

/-- Text without a character that has a meaning between cells: letters, digits,
underscores, points and dashes. -/
def PlainText (text : List Char) : Prop :=
  ∀ c ∈ text, c.isAlphanum = true ∨ c = '_' ∨ c = '.' ∨ c = '-'

/-- Text that neither ends a cell nor a line. -/
def Unseparated (text : List Char) : Prop := ',' ∉ text ∧ '\n' ∉ text

namespace TableLibrary

variable {Frame Failure : Type}

def names (lib : TableLibrary Frame Failure) (frame : Frame) : List String :=
  (lib.columns frame).map Column.name

/-- The cells of one row. -/
def row (lib : TableLibrary Frame Failure) (frame : Frame) (index : Nat) : List String :=
  (lib.columns frame).map fun column => (column.entries.texts lib.spell).getD index ""

/-- Comma-separated text: a line per row, behind one with the names if asked for. -/
def lines (lib : TableLibrary Frame Failure) (header : Bool) (frame : Frame) : List String :=
  let rows := (List.range (lib.height frame)).map fun index => ",".intercalate (lib.row frame index)
  if header then ",".intercalate (lib.names frame) :: rows else rows

/-- What is known of a library: columns of one length under different names make a
frame, one more is added behind them, and frames are written line by line. Nothing is
said about columns that do not go together, nor about names that would be quoted. -/
structure Documented (lib : TableLibrary Frame Failure) : Prop where
  make_columns : ∀ {columns : List Column} {height : Nat},
    (∀ column ∈ columns, column.entries.length = height) → (columns.map Column.name).Nodup →
      ∃ frame, lib.make columns = .ok frame ∧ lib.columns frame = columns
  add_column : ∀ {frame : Frame} {column : Column},
    column.entries.length = lib.height frame → column.name ∉ lib.names frame →
      ∃ wider, lib.add column frame = .ok wider ∧
        lib.columns wider = lib.columns frame ++ [column]
  length_column : ∀ {frame : Frame} {column : Column}, column ∈ lib.columns frame →
    column.entries.length = lib.height frame
  write_lines : ∀ {frame : Frame}, lib.columns frame ≠ [] →
    (∀ name ∈ lib.names frame, PlainText name.toList) → ∀ header written,
      lib.writeCsv header frame written =
        .ok () (written ++ String.join ((lib.lines header frame).map (· ++ "\n")))
  spell_unseparated : ∀ value, Unseparated (lib.spell value).toList

end TableLibrary

end LogicCapture
