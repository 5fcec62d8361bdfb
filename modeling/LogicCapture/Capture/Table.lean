import LogicCapture.Capture.Library
import LogicCapture.Capture.Reading
import LogicCapture.Decimal.Layout

/-!
Readings as tables: a row per sample with its time, its raw value, and the
level of each channel asked for. A table is also written as comma-separated
text with a header line. Both are done by a library of tables; `Table.library`
is one that keeps its columns in a list.
-/

namespace LogicCapture

/-! ## Tables of readings -/

namespace Reading

section Library

variable {Frame Failure : Type} (lib : TableLibrary Frame Failure)

/-- The columns of every table: the time of each sample and its value. -/
def sampleColumns (r : Reading) : List Column :=
  [⟨"time", .floats ((List.range r.samples.length).map r.time)⟩,
    ⟨"raw", .numbers (r.samples.map UInt16.toUInt32)⟩]

def channelColumn (r : Reading) (bit : Nat) : Column :=
  ⟨s!"bit_{bit}", .levels (r.channel bit)⟩

/-- The table of the first `channels` channels. -/
def frame (r : Reading) (channels : Nat) : Except Failure Frame := do
  if sampleBits < channels then
    throw (lib.outOfBounds s!"{channels} channels requested, samples carry {sampleBits}")
  let frame ← lib.make r.sampleColumns
  (List.range channels).foldlM (fun frame bit => lib.add (r.channelColumn bit) frame) frame

/-- Writes the table of the first `channels` channels behind what was written so
far. -/
def writeCsv (r : Reading) (channels : Nat) : EStateM Failure String Unit := do
  let frame ← MonadExcept.ofExcept (r.frame lib channels)
  lib.writeCsv true frame

end Library

end Reading

/-! ## Columns in a list -/

/-- Columns of one length, each under a name of its own. -/
structure Table where
  columns : List Column
  height : Nat
  length_column : ∀ column ∈ columns, column.entries.length = height
  names_nodup : (columns.map Column.name).Nodup

inductive TableError where
  | outOfBounds (text : String)
  /-- The columns are not of one length. -/
  | uneven
  /-- Two columns have one name. -/
  | sameName

namespace Table

/-- Length of the first column, which stands for all. -/
def leadLength : List Column → Nat
  | [] => 0
  | column :: _ => column.entries.length

def make (columns : List Column) : Except TableError Table :=
  if even : ∀ column ∈ columns, column.entries.length = leadLength columns then
    if different : (columns.map Column.name).Nodup then
      .ok ⟨columns, leadLength columns, even, different⟩
    else .error .sameName
  else .error .uneven

/-- Adds a column of cells to rows of text. -/
def addCells (rows cells : List String) : List String :=
  List.zipWith (fun row cell => row ++ "," ++ cell) rows cells

/-- Every row as text, its cells separated by commas. -/
def rows (t : Table) : List String :=
  match t.columns.map fun column => column.entries.texts Decimal.Layout.table.writeFloat with
  | [] => []
  | first :: rest => rest.foldl addCells first

/-- The table as text: the names if asked for, then a line per row. -/
def csv (header : Bool) (t : Table) : String :=
  let lines := if header then ",".intercalate (t.columns.map Column.name) :: t.rows else t.rows
  String.join (lines.map (· ++ "\n"))

def library : TableLibrary Table TableError where
  outOfBounds := .outOfBounds
  make := make
  add := fun column t => make (t.columns ++ [column])
  columns := columns
  height := height
  spell := Decimal.Layout.table.writeFloat
  writeCsv := fun header t => modify (· ++ t.csv header)

end Table

end LogicCapture
