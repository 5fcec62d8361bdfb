import LogicCapture.Proofs.Capture.Library
import LogicCapture.Proofs.Image.WordBits
import Mathlib.Algebra.BigOperators.Group.List.Basic
import Mathlib.Data.List.Forall2

/-!
# Tables read back

A table is built column by column but its text is read line by line.
`Reading.exists_frame` says which columns a documented library is left with, and
`Reading.row_eq` what the cells of a row are then. As no cell has a comma or a line
break in it, the lines of the text and the fields of a line are those that were
written, and `Reading.tables_keep_samples` reads the samples back from them.
-/

namespace LogicCapture

open Text

/-! ## Lines read back -/

section Cells

variable {cells : List String} (apart : ∀ cell ∈ cells, Unseparated cell.toList)

include apart

theorem splitOn_cells (some_cells : cells ≠ []) :
    (",".intercalate cells).toList.splitOn ',' = cells.map String.toList := by
  rw [String.toList_intercalate]
  refine List.splitOn_intercalate ',' (fun text mem => ?_) (mt List.map_eq_nil_iff.1 some_cells)
  obtain ⟨cell, listed, rfl⟩ := List.mem_map.1 mem
  exact (apart cell listed).1

theorem no_lineBreak_cells : '\n' ∉ (",".intercalate cells).toList := by
  induction cells with
  | nil => exact List.not_mem_nil
  | cons cell rest ih =>
    have first := (apart cell List.mem_cons_self).2
    have others := ih fun other mem => apart other (List.mem_cons_of_mem cell mem)
    cases rest with
    | nil => rwa [String.intercalate_singleton]
    | cons second rest =>
      rw [String.intercalate_cons_cons, String.toList_append, String.toList_append,
        List.mem_append, List.mem_append]
      rintro ((inFirst | comma) | later)
      · exact first inFirst
      · exact absurd comma (by decide)
      · exact others later

end Cells

/-- Lines that are closed by a line break each. -/
theorem splitOn_lines {lines : List String} (whole : ∀ line ∈ lines, '\n' ∉ line.toList) :
    (String.join (lines.map (· ++ "\n"))).toList.splitOn '\n' =
      lines.map String.toList ++ [[]] := by
  have closed : (String.join (lines.map (· ++ "\n"))).toList =
      (lines.map String.toList).flatMap (· ++ ['\n']) := by
    rw [String.toList_join, List.flatMap_map, List.flatMap_map]
    exact List.flatMap_congr fun line _ => String.toList_append
  rw [closed, splitOn_closed]
  intro text mem
  obtain ⟨line, listed, rfl⟩ := List.mem_map.1 mem
  exact whole line listed

/-- The level that a field spells. -/
def readLevel? (field : List Char) : Option Bool :=
  if field = "true".toList then some true
  else if field = "false".toList then some false
  else none

/-- The value and the levels in the fields of a line. What the first field says is
left aside. -/
def readRow? (line : List Char) : Option (Nat × List Bool) :=
  match line.splitOn ',' with
  | _ :: raw :: levels => do return (← readDecimal? raw, ← levels.mapM readLevel?)
  | _ => none

theorem readLevel?_toString (level : Bool) : readLevel? (toString level).toList = some level := by
  cases level <;> decide

theorem mapM_readLevel? (bits : List Nat) (level : Nat → Bool) :
    (bits.map fun bit => (toString (level bit)).toList).mapM readLevel? =
      some (bits.map level) := by
  induction bits with
  | nil => rfl
  | cons bit rest ih =>
    rw [List.map_cons, List.mapM_cons, readLevel?_toString, ih]
    rfl

/-- The line has a field for the time, one for the value of the sample, and one for
each of its first `channels` bits. -/
structure Tells (channels : Nat) (line : List Char) (sample : UInt16) : Prop where
  fields : (line.splitOn ',').length = channels + 2
  read : readRow? line = some (sample.toNat, (List.range channels).map sample.toNat.testBit)

/-- A number is the sum of its bits, each at its place. -/
theorem sum_mapIdx_range (n : Nat) (level : Nat → Bool) :
    (((List.range n).map level).mapIdx fun bit level => level.toNat * 2 ^ bit).sum =
      bitsBelow n level := by
  induction n with
  | zero => rfl
  | succ n ih =>
    rw [List.range_succ, List.map_append, List.mapIdx_append, List.sum_append, ih, bitsBelow,
      List.length_map, List.length_range, List.map_singleton, List.mapIdx_singleton,
      List.sum_singleton, Nat.zero_add, Nat.one_shiftLeft]
    cases level n with
    | false => rw [Bool.toNat_false, Nat.zero_mul, if_neg Bool.false_ne_true]
    | true => rw [Bool.toNat_true, Nat.one_mul, if_pos rfl]

namespace Reading

variable {Frame Failure : Type} {lib : TableLibrary Frame Failure} {frame : Frame}

/-! ## The columns of a table -/

/-- The columns of a table of the first `channels` channels. -/
def columns (r : Reading) (channels : Nat) : List Column :=
  r.sampleColumns ++ (List.range channels).map r.channelColumn

variable (r : Reading) {channels : Nat}

theorem columns_succ (channels : Nat) :
    r.columns (channels + 1) = r.columns channels ++ [r.channelColumn channels] := by
  rw [columns, columns, List.range_succ, List.map_append, List.map_singleton, List.append_assoc]

theorem length_channel (bit : Nat) : (r.channel bit).length = r.samples.length :=
  List.length_map _

theorem toList_channelName (bit : Nat) :
    (r.channelColumn bit).name.toList = "bit_".toList ++ (toString bit).toList :=
  String.toList_append

theorem channelName_inj {bit other : Nat}
    (same : (r.channelColumn bit).name = (r.channelColumn other).name) : bit = other := by
  have spelled := congrArg String.toList same
  rw [toList_channelName, toList_channelName] at spelled
  have digits := List.append_cancel_left spelled
  rw [toList_toString, toList_toString] at digits
  have read := congrArg readDecimal? digits
  rw [readDecimal?_toDigits, readDecimal?_toDigits] at read
  exact Option.some.inj read

theorem sampleColumns_names : r.sampleColumns.map Column.name = ["time", "raw"] := rfl

/-- No channel is called as one of the other columns. -/
theorem channelName_fresh (bit : Nat) :
    (r.channelColumn bit).name ∉ r.sampleColumns.map Column.name := by
  have first : (r.channelColumn bit).name.toList.head? = some 'b' := by
    rw [toList_channelName]
    rfl
  rw [sampleColumns_names]
  intro mem
  rcases List.mem_pair.1 mem with same | same
  · rw [same] at first
    exact absurd first (by decide)
  · rw [same] at first
    exact absurd first (by decide)

theorem plain_names (channels : Nat) :
    ∀ name ∈ (r.columns channels).map Column.name, PlainText name.toList := by
  intro name mem
  rw [columns, List.map_append, sampleColumns_names] at mem
  rcases List.mem_append.1 mem with lead | level
  · rcases List.mem_pair.1 lead with rfl | rfl
    · exact .letters rfl
    · exact .letters rfl
  · obtain ⟨column, listed, rfl⟩ := List.mem_map.1 level
    obtain ⟨bit, -, rfl⟩ := List.mem_map.1 listed
    rw [toList_channelName]
    have start : PlainText "bit_".toList :=
      .append (.letters (show "bit".toList.all Char.isAlphanum = true from rfl))
        (.cons (.inr (.inl rfl)) .nil)
    exact start.append (.number bit)

/-! ## Building it -/

section Documented

variable (documented : lib.Documented)

include documented

theorem height_eq (columns : lib.columns frame = r.columns channels) :
    lib.height frame = r.samples.length := by
  have raw : ⟨"raw", .numbers (r.samples.map UInt16.toUInt32)⟩ ∈ lib.columns frame := by
    rw [columns]
    exact List.mem_append_left _ (List.mem_cons_of_mem _ List.mem_cons_self)
  rw [← documented.length_column raw]
  exact List.length_map _

/-- Channels are added behind the columns that there are. -/
theorem exists_channels (made : lib.columns frame = r.columns 0) (channels : Nat) :
    ∃ wider, (List.range channels).foldlM
        (fun frame bit => lib.add (r.channelColumn bit) frame) frame = .ok wider ∧
      lib.columns wider = r.columns channels := by
  induction channels with
  | zero => exact ⟨frame, rfl, made⟩
  | succ channels ih =>
    obtain ⟨before, added, columns⟩ := ih
    have long : (r.channelColumn channels).entries.length = lib.height before := by
      rw [r.height_eq documented columns]
      exact r.length_channel channels
    have fresh : (r.channelColumn channels).name ∉ lib.names before := by
      rw [TableLibrary.names, columns, Reading.columns, List.map_append]
      intro mem
      rcases List.mem_append.1 mem with lead | level
      · exact r.channelName_fresh channels lead
      · obtain ⟨column, listed, same⟩ := List.mem_map.1 level
        obtain ⟨bit, below, rfl⟩ := List.mem_map.1 listed
        exact absurd (r.channelName_inj same) (Nat.ne_of_lt (List.mem_range.1 below))
    obtain ⟨wider, last, columns'⟩ := documented.add_column long fresh
    refine ⟨wider, ?_, by rw [columns', columns, columns_succ]⟩
    rw [List.range_succ, List.foldlM_append, added]
    exact (bind_pure (lib.add (r.channelColumn channels) before)).trans last

/-- With channels that samples carry there is a table, column by column. -/
theorem exists_frame (few : channels ≤ 16) :
    ∃ frame, r.frame lib channels = .ok frame ∧ lib.columns frame = r.columns channels := by
  have even : ∀ column ∈ r.sampleColumns, column.entries.length = r.samples.length := by
    refine List.forall_mem_cons.2 ⟨?_, List.forall_mem_singleton.2 ?_⟩
    · exact (List.length_map _).trans List.length_range
    · exact List.length_map _
  have different : (r.sampleColumns.map Column.name).Nodup := by
    change ["time", "raw"].Nodup
    decide
  obtain ⟨lead, made, columns⟩ := documented.make_columns even different
  have none_yet : lib.columns lead = r.columns 0 := columns.trans (List.append_nil _).symm
  obtain ⟨wider, added, columns'⟩ := r.exists_channels documented none_yet channels
  refine ⟨wider, ?_, columns'⟩
  have carried : ¬ sampleBits < channels := Nat.not_lt_of_le few
  rw [Reading.frame, if_neg carried]
  change lib.make r.sampleColumns >>= _ = _
  rw [made]
  exact added

end Documented

/-! ## Its rows -/

/-- The cells of the row of a sample. -/
theorem row_eq (columns : lib.columns frame = r.columns channels) {index : Nat} {sample : UInt16}
    (sampleAt : r.samples[index]? = some sample) : lib.row frame index =
      lib.spell (r.time index) :: toString sample.toNat :: (List.range channels).map fun bit =>
        toString (decide (bit < sampleBits) && sample.toNat.testBit bit) := by
  have within : index < r.samples.length := (List.getElem?_eq_some_iff.1 sampleAt).1
  have time : (((List.range r.samples.length).map r.time).map lib.spell).getD index "" =
      lib.spell (r.time index) := by
    rw [List.getD_eq_getElem?_getD, List.getElem?_map, List.getElem?_map,
      List.getElem?_range within]
    rfl
  have raw : ((r.samples.map UInt16.toUInt32).map fun value => toString value.toNat).getD index "" =
      toString sample.toNat := by
    rw [List.getD_eq_getElem?_getD, List.getElem?_map, List.getElem?_map, sampleAt,
      Option.map_some, Option.map_some, Option.getD_some, UInt16.toNat_toUInt32]
  have level : ∀ bit, ((r.channel bit).map toString).getD index "" =
      toString (decide (bit < sampleBits) && sample.toNat.testBit bit) := by
    intro bit
    rw [List.getD_eq_getElem?_getD, List.getElem?_map, channel, List.getElem?_map, sampleAt,
      Option.map_some, Option.map_some, Option.getD_some, and_channelMask_ne_zero]
  have cells : lib.row frame index =
      (((List.range r.samples.length).map r.time).map lib.spell).getD index "" ::
      ((r.samples.map UInt16.toUInt32).map fun value => toString value.toNat).getD index "" ::
      (List.range channels).map fun bit => ((r.channel bit).map toString).getD index "" := by
    rw [TableLibrary.row, columns, Reading.columns, List.map_append, List.map_map]
    rfl
  rw [cells, time, raw, List.map_congr_left fun bit _ => level bit]

theorem unseparated_row (documented : lib.Documented)
    (columns : lib.columns frame = r.columns channels) {index : Nat} {sample : UInt16}
    (sampleAt : r.samples[index]? = some sample) :
    ∀ cell ∈ lib.row frame index, Unseparated cell.toList := by
  rw [r.row_eq columns sampleAt]
  refine List.forall_mem_cons.2 ⟨documented.spell_unseparated _,
    List.forall_mem_cons.2 ⟨(PlainText.number _).unseparated, fun cell mem => ?_⟩⟩
  obtain ⟨bit, -, rfl⟩ := List.mem_map.1 mem
  exact (PlainText.level _).unseparated

/-- The row of a sample tells what it is. -/
theorem tells_row (documented : lib.Documented) (few : channels ≤ 16)
    (columns : lib.columns frame = r.columns channels) {index : Nat} {sample : UInt16}
    (sampleAt : r.samples[index]? = some sample) :
    Tells channels (",".intercalate (lib.row frame index)).toList sample := by
  have row := r.row_eq columns sampleAt
  have split := splitOn_cells (r.unseparated_row documented columns sampleAt)
    (by rw [row]; exact List.cons_ne_nil _ _)
  rw [row] at split ⊢
  refine ⟨?_, ?_⟩
  · rw [split, List.length_map, List.length_cons, List.length_cons, List.length_map,
      List.length_range]
  · have levels : ((List.range channels).map fun bit =>
        decide (bit < sampleBits) && sample.toNat.testBit bit) =
          (List.range channels).map sample.toNat.testBit := by
      refine List.map_congr_left fun bit mem => ?_
      have within : bit < sampleBits := Nat.lt_of_lt_of_le (List.mem_range.1 mem) few
      rw [decide_eq_true within, Bool.true_and]
    rw [readRow?, split, List.map_cons, List.map_cons, List.map_map]
    dsimp only
    rw [toList_toString, readDecimal?_toDigits]
    have read := mapM_readLevel? (List.range channels)
      fun bit => decide (bit < sampleBits) && sample.toNat.testBit bit
    rw [levels] at read
    exact congrArg (Option.bind · _) read

/-- The text of a table has a line for the names and one for every sample. -/
theorem lines_read (documented : lib.Documented) (few : channels ≤ 16)
    (columns : lib.columns frame = r.columns channels) :
    ∃ header lines, (String.join ((lib.lines true frame).map (· ++ "\n"))).toList.splitOn '\n' =
        header :: lines ++ [[]] ∧
      header.splitOn ',' = (lib.names frame).map String.toList ∧
      List.Forall₂ (Tells channels) lines r.samples := by
  have height := r.height_eq documented columns
  have names : ∀ name ∈ lib.names frame, Unseparated name.toList := by
    rw [TableLibrary.names, columns]
    exact fun name mem => (r.plain_names channels name mem).unseparated
  have sampleAt : ∀ index < r.samples.length, ∃ sample, r.samples[index]? = some sample :=
    fun index lt => ⟨_, List.getElem?_eq_getElem lt⟩
  have whole : ∀ line ∈ lib.lines true frame, '\n' ∉ line.toList := by
    refine List.forall_mem_cons.2 ⟨no_lineBreak_cells names, fun line mem => ?_⟩
    obtain ⟨index, below, rfl⟩ := List.mem_map.1 mem
    rw [height, List.mem_range] at below
    obtain ⟨sample, there⟩ := sampleAt index below
    exact no_lineBreak_cells (r.unseparated_row documented columns there)
  refine ⟨_, _, splitOn_lines whole, splitOn_cells names ?_, ?_⟩
  · rw [TableLibrary.names, columns]
    exact List.cons_ne_nil _ _
  · rw [height, List.map_map, List.forall₂_iff_get]
    refine ⟨by rw [List.length_map, List.length_range], fun index lt lt' => ?_⟩
    rw [List.get_eq_getElem, List.get_eq_getElem, List.getElem_map, List.getElem_range]
    exact r.tells_row documented few columns (List.getElem?_eq_getElem lt')

/-! ## Tables -/

variable (lib) in
theorem frame_of_many (many : 16 < channels) : r.frame lib channels =
    .error (lib.outOfBounds s!"{channels} channels requested, samples carry {sampleBits}") := by
  have missing : sampleBits < channels := many
  rw [Reading.frame, if_pos missing]
  rfl

theorem writeCsv_of_frame (documented : lib.Documented)
    (made : r.frame lib channels = .ok frame) (columns : lib.columns frame = r.columns channels)
    (written : String) : r.writeCsv lib channels written =
      .ok () (written ++ String.join ((lib.lines true frame).map (· ++ "\n"))) := by
  have some_columns : lib.columns frame ≠ [] := by
    rw [columns]
    exact List.cons_ne_nil _ _
  have plain : ∀ name ∈ lib.names frame, PlainText name.toList := by
    rw [TableLibrary.names, columns]
    exact r.plain_names channels
  rw [← documented.write_lines some_columns plain, writeCsv, made]
  rfl

/-- The tables of a reading. With more channels than a sample has bits there is no
table, and nothing is written. Otherwise the table has a row per sample, with its value
and the levels of the channels, and so does its text, behind a line with the names of
the columns: each line read back gives the sample that it is about, and if it has all
sixteen bits they add up to its value. A channel beyond the sixteenth is low. -/
theorem tables_keep_samples (documented : lib.Documented) (r : Reading) (channels : Nat) :
    (16 < channels → ∃ failure,
      failure = lib.outOfBounds s!"{channels} channels requested, samples carry {sampleBits}" ∧
      r.frame lib channels = .error failure ∧
      ∀ written, r.writeCsv lib channels written = .error failure written) ∧
    (channels ≤ 16 → ∃ frame, r.frame lib channels = .ok frame ∧
      lib.columns frame =
        ⟨"time", .floats ((List.range r.samples.length).map r.time)⟩ ::
        ⟨"raw", .numbers (r.samples.map UInt16.toUInt32)⟩ ::
        (List.range channels).map (fun bit => ⟨s!"bit_{bit}", .levels (r.channel bit)⟩) ∧
      lib.height frame = r.samples.length ∧
      (∀ column ∈ lib.columns frame, column.entries.length = r.samples.length) ∧
      ∃ text, (∀ written, r.writeCsv lib channels written = .ok () (written ++ text)) ∧
      ∃ header lines, text.toList.splitOn '\n' = header :: lines ++ [[]] ∧
        header.splitOn ',' = (lib.names frame).map String.toList ∧
        List.Forall₂ (Tells channels) lines r.samples ∧
        (channels = 16 → List.Forall₂ (fun line sample => ∃ levels,
          readRow? line = some (sample.toNat, levels) ∧
            (levels.mapIdx fun bit level => level.toNat * 2 ^ bit).sum = sample.toNat)
              lines r.samples)) ∧
    ∀ bit, r.channel bit =
      r.samples.map fun sample => if bit < 16 then sample.toNat.testBit bit else false := by
  refine ⟨fun many => ?_, fun few => ?_, fun bit => ?_⟩
  · have refused := r.frame_of_many lib many
    refine ⟨_, rfl, refused, fun written => ?_⟩
    rw [writeCsv, refused]
    rfl
  · obtain ⟨frame, made, columns⟩ := r.exists_frame documented few
    obtain ⟨header, lines, split, names, tell⟩ := r.lines_read documented few columns
    have height := r.height_eq documented columns
    refine ⟨frame, made, columns, height, fun column mem => ?_, _,
      r.writeCsv_of_frame documented made columns, header, lines, split, names, tell, ?_⟩
    · rw [documented.length_column mem, height]
    · rintro rfl
      refine tell.imp fun line sample told => ⟨_, told.read, ?_⟩
      rw [sum_mapIdx_range, bitsBelow_testBit]
  · refine List.map_congr_left fun sample _ => ?_
    rw [and_channelMask_ne_zero]
    split
    · next within => rw [decide_eq_true (show bit < sampleBits from within), Bool.true_and]
    · next beyond => rw [decide_eq_false (show ¬ bit < sampleBits from beyond), Bool.false_and]

/-- Two samples, taken at full speed from one before the trigger on. -/
def aroundTrigger : Reading := ⟨[0x8005, 0xFFFF], .full, 1⟩

/-- Kept in a list and written out, all their bits are there, and there are no others. -/
theorem tables_keep_samples_aroundTrigger :
    Table.library.Documented ∧
      aroundTrigger.frame Table.library 17 =
        .error (.outOfBounds "17 channels requested, samples carry 16") ∧
      (∃ table, aroundTrigger.frame Table.library 16 = .ok table ∧ table.height = 2 ∧
        ∃ text, aroundTrigger.writeCsv Table.library 16 "" = .ok () ("" ++ text) ∧
        ∃ header lines, text.toList.splitOn '\n' = header :: lines ++ [[]] ∧
          List.Forall₂ (Tells 16) lines [0x8005, 0xFFFF]) ∧
      aroundTrigger.channel 1 = [false, true] ∧ aroundTrigger.channel 16 = [false, false] := by
  have documented := Table.library_documented
  obtain ⟨refused, -, levels⟩ := tables_keep_samples documented aroundTrigger 17
  obtain ⟨-, kept, -⟩ := tables_keep_samples documented aroundTrigger 16
  obtain ⟨failure, why, failed, -⟩ := refused (by decide)
  obtain ⟨table, made, -, height, -, text, written, header, lines, split, -, told, -⟩ :=
    kept (by decide)
  have spelled : failure = .outOfBounds "17 channels requested, samples carry 16" := why
  exact ⟨documented, spelled ▸ failed,
    ⟨table, made, height, text, written "", header, lines, split, told⟩, levels 1, levels 16⟩

end Reading

end LogicCapture
