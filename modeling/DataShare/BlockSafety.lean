import DataShare.SharedBlock

/-!
# Reading a block that another process wrote

All words of a block are arbitrary here : the header, the links of the row groups, the row
offsets and the cells. The search for a row ends, each round takes 100 rows off
(`seekGroup_of_le`), and the row groups, strings and blobs it leads to are in the block. Of the
cells of a row only the first is checked, so a cell lies in the block exactly if the
directories of the rows do (`safe_iff`).
-/

namespace DataShare

namespace Rust

namespace SharedBlock

variable {b : SharedBlock}

theorem offsetToPtr_eq_some {offset bufferSize p : ℕ}
    (h : b.offsetToPtr offset bufferSize = some p) :
    p = offset ∧ offset + bufferSize < b.size := by
  unfold offsetToPtr at h
  split at h
  · cases h
  split at h
  · cases h
  split at h
  · cases h
  · rename_i hlt
    exact ⟨(Option.some.inj h).symm, not_le.mp hlt⟩

/-! ## Rows -/

/-- One round of the loop. -/
theorem seekGroup_succ {limit fuel groupPtr row : ℕ} :
    b.seekGroup limit (fuel + 1) groupPtr row =
      if row < limit then some (some (groupPtr, row))
      else (b.mem.loadU32 (groupPtr + nextGroupField)).bind fun next =>
        (b.offsetToPtr next sizeOfRowGroup).elim (some none) fun next =>
          b.seekGroup limit fuel next (row - rowOffsetsNum) := by
  rw [seekGroup]
  split
  · rfl
  rcases b.mem.loadU32 (groupPtr + nextGroupField) with - | next
  · rfl
  · rcases h : b.offsetToPtr next sizeOfRowGroup with - | p <;>
      simp only [Option.bind_eq_bind, Option.bind_some, h] <;> rfl

/-- `row` rounds are enough : more of them change nothing. -/
theorem seekGroup_congr : ∀ {fuel fuel' row : ℕ} (groupPtr : ℕ), row ≤ fuel → row ≤ fuel' →
    b.seekGroup rowOffsetsNum fuel groupPtr row = b.seekGroup rowOffsetsNum fuel' groupPtr row
  | 0, 0, _, _, _, _ => rfl
  | 0, fuel' + 1, row, groupPtr, hle, _ => by
    obtain rfl := Nat.le_zero.mp hle
    rw [seekGroup_succ, if_pos (by decide)]
    rfl
  | fuel + 1, 0, row, groupPtr, _, hle => by
    obtain rfl := Nat.le_zero.mp hle
    rw [seekGroup_succ, if_pos (by decide)]
    rfl
  | fuel + 1, fuel' + 1, row, groupPtr, hle, hle' => by
    have hsub : row - rowOffsetsNum ≤ fuel ∧ row - rowOffsetsNum ≤ fuel' := by
      unfold rowOffsetsNum
      omega
    rw [seekGroup_succ, seekGroup_succ]
    simp only [fun groupPtr => seekGroup_congr groupPtr hsub.1 hsub.2]

/-- Where the loop ends : by its condition, in the first group or in one that was checked. -/
theorem seekGroup_ends : ∀ {fuel row groupPtr p q : ℕ}, row ≤ fuel →
    b.seekGroup rowOffsetsNum fuel groupPtr row = some (some (p, q)) →
      q < rowOffsetsNum ∧ (p = groupPtr ∨ p + sizeOfRowGroup < b.size)
  | 0, row, groupPtr, p, q, hle, h => by
    obtain rfl := Nat.le_zero.mp hle
    obtain ⟨rfl, rfl⟩ := Prod.mk.inj (Option.some.inj (Option.some.inj h))
    exact ⟨by decide, .inl rfl⟩
  | fuel + 1, row, groupPtr, p, q, hle, h => by
    rw [seekGroup_succ] at h
    split at h
    · rename_i hlt
      obtain ⟨rfl, rfl⟩ := Prod.mk.inj (Option.some.inj (Option.some.inj h))
      exact ⟨hlt, .inl rfl⟩
    obtain ⟨next, -, hnext⟩ := Option.bind_eq_some_iff.mp h
    rcases hptr : b.offsetToPtr next sizeOfRowGroup with - | group
    · rw [hptr] at hnext
      cases hnext
    · rw [hptr] at hnext
      obtain ⟨rfl, hgroup⟩ := offsetToPtr_eq_some hptr
      obtain ⟨hq, rfl | hp⟩ := seekGroup_ends (by unfold rowOffsetsNum; omega) hnext
      · exact ⟨hq, .inr hgroup⟩
      · exact ⟨hq, .inr hp⟩

/-- A row offset is in the block. -/
theorem getRowOffset_le {row ptr : ℕ} (h : b.getRowOffset row = some (some ptr)) :
    ptr + 4 ≤ b.size := by
  unfold getRowOffset at h
  obtain ⟨firstOff, -, hfirst⟩ := Option.bind_eq_some_iff.mp h
  split at hfirst
  · cases hfirst
  rename_i groupPtr hptr
  obtain ⟨rfl, hin⟩ := offsetToPtr_eq_some hptr
  obtain ⟨found, hseek, hfound⟩ := Option.bind_eq_some_iff.mp hfirst
  rcases found with - | ⟨p, q⟩
  · cases hfound
  · obtain ⟨hq, hp⟩ := seekGroup_ends le_rfl hseek
    obtain rfl := Option.some.inj (Option.some.inj hfound)
    have hgroup : p + sizeOfRowGroup < b.size := hp.elim (fun heq => by rwa [heq]) id
    unfold rowOffsetsNum at hq
    unfold sizeOfRowGroup at hgroup
    omega

/-! ## Cells -/

/-- The directory of a row begins at `off`, and its first cell is in the block. -/
def DirectoryAt (b : SharedBlock) (row off : ℕ) : Prop :=
  ∃ rows ptr, b.rowNum = some rows ∧ row < rows ∧ b.getRowOffset row = some (some ptr) ∧
    b.mem.loadU32 ptr = some off ∧ (b.offsetToPtr off sizeOfCellUnit).isSome

/-- The directories of all rows end in the block. -/
def DirectoriesInside (b : SharedBlock) : Prop :=
  ∀ cols, b.columnNum = some cols → ∀ row off, b.DirectoryAt row off →
    off + cols * sizeOfCellUnit ≤ b.size

theorem getCellUnit_eq_some {row col p : ℕ} : b.getCellUnit row col = some (some p) ↔
    ∃ cols off, b.columnNum = some cols ∧ col < cols ∧ b.DirectoryAt row off ∧
      p = off + col * sizeOfCellUnit := by
  constructor
  · intro h
    unfold getCellUnit at h
    obtain ⟨rows, hrows, h⟩ := Option.bind_eq_some_iff.mp h
    obtain ⟨cols, hcols, h⟩ := Option.bind_eq_some_iff.mp h
    split at h
    · cases h
    rename_i hin
    rw [not_or, not_le, not_le] at hin
    obtain ⟨found, hoffset, h⟩ := Option.bind_eq_some_iff.mp h
    rcases found with - | ptr
    · cases h
    obtain ⟨off, hload, h⟩ := Option.bind_eq_some_iff.mp h
    split at h
    · cases h
    rename_i base hbase
    obtain ⟨rfl, -⟩ := offsetToPtr_eq_some hbase
    obtain rfl := Option.some.inj (Option.some.inj h)
    exact ⟨cols, base, hcols, hin.2,
      ⟨rows, ptr, hrows, hin.1, hoffset, hload, by rw [hbase]; rfl⟩, rfl⟩
  · rintro ⟨cols, off, hcols, hcol, ⟨rows, ptr, hrows, hrow, hoffset, hload, hbase⟩, rfl⟩
    obtain ⟨base, hbase⟩ := Option.isSome_iff_exists.mp hbase
    obtain ⟨rfl, -⟩ := offsetToPtr_eq_some hbase
    unfold rowNum at hrows
    unfold columnNum at hcols
    have hin : ¬(row ≥ rows ∨ col ≥ cols) := by omega
    unfold getCellUnit
    simp only [Option.bind_eq_bind, hrows, hcols, Option.bind_some, if_neg hin, hoffset, hload,
      hbase]
    rfl

/-- What a reader of the block may rely on. -/
structure Safe (b : SharedBlock) : Prop where
  /-- The loop of `get_row_offset` ends by its condition, and beyond `row` rounds there is
  nothing to do. -/
  terminates : ∀ groupPtr row fuel, row ≤ fuel →
    b.seekGroup rowOffsetsNum fuel groupPtr row = b.seekGroup rowOffsetsNum row groupPtr row ∧
      ∀ p q, b.seekGroup rowOffsetsNum row groupPtr row = some (some (p, q)) → q < rowOffsetsNum
  rowOffset : ∀ row ptr, b.getRowOffset row = some (some ptr) → ptr + 4 ≤ b.size
  cellUnit : ∀ row col p, b.getCellUnit row col = some (some p) → p + sizeOfCellUnit ≤ b.size
  valueString : ∀ cell p size, b.getCellUnitValueString cell = some (some p, size) →
    p + size ≤ b.size
  stringData : ∀ offset size bytes, b.getStringData offset size = some (.ok bytes) →
    offset + size ≤ b.size ∧ b.mem.load offset size = some bytes
  cellUnitStr : ∀ cell s, b.getCellUnitStr cell = some (.ok s) →
    cell.stringOrBlobOffset + cell.stringOrBlobSize ≤ b.size ∧
      ∃ slice, b.mem.load cell.stringOrBlobOffset cell.stringOrBlobSize = some slice ∧
        fromUtf8 (slice.takeWhile (· ≠ 0)) = some s

theorem getStringData_inside {offset size : ℕ} {bytes : List UInt8}
    (h : b.getStringData offset size = some (.ok bytes)) :
    offset + size ≤ b.size ∧ b.mem.load offset size = some bytes := by
  unfold getStringData at h
  split at h
  · cases h
  rename_i p hptr
  obtain ⟨rfl, hin⟩ := offsetToPtr_eq_some hptr
  obtain ⟨loaded, hload, hres⟩ := Option.bind_eq_some_iff.mp h
  cases hres
  exact ⟨hin.le, hload⟩

theorem getCellUnitStr_inside {cell : CellValueLegacy} {s : String}
    (h : b.getCellUnitStr cell = some (.ok s)) :
    cell.stringOrBlobOffset + cell.stringOrBlobSize ≤ b.size ∧
      ∃ slice, b.mem.load cell.stringOrBlobOffset cell.stringOrBlobSize = some slice ∧
        fromUtf8 (slice.takeWhile (· ≠ 0)) = some s := by
  unfold getCellUnitStr at h
  split at h
  · cases h
  split at h
  · cases h
  rename_i p hptr
  obtain ⟨rfl, hin⟩ := offsetToPtr_eq_some hptr
  obtain ⟨slice, hload, hres⟩ := Option.bind_eq_some_iff.mp h
  refine ⟨hin.le, slice, hload, ?_⟩
  split at hres
  · cases hres
  · rename_i hutf
    cases hres
    exact hutf

theorem getCellUnitValueString_inside {cell p size : ℕ}
    (h : b.getCellUnitValueString cell = some (some p, size)) : p + size ≤ b.size := by
  unfold getCellUnitValueString at h
  obtain ⟨offset, -, h⟩ := Option.bind_eq_some_iff.mp h
  obtain ⟨size', -, h⟩ := Option.bind_eq_some_iff.mp h
  obtain ⟨hptr, rfl⟩ := Prod.mk.inj (Option.some.inj h)
  obtain ⟨rfl, hin⟩ := offsetToPtr_eq_some hptr
  exact hin.le

/-- All cells are in the block exactly if the last ones of the rows are. -/
theorem cells_le_iff : (∀ row col p, b.getCellUnit row col = some (some p) →
    p + sizeOfCellUnit ≤ b.size) ↔ b.DirectoriesInside := by
  constructor
  · intro h cols hcols row off hoff
    rcases cols with - | n
    · obtain ⟨_, _, -, -, -, -, hbase⟩ := hoff
      obtain ⟨base, hbase⟩ := Option.isSome_iff_exists.mp hbase
      obtain ⟨rfl, hin⟩ := offsetToPtr_eq_some hbase
      omega
    · have hlast := h row n _
        (getCellUnit_eq_some.mpr ⟨n + 1, off, hcols, Nat.lt_succ_self n, hoff, rfl⟩)
      rwa [Nat.succ_mul, ← Nat.add_assoc]
  · intro h row col p hcell
    obtain ⟨cols, off, hcols, hcol, hoff, rfl⟩ := getCellUnit_eq_some.mp hcell
    have hend := h cols hcols row off hoff
    have hmul : (col + 1) * sizeOfCellUnit ≤ cols * sizeOfCellUnit :=
      Nat.mul_le_mul_right _ hcol
    rw [Nat.succ_mul] at hmul
    omega

/-- The reader is safe exactly on the blocks whose row directories end in them. -/
theorem safe_iff (b : SharedBlock) : b.Safe ↔ b.DirectoriesInside := by
  refine ⟨fun h => cells_le_iff.mp h.cellUnit, fun h => ?_⟩
  exact {
    terminates := fun groupPtr row fuel hle => ⟨seekGroup_congr groupPtr hle le_rfl,
      fun _ _ hseek => (seekGroup_ends le_rfl hseek).1⟩
    rowOffset := fun _ _ => getRowOffset_le
    cellUnit := cells_le_iff.mpr h
    valueString := fun _ _ _ => getCellUnitValueString_inside
    stringData := fun _ _ _ => getStringData_inside
    cellUnitStr := fun _ _ => getCellUnitStr_inside }

/-- One row of two cells, which begins 13 bytes before the end of the block. -/
def shortBlock : SharedBlock :=
  let word (m : Memory) (a v : ℕ) : Memory := m.write a (leBytes 4 v)
  let mem := word (word (word (word ⟨445, fun _ => 0⟩ 4 28) 8 1) 12 2) 28 432
  ⟨445, true, mem⟩

/-- Its second cell is outside. -/
theorem cell_outside : shortBlock.getCellUnit 0 1 = some (some 444) ∧
    ¬444 + sizeOfCellUnit ≤ shortBlock.size := by
  decide +kernel

/-! ## Faults -/

/-- The block is all of its mapping, and has a header. -/
structure Mapped (b : SharedBlock) : Prop where
  size : b.mem.size = b.size
  header : sizeOfHeader ≤ b.size

end SharedBlock

end Rust

end DataShare
