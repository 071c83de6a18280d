import DataShare.CppResultSet

/-!
# The C++ shared block

`shared_block.cpp` over the mapping that `shared_block.rs` goes by. The Rust code writes a cell at
once, while the C++ code assigns its fields in turn, and it stores what `Alloc` returns in the link
of a row group before it looks at it. A call of `securec` that has bytes to set or to copy is taken
to succeed.

On any block each function does what its port does (`clear_eq`, `setColumnNum_eq`, `freeLastRow_eq`,
`putCell_eq`, `putBlobOrString_eq`), but for `AllocRow`. That takes a row for which there is no room
off the count even if the count has wrapped to 0, and it fails without columns, so the two agree if
the header of the block is `Intact` (`allocRow_eq`).
-/

namespace DataShare

namespace Cpp.AppDataFwk

open Rust (Status sizeOfHeader sizeOfRowGroup sizeOfCellUnit rowOffsetsNum nextGroupField colMaxNum
  cellUnitTypeNull cellUnitTypeInteger cellUnitTypeFloat cellUnitTypeString cellUnitTypeBlob)

/-! ## Offsets -/

/-- `OffsetToPtr`, on 32-bit words. -/
def offsetToPtr (b : SharedBlock) (offset bufferSize : ℕ) : Option ℕ :=
  if offset ≥ b.size then none
  else if offset > 2 ^ 32 - 1 - bufferSize then none
  else if offset + bufferSize ≥ b.size then none
  else some offset

/-- `(~unusedOffset + 1) & offsetDigit`. -/
def padding (unusedOffset : ℕ) : ℕ :=
  (2 ^ 32 - 1 - unusedOffset + 1) % 2 ^ 32 &&& 3

def alloc (b : SharedBlock) (size : ℕ) (aligned : Bool) : Option (ℕ × SharedBlock) := do
  let unusedOffset ← b.header .unusedOffset
  let offset := (unusedOffset + if aligned then padding unusedOffset else 0) % 2 ^ 32
  if offset + size ≥ b.size then pure (0, b)
  else do
    let nextFreeOffset := (offset + size) % 2 ^ 32
    let b ← b.setHeader .unusedOffset nextFreeOffset
    pure (offset, b)

/-! ## Rows -/

/-- The loops `while (rowPos >= limit)` over the row groups, at most `fuel` times. -/
def followGroups (b : SharedBlock) (limit : ℕ) : ℕ → ℕ → ℕ → Option (Option (ℕ × ℕ))
  | 0, group, rowPos => pure (some (group, rowPos))
  | fuel + 1, group, rowPos =>
    if rowPos ≥ limit then do
      let nextGroupOffset ← b.mem.loadU32 (group + nextGroupField)
      match offsetToPtr b nextGroupOffset sizeOfRowGroup with
      | none => pure none
      | some group => followGroups b limit fuel group (rowPos - rowOffsetsNum)
    else pure (some (group, rowPos))

def getRowOffset (b : SharedBlock) (row : ℕ) : Option (Option ℕ) := do
  let firstRowGroupOffset ← b.header .firstRowGroupOffset
  match offsetToPtr b firstRowGroupOffset sizeOfRowGroup with
  | none => pure none
  | some group => do
    match ← followGroups b rowOffsetsNum row group row with
    | none => pure none
    | some (group, rowPos) => pure (some (group + 4 * rowPos))

/-- The `nextGroupOffset` of a full group, to which a missing one has been assigned what `Alloc`
returns, 0 included. -/
def linkGroup (b : SharedBlock) (group : ℕ) : Option (ℕ × SharedBlock) := do
  let nextGroupOffset ← b.mem.loadU32 (group + nextGroupField)
  if nextGroupOffset = 0 then do
    let (offset, b) ← alloc b sizeOfRowGroup true
    let b ← b.storeU32 (group + nextGroupField) offset
    let nextGroupOffset ← b.mem.loadU32 (group + nextGroupField)
    pure (nextGroupOffset, b)
  else pure (nextGroupOffset, b)

/-- The group after a full one, which becomes the last one. -/
def nextGroup (b : SharedBlock) (group : ℕ) : Option (Option ℕ × SharedBlock) := do
  let (nextGroupOffset, b) ← linkGroup b group
  if nextGroupOffset = 0 then pure (none, b)
  else
    match offsetToPtr b nextGroupOffset sizeOfRowGroup with
    | none => pure (none, b)
    | some group => do
      let b ← b.storeU32 (group + nextGroupField) 0
      pure (some group, b)

/-- The end of `AllocRowOffset` : count the row and point to its row offset. -/
def countRow (b : SharedBlock) (group rowPos : ℕ) : Option (Option ℕ × SharedBlock) := do
  let rowNums ← b.header .rowNums
  let b ← b.setHeader .rowNums ((rowNums + 1) % 2 ^ 32)
  pure (some (group + 4 * rowPos), b)

/-- The loop runs while `rowPos > ROW_OFFSETS_NUM`. -/
def allocRowOffset (b : SharedBlock) : Option (Option ℕ × SharedBlock) := do
  let rowPos ← b.header .rowNums
  let firstRowGroupOffset ← b.header .firstRowGroupOffset
  match offsetToPtr b firstRowGroupOffset sizeOfRowGroup with
  | none => pure (none, b)
  | some group => do
    match ← followGroups b (rowOffsetsNum + 1) rowPos group rowPos with
    | none => pure (none, b)
    | some (group, rowPos) =>
      if rowPos = rowOffsetsNum then do
        match ← nextGroup b group with
        | (none, b) => pure (none, b)
        | (some group, b) => countRow b group 0
      else countRow b group rowPos

def getCellUnit (b : SharedBlock) (row column : ℕ) : Option (Option ℕ) := do
  let rowNums ← b.header .rowNums
  let columnNums ← b.header .columnNums
  if row ≥ rowNums ∨ column ≥ columnNums then pure none
  else do
    match ← getRowOffset b row with
    | none => pure none
    | some rowOffset => do
      let offset ← b.mem.loadU32 rowOffset
      match offsetToPtr b offset sizeOfCellUnit with
      | none => pure none
      | some cellUnit => pure (some (cellUnit + column * sizeOfCellUnit))

/-! ## Calls -/

def clear (b : SharedBlock) : Option (Status × SharedBlock) :=
  if b.readOnly then pure (.invalidOperation, b)
  else do
    let b ← b.setHeader .unusedOffset (sizeOfHeader + sizeOfRowGroup)
    let b ← b.setHeader .firstRowGroupOffset sizeOfHeader
    let b ← b.setHeader .rowNums 0
    let b ← b.setHeader .columnNums 0
    let b ← b.setHeader .startPos 0
    let b ← b.setHeader .lastPos 0
    let b ← b.setHeader .blockPos 0
    let firstRowGroupOffset ← b.header .firstRowGroupOffset
    match offsetToPtr b firstRowGroupOffset sizeOfRowGroup with
    | none => pure (.badValue, b)
    | some firstGroup => do
      let b ← b.storeU32 (firstGroup + nextGroupField) 0
      pure (.ok, b)

def setColumnNum (b : SharedBlock) (numColumns : ℕ) : Option (Status × SharedBlock) :=
  if b.readOnly then pure (.invalidOperation, b)
  else do
    let cur ← b.header .columnNums
    let rowNums ← b.header .rowNums
    if (cur > 0 ∨ rowNums > 0) ∧ cur ≠ numColumns then pure (.invalidOperation, b)
    else if numColumns > colMaxNum then pure (.invalidOperation, b)
    else do
      let b ← b.setHeader .columnNums numColumns
      pure (.ok, b)

/-- `memset_s` fails if there is nothing to set. -/
def allocRow (b : SharedBlock) : Option (Status × SharedBlock) :=
  if b.readOnly then pure (.invalidOperation, b)
  else do
    match ← allocRowOffset b with
    | (none, b) => pure (.noMemory, b)
    | (some rowOffset, b) => do
      let columnNums ← b.header .columnNums
      let fieldDirSize := columnNums * sizeOfCellUnit
      let (fieldDirOffset, b) ← alloc b fieldDirSize true
      if fieldDirOffset = 0 then do
        let rowNums ← b.header .rowNums
        let b ← b.setHeader .rowNums ((rowNums + (2 ^ 32 - 1)) % 2 ^ 32)
        pure (.noMemory, b)
      else
        match offsetToPtr b fieldDirOffset sizeOfCellUnit with
        | none => pure (.badValue, b)
        | some fieldDir =>
          if fieldDirSize = 0 then pure (.noMemory, b)
          else do
            let b ← b.store fieldDir (List.replicate fieldDirSize 0)
            let b ← b.storeU32 rowOffset fieldDirOffset
            pure (.ok, b)

def freeLastRow (b : SharedBlock) : Option (Status × SharedBlock) :=
  if b.readOnly then pure (.invalidOperation, b)
  else do
    let rowNums ← b.header .rowNums
    let b ← if rowNums > 0 then b.setHeader .rowNums (rowNums - 1) else pure b
    pure (.ok, b)

/-- The body of `PutLong`, `PutDouble` and `PutNull`, which differ in what they assign. -/
def putCell (b : SharedBlock) (row column : ℕ)
    (assign : SharedBlock → ℕ → Option SharedBlock) : Option (Status × SharedBlock) :=
  if b.readOnly then pure (.invalidOperation, b)
  else do
    match ← getCellUnit b row column with
    | none => pure (.badValue, b)
    | some cellUnit => do
      let b ← assign b cellUnit
      pure (.ok, b)

def putLong (b : SharedBlock) (row column : ℕ) (value : Int64) : Option (Status × SharedBlock) :=
  putCell b row column fun b cellUnit => do
    let b ← b.storeU32 cellUnit cellUnitTypeInteger
    b.store (cellUnit + 4) (basicBytes value)

def putDouble (b : SharedBlock) (row column : ℕ) (value : Double) : Option (Status × SharedBlock) :=
  putCell b row column fun b cellUnit => do
    let b ← b.storeU32 cellUnit cellUnitTypeFloat
    b.store (cellUnit + 4) (basicBytes value)

/-- Assign `type`, `stringOrBlobValue.offset` and `stringOrBlobValue.size`. -/
def assignStringOrBlob (b : SharedBlock) (cellUnit type offset size : ℕ) : Option SharedBlock := do
  let b ← b.storeU32 cellUnit type
  let b ← b.storeU32 (cellUnit + 4) offset
  b.storeU32 (cellUnit + 8) size

def putNull (b : SharedBlock) (row column : ℕ) : Option (Status × SharedBlock) :=
  putCell b row column fun b cellUnit => assignStringOrBlob b cellUnit cellUnitTypeNull 0 0

def putBlobOrString (b : SharedBlock) (row column : ℕ) (value : List UInt8) (type : ℕ) :
    Option (Status × SharedBlock) :=
  if b.readOnly then pure (.invalidOperation, b)
  else do
    match ← getCellUnit b row column with
    | none => pure (.badValue, b)
    | some cellUnit => do
      let (offset, b) ← alloc b value.length false
      if offset = 0 then pure (.noMemory, b)
      else
        match offsetToPtr b offset (value.length % 2 ^ 32) with
        | none => pure (.noMemory, b)
        | some ptr => do
          let b ← if value.length ≠ 0 then b.store ptr value else pure b
          let b ← assignStringOrBlob b cellUnit type offset value.length
          pure (.ok, b)

def putBlob (b : SharedBlock) (row column : ℕ) (value : List UInt8) :
    Option (Status × SharedBlock) :=
  putBlobOrString b row column value cellUnitTypeBlob

/-- `sizeIncludingNull` is the length. -/
def putString (b : SharedBlock) (row column : ℕ) (value : List UInt8) :
    Option (Status × SharedBlock) :=
  putBlobOrString b row column value cellUnitTypeString

/-! ## Words of a mapping -/

section Words

variable {b b' : SharedBlock} {a v : ℕ}

theorem store_eq (b : SharedBlock) (a : ℕ) (bs : List UInt8) : b.store a bs =
    if a + bs.length ≤ b.mem.size then some { b with mem := b.mem.write a bs } else none := by
  unfold Rust.SharedBlock.store Memory.store
  split <;> rfl

theorem storeU32_eq_some (h : b.storeU32 a v = some b') :
    a + 4 ≤ b.mem.size ∧ b' = { b with mem := b.mem.write a (leBytes 4 v) } := by
  change b.store a (leBytes 4 v) = _ at h
  rw [store_eq, length_leBytes] at h
  split at h
  · next hle => exact ⟨hle, (Option.some.inj h).symm⟩
  · cases h

/-- The word that was stored. -/
theorem loadU32_of_store (h : b.storeU32 a v = some b') (hv : v < 2 ^ 32) :
    b'.mem.loadU32 a = some v := by
  obtain ⟨hle, rfl⟩ := storeU32_eq_some h
  exact (Memory.holds_write (by rwa [length_leBytes])).loadU32_eq hv

/-- Another word. -/
theorem loadU32_of_store_ne (h : b.storeU32 a v = some b') {x : ℕ}
    (hx : x + 4 ≤ a ∨ a + 4 ≤ x) : b'.mem.loadU32 x = b.mem.loadU32 x := by
  obtain ⟨-, rfl⟩ := storeU32_eq_some h
  exact Memory.loadU32_write (by rwa [length_leBytes])

/-- A store of the word that is there. -/
theorem storeU32_of_load (h : b.mem.loadU32 a = some v) : b.storeU32 a v = some b := by
  have hholds := Memory.holds_of_loadU32 h
  change b.store a (leBytes 4 v) = _
  rw [store_eq, if_pos hholds.bound, hholds.write_eq]

/-- Two stores in a row are one. -/
theorem store_store (b : SharedBlock) (a : ℕ) (bs bs' : List UInt8) :
    ((b.store a bs).bind fun b => b.store (a + bs.length) bs') = b.store a (bs ++ bs') := by
  have hlen : (bs ++ bs').length = bs.length + bs'.length := List.length_append
  rw [store_eq, store_eq b a (bs ++ bs'), ← Memory.write_write]
  by_cases hle : a + (bs ++ bs').length ≤ b.mem.size
  · rw [if_pos hle, if_pos (by omega), Option.bind_some, store_eq]
    exact if_pos (show a + bs.length + bs'.length ≤ b.mem.size by omega)
  · rw [if_neg hle]
    split
    · rw [Option.bind_some, store_eq]
      exact if_neg (show ¬a + bs.length + bs'.length ≤ b.mem.size by omega)
    · rfl

end Words

/-! ## The functions of both -/

theorem padding_eq (unusedOffset : ℕ) :
    padding unusedOffset = Rust.SharedBlock.alignPadding unusedOffset :=
  Nat.and_two_pow_sub_one_eq_mod _ 2

section Ports

variable (b : SharedBlock)

theorem alloc_eq (size : ℕ) (aligned : Bool) : alloc b size aligned = b.alloc size aligned := by
  unfold alloc Rust.SharedBlock.alloc
  simp only [padding_eq, Nat.add_mod_mod]

theorem followGroups_eq (limit : ℕ) : ∀ fuel group rowPos : ℕ,
    followGroups b limit fuel group rowPos = b.seekGroup limit fuel group rowPos
  | 0, _, _ => rfl
  | fuel + 1, group, rowPos => by
    rw [followGroups, Rust.SharedBlock.seekGroup]
    by_cases hlt : rowPos < limit
    · rw [if_neg (not_le.mpr hlt), if_pos hlt]
    · rw [if_pos (not_lt.mp hlt), if_neg hlt]
      simp only [followGroups_eq limit fuel]
      rfl

theorem getRowOffset_eq (row : ℕ) : getRowOffset b row = b.getRowOffset row := by
  unfold getRowOffset Rust.SharedBlock.getRowOffset
  simp only [followGroups_eq]
  rfl

theorem getCellUnit_eq (row column : ℕ) :
    getCellUnit b row column = b.getCellUnit row column := by
  unfold getCellUnit Rust.SharedBlock.getCellUnit
  simp only [getRowOffset_eq]
  rfl

/-- What `alloc` returns is a word, and the word of the header is all it writes. -/
theorem alloc_some {size : ℕ} {aligned : Bool} {offset : ℕ} {b' : SharedBlock}
    (h : b.alloc size aligned = some (offset, b')) : offset < 2 ^ 32 ∧
      ∀ x, 4 ≤ x → b'.mem.loadU32 x = b.mem.loadU32 x := by
  obtain ⟨unusedOffset, -, h⟩ := Option.bind_eq_some_iff.mp h
  dsimp only at h
  generalize hword : (unusedOffset + if aligned then Rust.SharedBlock.alignPadding unusedOffset
    else 0) % 2 ^ 32 = word at h
  have hlt : word < 2 ^ 32 := hword ▸ Nat.mod_lt _ (by decide)
  split at h
  · obtain ⟨rfl, rfl⟩ := Prod.mk.inj (Option.some.inj h)
    exact ⟨by decide, fun _ _ => rfl⟩
  · obtain ⟨b₁, hset, h⟩ := Option.bind_eq_some_iff.mp h
    obtain ⟨rfl, rfl⟩ := Prod.mk.inj (Option.some.inj h)
    exact ⟨hlt, fun x hx => loadU32_of_store_ne hset (.inr hx)⟩

/-- A missing link gets the offset of the new group, or stays 0. -/
theorem nextGroup_eq (group : ℕ) : nextGroup b group = b.nextGroup group := by
  unfold nextGroup linkGroup Rust.SharedBlock.nextGroup
  cases hload : b.mem.loadU32 (group + nextGroupField) with
  | none => rfl
  | some next =>
    simp only [Option.bind_eq_bind, Option.bind_some, alloc_eq, Option.pure_def]
    by_cases hnext : next = 0
    · rw [if_pos hnext, if_pos hnext]
      cases halloc : b.alloc sizeOfRowGroup true with
      | none => rfl
      | some r =>
        obtain ⟨offset, b₁⟩ := r
        obtain ⟨hlt, hkeep⟩ := alloc_some b halloc
        simp only [Option.bind_some]
        by_cases hzero : offset = 0
        · have hlink : b₁.mem.loadU32 (group + nextGroupField) = some 0 := by
            rw [hkeep _ (by unfold nextGroupField rowOffsetsNum; omega), hload, hnext]
          rw [hzero, storeU32_of_load hlink, Option.bind_some, hlink]
          rfl
        · rw [if_neg hzero]
          cases hstore : b₁.storeU32 (group + nextGroupField) offset with
          | none => rfl
          | some b₂ =>
            simp only [Option.bind_some, loadU32_of_store hstore hlt, if_neg hzero]
            rfl
    · rw [if_neg hnext, if_neg hnext]
      simp only [Option.bind_some, hload, if_neg hnext]
      rfl

theorem allocRowOffset_eq : allocRowOffset b = b.allocRowOffset := by
  unfold allocRowOffset Rust.SharedBlock.allocRowOffset
  simp only [followGroups_eq, nextGroup_eq]
  rfl

end Ports

/-! ## The calls of both -/

section Calls

variable (b : SharedBlock)

theorem clear_eq : clear b = b.clear := by
  unfold clear Rust.SharedBlock.clear Rust.SharedBlock.resetHeader
  simp only [bind_assoc]
  rfl

theorem setColumnNum_eq (numColumns : ℕ) : setColumnNum b numColumns = b.setColumnNum numColumns :=
  rfl

theorem freeLastRow_eq : freeLastRow b = b.freeLastRow := by
  unfold freeLastRow Rust.SharedBlock.freeLastRow Rust.SharedBlock.uncountRow
  simp only [bind_assoc]
  refine if_congr Iff.rfl rfl (congrArg (Option.bind _) (funext fun rowNums => ?_))
  split <;> rfl

/-- The fields of a cell, one after the other. -/
theorem assign_eq (cellUnit type : ℕ) (value : List UInt8) :
    ((b.storeU32 cellUnit type).bind fun b => b.store (cellUnit + 4) value) =
      b.store cellUnit (leBytes 4 type ++ value) := by
  rw [← store_store, length_leBytes]
  rfl

theorem assignStringOrBlob_eq (cellUnit type offset size : ℕ) :
    assignStringOrBlob b cellUnit type offset size =
      b.store cellUnit (leBytes 4 type ++ (leBytes 4 offset ++ leBytes 4 size)) := by
  rw [← assign_eq]
  refine congrArg (Option.bind _) (funext fun b => ?_)
  exact assign_eq b (cellUnit + 4) offset (leBytes 4 size)

theorem putCell_eq (row column cellType : ℕ) (value : List UInt8)
    {assign : SharedBlock → ℕ → Option SharedBlock}
    (h : ∀ b cellUnit, assign b cellUnit = b.store cellUnit (leBytes 4 cellType ++ value)) :
    putCell b row column assign = b.putCell row column cellType value := by
  obtain rfl : assign = fun b cellUnit => b.store cellUnit (leBytes 4 cellType ++ value) :=
    funext fun b => funext fun cellUnit => h b cellUnit
  unfold putCell Rust.SharedBlock.putCell
  split
  · rfl
  · exact congrArg (· >>= _) (getCellUnit_eq b row column)

theorem putBlobOrString_eq (row column : ℕ) (value : List UInt8) (type : ℕ) :
    putBlobOrString b row column value type = b.putBlobOrString row column value type := by
  unfold putBlobOrString Rust.SharedBlock.putBlobOrString
  simp only [getCellUnit_eq, alloc_eq, assignStringOrBlob_eq]
  rfl

end Calls

/-! ## A new row -/

/-- The block has columns, and one row more can be counted. -/
def Intact (b : SharedBlock) : Prop :=
  b.rowNum ≠ some (2 ^ 32 - 1) ∧ b.columnNum ≠ some 0

instance (b : SharedBlock) : Decidable (Intact b) :=
  inferInstanceAs (Decidable (_ ∧ _))

section AllocRow

variable {b b' : SharedBlock}

/-- The link is the only word of a row group that is written. -/
theorem nextGroup_some {group : ℕ} {next : Option ℕ} (h : b.nextGroup group = some (next, b'))
    {x : ℕ} (hx : 4 ≤ x) (hx' : x + 4 ≤ nextGroupField) :
    b'.mem.loadU32 x = b.mem.loadU32 x := by
  have hlink : ∀ {offset : ℕ} {b₁ : SharedBlock}, linkGroup b group = some (offset, b₁) →
      b₁.mem.loadU32 x = b.mem.loadU32 x := by
    intro offset b₁ h
    obtain ⟨next, -, h⟩ := Option.bind_eq_some_iff.mp h
    split at h
    · obtain ⟨⟨new, b₂⟩, halloc, h⟩ := Option.bind_eq_some_iff.mp h
      obtain ⟨b₃, hstore, h⟩ := Option.bind_eq_some_iff.mp h
      obtain ⟨word, -, h⟩ := Option.bind_eq_some_iff.mp h
      obtain ⟨-, rfl⟩ := Prod.mk.inj (Option.some.inj h)
      rw [loadU32_of_store_ne hstore (.inl (by omega))]
      exact (alloc_some b (alloc_eq b _ _ ▸ halloc)).2 x hx
    · obtain ⟨-, rfl⟩ := Prod.mk.inj (Option.some.inj h)
      rfl
  rw [← nextGroup_eq] at h
  obtain ⟨⟨offset, b₁⟩, hlinked, h⟩ := Option.bind_eq_some_iff.mp h
  dsimp only at h
  split at h
  · obtain ⟨-, rfl⟩ := Prod.mk.inj (Option.some.inj h)
    exact hlink hlinked
  split at h
  · obtain ⟨-, rfl⟩ := Prod.mk.inj (Option.some.inj h)
    exact hlink hlinked
  · obtain ⟨b₂, hstore, h⟩ := Option.bind_eq_some_iff.mp h
    obtain ⟨-, rfl⟩ := Prod.mk.inj (Option.some.inj h)
    rw [loadU32_of_store_ne hstore (.inl (by omega)), hlink hlinked]

theorem countRow_some {group rowPos : ℕ} {rowOffset : Option ℕ}
    (h : b.countRow group rowPos = some (rowOffset, b')) :
    (∃ rows, b.rowNum = some rows ∧ b'.rowNum = some ((rows + 1) % 2 ^ 32)) ∧
      b'.columnNum = b.columnNum := by
  obtain ⟨rows, hrows, h⟩ := Option.bind_eq_some_iff.mp h
  obtain ⟨b₁, hset, h⟩ := Option.bind_eq_some_iff.mp h
  obtain ⟨-, rfl⟩ := Prod.mk.inj (Option.some.inj h)
  exact ⟨⟨rows, hrows, loadU32_of_store hset (Nat.mod_lt _ (by decide))⟩,
    loadU32_of_store_ne hset (.inr (by decide))⟩

/-- A row that got an offset is counted, and the columns stay as they are. -/
theorem allocRowOffset_some {rowOffset : ℕ}
    (h : b.allocRowOffset = some (some rowOffset, b')) :
    (∃ rows, b.rowNum = some rows ∧ b'.rowNum = some ((rows + 1) % 2 ^ 32)) ∧
      b'.columnNum = b.columnNum := by
  obtain ⟨rowPos, -, h⟩ := Option.bind_eq_some_iff.mp h
  obtain ⟨first, -, h⟩ := Option.bind_eq_some_iff.mp h
  split at h
  · cases h
  obtain ⟨found, -, h⟩ := Option.bind_eq_some_iff.mp h
  split at h
  · cases h
  split at h
  · obtain ⟨⟨next, b₁⟩, hnext, h⟩ := Option.bind_eq_some_iff.mp h
    have hrows : b₁.rowNum = b.rowNum := nextGroup_some hnext (by decide) (by decide)
    have hcols : b₁.columnNum = b.columnNum := nextGroup_some hnext (by decide) (by decide)
    rw [← hrows, ← hcols]
    split at h
    · cases h
    · next heq =>
      obtain ⟨rfl, rfl⟩ := Prod.mk.inj heq
      exact countRow_some h
  · exact countRow_some h

/-- The row is the same, if the header is intact. -/
theorem allocRow_eq (h : Intact b) : allocRow b = Rust.SharedBlock.allocRow b := by
  unfold allocRow Rust.SharedBlock.allocRow Rust.SharedBlock.uncountRow
  simp only [allocRowOffset_eq, alloc_eq]
  refine if_congr Iff.rfl rfl ?_
  cases hoff : b.allocRowOffset with
  | none => rfl
  | some r =>
    obtain ⟨rowOffset | rowOffset, b₁⟩ := r
    · rfl
    obtain ⟨⟨rows, hrows, hrows₁⟩, hcols⟩ := allocRowOffset_some hoff
    have hlt : rows < 2 ^ 32 := by
      obtain ⟨bs, hload, rfl⟩ := Option.map_eq_some_iff.mp hrows
      have hlen := leNat_lt bs
      rwa [Memory.length_of_load hload] at hlen
    have hmax : rows ≠ 2 ^ 32 - 1 := fun heq => h.1 (heq ▸ hrows)
    simp only [Option.bind_eq_bind, Option.bind_some]
    cases hcols₁ : b₁.header .columnNums with
    | none => rfl
    | some columnNums =>
      have hpos : columnNums * sizeOfCellUnit ≠ 0 := by
        refine Nat.mul_ne_zero (fun hzero => h.2 ?_) (by decide)
        rw [← hcols, ← hzero]
        exact hcols₁
      simp only [Option.bind_some]
      cases halloc : b₁.alloc (columnNums * sizeOfCellUnit) true with
      | none => rfl
      | some r =>
        obtain ⟨offset, b₂⟩ := r
        have hrows₂ : b₂.header .rowNums = some (rows + 1) := by
          have hkeep := (alloc_some b₁ halloc).2 Rust.HeaderField.rowNums.offset (by decide)
          rw [Nat.mod_eq_of_lt (by omega)] at hrows₁
          exact hkeep.trans hrows₁
        have hback : (rows + 1 + (2 ^ 32 - 1)) % 2 ^ 32 = rows + 1 - 1 := by omega
        simp only [Option.bind_some, hrows₂, hback, if_pos (Nat.succ_pos rows), if_neg hpos]
        rfl

/-- The row of the result set's block. -/
theorem allocRow_eq_sharedBlock (b : SharedBlock) : allocRow b = SharedBlock.allocRow b := by
  unfold allocRow SharedBlock.allocRow
  simp only [allocRowOffset_eq, alloc_eq]
  rfl

end AllocRow

end Cpp.AppDataFwk

end DataShare
