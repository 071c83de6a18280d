import DataShare.ByteMemory

/-!
# The Rust shared block

`shared_block.rs` keeps a table of cells in one shared mapping : a header, then row groups
of 100 row offsets, a directory of cells for each row, and the bytes of strings and blobs,
all handed out by `alloc` from `unused_offset` up. A row group points to the next one.

An operation returns `none` if it touches memory outside of the mapping. Offsets and
counts are 32-bit words of the mapping, sizes are `usize`.
-/

namespace DataShare

namespace Rust

/-! ## Errors and layout -/

/-- The `SHARED_BLOCK_...` codes, in order. -/
inductive Status
  | ok | badValue | noMemory | invalidOperation | ashmemError | setPortError
deriving DecidableEq, Repr

/-- `DataShareError`, by its code. -/
structure DataShareError where
  code : ℤ
deriving DecidableEq, Repr

namespace DataShareError

def generalError : DataShareError := ⟨-1⟩

def invalidColumnIndex : DataShareError := ⟨1008⟩

def invalidRowIndex : DataShareError := ⟨1094⟩

def invalidOperation : DataShareError := ⟨1092⟩

def invalidParameter : DataShareError := ⟨1090⟩

def outOfMemory : DataShareError := ⟨1091⟩

end DataShareError

def resultFromCode : Status → Except DataShareError Unit
  | .ok => .ok ()
  | .noMemory => .error .outOfMemory
  | .invalidOperation => .error .invalidOperation
  | .badValue => .error .invalidParameter
  | _ => .error .generalError

/-- The fields of `SharedBlockHeader`, in order. -/
inductive HeaderField
  | unusedOffset | firstRowGroupOffset | rowNums | columnNums | startPos | lastPos | blockPos
deriving DecidableEq, Repr

def HeaderField.offset (f : HeaderField) : ℕ :=
  4 * f.ctorIdx

/-- `size_of` of `SharedBlockHeader`, `RowGroupHeader` and `CellUnit`. -/
def sizeOfHeader : ℕ := 28

def sizeOfRowGroup : ℕ := 404

def sizeOfCellUnit : ℕ := 12

/-- `ROW_OFFSETS_NUM`. -/
def rowOffsetsNum : ℕ := 100

/-- The offset of `next_group_offset` in a row group, after the row offsets. -/
def nextGroupField : ℕ := 4 * rowOffsetsNum

/-- `COL_MAX_NUM`. -/
def colMaxNum : ℕ := 32767

/-- The `CELL_UNIT_TYPE_...` constants. -/
def cellUnitTypeNull : ℕ := 0

def cellUnitTypeInteger : ℕ := 1

def cellUnitTypeFloat : ℕ := 2

def cellUnitTypeString : ℕ := 3

def cellUnitTypeBlob : ℕ := 4

structure SharedBlock where
  size : ℕ
  readOnly : Bool
  mem : Memory

namespace SharedBlock

/-! ## Accesses to the mapping -/

def store (b : SharedBlock) (a : ℕ) (bs : List UInt8) : Option SharedBlock := do
  let mem ← b.mem.store a bs
  pure { b with mem := mem }

def storeU32 (b : SharedBlock) (a v : ℕ) : Option SharedBlock := do
  let mem ← b.mem.storeU32 a v
  pure { b with mem := mem }

def header (b : SharedBlock) (f : HeaderField) : Option ℕ :=
  b.mem.loadU32 f.offset

def setHeader (b : SharedBlock) (f : HeaderField) (v : ℕ) : Option SharedBlock :=
  b.storeU32 f.offset v

/-- The pointer at an offset, or `none` if `buffer_size` bytes there do not end before the
end of the block. -/
def offsetToPtr (b : SharedBlock) (offset bufferSize : ℕ) : Option ℕ :=
  if offset ≥ b.size then none
  else if offset > 2 ^ 32 - 1 - bufferSize then none
  else if offset + bufferSize ≥ b.size then none
  else some offset

/-! ## Construction -/

/-- `create_ashmem_instance` and the mapping of the region, which the kernel has zeroed. -/
def createAshmemInstance (size : Int32) : Option Memory :=
  if 0 < size then some ⟨size.toInt.toNat, fun _ => 0⟩ else none

/-- The header of an empty block. -/
def resetHeader (b : SharedBlock) : Option SharedBlock := do
  let b ← b.setHeader .unusedOffset (sizeOfHeader + sizeOfRowGroup)
  let b ← b.setHeader .firstRowGroupOffset sizeOfHeader
  let b ← b.setHeader .rowNums 0
  let b ← b.setHeader .columnNums 0
  let b ← b.setHeader .startPos 0
  let b ← b.setHeader .lastPos 0
  b.setHeader .blockPos 0

/-- The size of the region is `size as i32`, while the block goes by `size`. -/
def create (size : ℕ) : Option (Except Status SharedBlock) :=
  match createAshmemInstance (Int32.ofNat size) with
  | none => pure (.error .ashmemError)
  | some ashmem =>
    -- `init` reads the header through the ashmem, which checks its bounds.
    if ashmem.size < sizeOfHeader then pure (.error .ashmemError)
    else do
      let b ← resetHeader ⟨size, false, ashmem⟩
      match b.offsetToPtr sizeOfHeader sizeOfRowGroup with
      | none => pure (.ok b)
      | some first => do
        let b ← b.store first (List.replicate sizeOfRowGroup 0)
        let b ← b.storeU32 (first + nextGroupField) 0
        pure (.ok b)

/-! ## Private helpers -/

/-- `(!u).wrapping_add(1) & 3`, what is missing to a multiple of 4. -/
def alignPadding (u : ℕ) : ℕ :=
  (2 ^ 32 - 1 - u + 1) % 2 ^ 32 % 4

/-- Reserve `size` bytes. The offset is 0 when there is no room. -/
def alloc (b : SharedBlock) (size : ℕ) (aligned : Bool) : Option (ℕ × SharedBlock) := do
  let unusedOffset ← b.header .unusedOffset
  let padding := if aligned then alignPadding unusedOffset else 0
  let offset := (unusedOffset + padding) % 2 ^ 32
  if offset + size ≥ b.size then pure (0, b)
  else do
    let b ← b.setHeader .unusedOffset ((offset + size % 2 ^ 32) % 2 ^ 32)
    pure (offset, b)

/-- The loops that follow the row groups : `while row_pos >= limit`, at most `fuel` times. The
inner `none` is the null pointer. -/
def seekGroup (b : SharedBlock) (limit : ℕ) : ℕ → ℕ → ℕ → Option (Option (ℕ × ℕ))
  | 0, groupPtr, rowPos => pure (some (groupPtr, rowPos))
  | fuel + 1, groupPtr, rowPos =>
    if rowPos < limit then pure (some (groupPtr, rowPos))
    else do
      let next ← b.mem.loadU32 (groupPtr + nextGroupField)
      match b.offsetToPtr next sizeOfRowGroup with
      | none => pure none
      | some groupPtr => seekGroup b limit fuel groupPtr (rowPos - rowOffsetsNum)

def getRowOffset (b : SharedBlock) (row : ℕ) : Option (Option ℕ) := do
  let firstOff ← b.header .firstRowGroupOffset
  match b.offsetToPtr firstOff sizeOfRowGroup with
  | none => pure none
  | some groupPtr => do
    match ← b.seekGroup rowOffsetsNum row groupPtr row with
    | none => pure none
    | some (groupPtr, rowPos) => pure (some (groupPtr + 4 * rowPos))

/-- The group after a full one, allocated if there is none yet. -/
def nextGroup (b : SharedBlock) (groupPtr : ℕ) : Option (Option ℕ × SharedBlock) := do
  let nextExisting ← b.mem.loadU32 (groupPtr + nextGroupField)
  let (linked, b) : Bool × SharedBlock ←
    if nextExisting = 0 then do
      let (newOff, b) ← b.alloc sizeOfRowGroup true
      if newOff = 0 then pure (false, b)
      else do
        let b ← b.storeU32 (groupPtr + nextGroupField) newOff
        pure (true, b)
    else pure (true, b)
  if linked then do
    let nextOff ← b.mem.loadU32 (groupPtr + nextGroupField)
    match b.offsetToPtr nextOff sizeOfRowGroup with
    | none => pure (none, b)
    | some groupPtr => do
      let b ← b.storeU32 (groupPtr + nextGroupField) 0
      pure (some groupPtr, b)
  else pure (none, b)

/-- The end of `alloc_row_offset` : count the row and point to its row offset. -/
def countRow (b : SharedBlock) (groupPtr rowPos : ℕ) : Option (Option ℕ × SharedBlock) := do
  let rowNums ← b.header .rowNums
  let b ← b.setHeader .rowNums ((rowNums + 1) % 2 ^ 32)
  pure (some (groupPtr + 4 * rowPos), b)

/-- The loop runs while `row_pos > ROW_OFFSETS_NUM`, so a full group is left to `nextGroup`. -/
def allocRowOffset (b : SharedBlock) : Option (Option ℕ × SharedBlock) := do
  let rowNums ← b.header .rowNums
  let firstOff ← b.header .firstRowGroupOffset
  match b.offsetToPtr firstOff sizeOfRowGroup with
  | none => pure (none, b)
  | some groupPtr => do
    match ← b.seekGroup (rowOffsetsNum + 1) rowNums groupPtr rowNums with
    | none => pure (none, b)
    | some (groupPtr, rowPos) =>
      if rowPos = rowOffsetsNum then do
        match ← b.nextGroup groupPtr with
        | (none, b) => pure (none, b)
        | (some groupPtr, b) => b.countRow groupPtr 0
      else b.countRow groupPtr rowPos

/-! ## Lookups -/

def rowNum (b : SharedBlock) : Option ℕ :=
  b.header .rowNums

def columnNum (b : SharedBlock) : Option ℕ :=
  b.header .columnNums

/-- The pointer to a cell. Only its row's first cell is checked to be in the block. -/
def getCellUnit (b : SharedBlock) (row col : ℕ) : Option (Option ℕ) := do
  let rows ← b.header .rowNums
  let cols ← b.header .columnNums
  if row ≥ rows ∨ col ≥ cols then pure none
  else do
    match ← b.getRowOffset row with
    | none => pure none
    | some rowOffPtr => do
      let rowOff ← b.mem.loadU32 rowOffPtr
      match b.offsetToPtr rowOff sizeOfCellUnit with
      | none => pure none
      | some base => pure (some (base + col * sizeOfCellUnit))

/-- `CellValueLegacy`. -/
structure CellValueLegacy where
  cellType : ℕ
  longValue : Int64 := 0
  doubleValue : Double := ⟨0⟩
  stringOrBlobOffset : ℕ := 0
  stringOrBlobSize : ℕ := 0

/-- A `CellUnit` as its bytes : the type, then the union. -/
def CellValueLegacy.ofBytes (bytes : List UInt8) : CellValueLegacy :=
  let cellType := leNat (bytes.take 4)
  let value := bytes.drop 4
  if cellType = cellUnitTypeInteger then { cellType, longValue := ofBasicBytes value }
  else if cellType = cellUnitTypeFloat then { cellType, doubleValue := ofBasicBytes value }
  else if cellType = cellUnitTypeString ∨ cellType = cellUnitTypeBlob then
    { cellType, stringOrBlobOffset := leNat (value.take 4),
      stringOrBlobSize := leNat (value.drop 4) }
  else { cellType }

def getCellValue (b : SharedBlock) (row col : ℕ) :
    Option (Except DataShareError CellValueLegacy) := do
  match ← b.getCellUnit row col with
  | none => pure (.error .invalidColumnIndex)
  | some ptr => do
    let bytes ← b.mem.load ptr sizeOfCellUnit
    pure (.ok (.ofBytes bytes))

/-- `get_cell_unit_value_string` and `get_cell_unit_value_blob` : the pointer, and `out_size`. -/
def getCellUnitValueString (b : SharedBlock) (cell : ℕ) : Option (Option ℕ × ℕ) := do
  let offset ← b.mem.loadU32 (cell + 4)
  let size ← b.mem.loadU32 (cell + 8)
  pure (b.offsetToPtr offset size, size)

def getStringData (b : SharedBlock) (offset size : ℕ) :
    Option (Except DataShareError (List UInt8)) :=
  match b.offsetToPtr offset size with
  | none => pure (.error .invalidColumnIndex)
  | some p => do
    let bytes ← b.mem.load p size
    pure (.ok bytes)

/-- The bytes up to the first NUL, if they are UTF-8. -/
def getCellUnitStr (b : SharedBlock) (cell : CellValueLegacy) :
    Option (Except DataShareError String) :=
  if cell.cellType ≠ cellUnitTypeString then pure (.error .invalidOperation)
  else
    match b.offsetToPtr cell.stringOrBlobOffset cell.stringOrBlobSize with
    | none => pure (.error .invalidColumnIndex)
    | some p => do
      let slice ← b.mem.load p cell.stringOrBlobSize
      match fromUtf8 (slice.takeWhile (· ≠ 0)) with
      | none => pure (.error .invalidOperation)
      | some s => pure (.ok s)

/-! ## Mutators -/

def clear (b : SharedBlock) : Option (Status × SharedBlock) :=
  if b.readOnly then pure (.invalidOperation, b)
  else do
    let b ← b.resetHeader
    let firstOff ← b.header .firstRowGroupOffset
    match b.offsetToPtr firstOff sizeOfRowGroup with
    | none => pure (.badValue, b)
    | some groupPtr => do
      let b ← b.storeU32 (groupPtr + nextGroupField) 0
      pure (.ok, b)

def setColumnNum (b : SharedBlock) (n : ℕ) : Option (Status × SharedBlock) :=
  if b.readOnly then pure (.invalidOperation, b)
  else do
    let cur ← b.header .columnNums
    let rows ← b.header .rowNums
    if (cur > 0 ∨ rows > 0) ∧ cur ≠ n then pure (.invalidOperation, b)
    else if n > colMaxNum then pure (.invalidOperation, b)
    else do
      let b ← b.setHeader .columnNums n
      pure (.ok, b)

/-- Take the last row back off the count. -/
def uncountRow (b : SharedBlock) : Option SharedBlock := do
  let rowNums ← b.header .rowNums
  if rowNums > 0 then b.setHeader .rowNums (rowNums - 1) else pure b

def allocRow (b : SharedBlock) : Option (Status × SharedBlock) :=
  if b.readOnly then pure (.invalidOperation, b)
  else do
    match ← b.allocRowOffset with
    | (none, b) => pure (.noMemory, b)
    | (some rowOffPtr, b) => do
      let columnNums ← b.header .columnNums
      let fieldDirSize := columnNums * sizeOfCellUnit
      let (fieldDirOffset, b) ← b.alloc fieldDirSize true
      if fieldDirOffset = 0 then do
        let b ← b.uncountRow
        pure (.noMemory, b)
      else
        match b.offsetToPtr fieldDirOffset sizeOfCellUnit with
        | none => pure (.badValue, b)
        | some fieldDirPtr => do
          let b ← b.store fieldDirPtr (List.replicate fieldDirSize 0)
          let b ← b.storeU32 rowOffPtr fieldDirOffset
          pure (.ok, b)

def freeLastRow (b : SharedBlock) : Option (Status × SharedBlock) :=
  if b.readOnly then pure (.invalidOperation, b)
  else do
    let b ← b.uncountRow
    pure (.ok, b)

/-- The body of `put_long`, `put_double` and `put_null` : write the type and the union. -/
def putCell (b : SharedBlock) (row col cellType : ℕ) (value : List UInt8) :
    Option (Status × SharedBlock) :=
  if b.readOnly then pure (.invalidOperation, b)
  else do
    match ← b.getCellUnit row col with
    | none => pure (.badValue, b)
    | some cell => do
      let b ← b.store cell (leBytes 4 cellType ++ value)
      pure (.ok, b)

def putLong (b : SharedBlock) (row col : ℕ) (v : Int64) : Option (Status × SharedBlock) :=
  b.putCell row col cellUnitTypeInteger (basicBytes v)

def putDouble (b : SharedBlock) (row col : ℕ) (v : Double) : Option (Status × SharedBlock) :=
  b.putCell row col cellUnitTypeFloat (basicBytes v)

/-- A null cell has an empty string in the union. -/
def putNull (b : SharedBlock) (row col : ℕ) : Option (Status × SharedBlock) :=
  b.putCell row col cellUnitTypeNull (leBytes 4 0 ++ leBytes 4 0)

def putBlobOrString (b : SharedBlock) (row col : ℕ) (data : List UInt8) (kind : ℕ) :
    Option (Status × SharedBlock) :=
  if b.readOnly then pure (.invalidOperation, b)
  else do
    match ← b.getCellUnit row col with
    | none => pure (.badValue, b)
    | some cell => do
      let (offset, b) ← b.alloc data.length false
      if offset = 0 then pure (.noMemory, b)
      else
        match b.offsetToPtr offset (data.length % 2 ^ 32) with
        | none => pure (.noMemory, b)
        | some dst => do
          let b ← if data.length ≠ 0 then b.store dst data else pure b
          let b ← b.store cell (leBytes 4 kind ++ (leBytes 4 offset ++ leBytes 4 data.length))
          pure (.ok, b)

def putBlob (b : SharedBlock) (row col : ℕ) (data : List UInt8) : Option (Status × SharedBlock) :=
  b.putBlobOrString row col data cellUnitTypeBlob

/-- `value` includes the trailing NUL. -/
def putString (b : SharedBlock) (row col : ℕ) (value : List UInt8) :
    Option (Status × SharedBlock) :=
  b.putBlobOrString row col value cellUnitTypeString

end SharedBlock

end Rust

end DataShare
