import DataShare.CppBuffer
import DataShare.SharedBlockRefinement

/-!
# The C++ result set

`datashare_result_set.cpp` reads a query result through one shared block, which a
`ResultSetBridge` fills a page at a time. The functions of `shared_block.cpp` are those that
`shared_block.rs` was ported from, and `SharedBlock` stands for both : only `Create` and
`AllocRow` differ.

The rows in the block are those from `startRowPos_` to `endRowPos_`, and the getters read the
block at `rowPos_ - startRowPos_`. `GetBlob` checks the cursor first, the others do not.

Signed overflow is undefined, so a call that runs into it returns `none`, as one does that
reads outside of the mapping.
-/

namespace DataShare

/-- The bytes at `a` up to the first NUL, if it is one of the next `fuel` bytes. -/
def Memory.cString (m : Memory) : ℕ → ℕ → Option (List UInt8)
  | 0, _ => none
  | fuel + 1, a =>
    if m.byte a = 0 then some [] else (m.cString fuel (a + 1)).map (m.byte a :: ·)

theorem Memory.cString_of_holds {m : Memory} : ∀ {s : List UInt8} {a fuel : ℕ},
    m.Holds a (s ++ [0]) → s.length < fuel → m.cString fuel a = some (s.takeWhile (· ≠ 0))
  | [], a, fuel + 1, h, _ => by
    have hbyte := h.byte 0 (by simp)
    exact if_pos hbyte
  | x :: s, a, fuel + 1, h, hlt => by
    have hbyte : m.byte a = x := h.byte 0 (by simp)
    have hsplit : m.Holds a ([x] ++ ((s ++ [0]) ++ [])) := by simpa using h
    have hrest : m.Holds (a + 1) (s ++ [0]) := hsplit.part
    have ih : m.cString fuel (a + 1) = _ := cString_of_holds hrest (Nat.lt_of_succ_lt_succ hlt)
    rw [Memory.cString, hbyte]
    by_cases hx : x = 0
    · rw [if_pos hx, hx]
      rfl
    · rw [if_neg hx, ih, List.takeWhile_cons_of_pos (by simpa using hx)]
      rfl

namespace Cpp

open Rust (Status sizeOfHeader sizeOfCellUnit cellUnitTypeNull cellUnitTypeInteger
  cellUnitTypeFloat cellUnitTypeString cellUnitTypeBlob)

/-! ## Error codes -/

def eOk : Int32 := 0

def eError : Int32 := 1001

def eInvalidStatement : Int32 := 1007

def eInvalidColumnIndex : Int32 := 1008

def eInvalidObjectType : Int32 := 1020

/-! ## Shared block -/

abbrev SharedBlock := Rust.SharedBlock

namespace SharedBlock

/-- Nothing is written to the new region, which the kernel has zeroed. -/
def create (size : ℕ) : Except Status SharedBlock :=
  match Rust.SharedBlock.createAshmemInstance (.ofNat size) with
  | none => .error .ashmemError
  | some ashmem =>
    if ashmem.size < sizeOfHeader then .error .ashmemError else .ok ⟨size, false, ashmem⟩

/-- Without columns the directory is empty, and `memset_s` refuses to clear it. -/
def allocRow (b : SharedBlock) : Option (Status × SharedBlock) :=
  if b.readOnly then pure (.invalidOperation, b)
  else do
    match ← b.allocRowOffset with
    | (none, b) => pure (.noMemory, b)
    | (some rowOffset, b) => do
      let columnNums ← b.columnNum
      let fieldDirSize := columnNums * sizeOfCellUnit
      let (fieldDirOffset, b) ← b.alloc fieldDirSize true
      if fieldDirOffset = 0 then do
        let rowNums ← b.rowNum
        let b ← b.setHeader .rowNums ((rowNums + (2 ^ 32 - 1)) % 2 ^ 32)
        pure (.noMemory, b)
      else
        match b.offsetToPtr fieldDirOffset sizeOfCellUnit with
        | none => pure (.badValue, b)
        | some fieldDir =>
          if fieldDirSize = 0 then pure (.noMemory, b)
          else do
            let b ← b.store fieldDir (List.replicate fieldDirSize 0)
            let b ← b.storeU32 rowOffset fieldDirOffset
            pure (.ok, b)

end SharedBlock

/-- `CellUnit` : the type and the bytes of the union. -/
structure CellUnit where
  type : ℕ
  cell : List UInt8

namespace CellUnit

def longValue (c : CellUnit) : Int64 :=
  ofBasicBytes c.cell

def doubleValue (c : CellUnit) : Double :=
  ofBasicBytes c.cell

/-- `stringOrBlobValue.offset`. -/
def offset (c : CellUnit) : ℕ :=
  leNat (c.cell.take 4)

/-- `stringOrBlobValue.size`. -/
def size (c : CellUnit) : ℕ :=
  leNat (c.cell.drop 4)

end CellUnit

/-! ## Block writer -/

/-- A call on the `Writer`. A string comes with the size its caller gives. -/
inductive WriterCall
  | allocRow
  | freeLastRow
  | writeNull (column : ℕ)
  | writeLong (column : ℕ) (value : Int64)
  | writeDouble (column : ℕ) (value : Double)
  | writeBlob (column : ℕ) (value : List UInt8)
  | writeString (column : ℕ) (value : List UInt8)

namespace DataShareBlockWriterImpl

def convertErrorCode (shareBlockErr : Status) : Int32 :=
  if shareBlockErr = .ok then eOk else eError

def getCurrentRowIndex (b : SharedBlock) : Option (Option ℕ) := do
  let rowNum ← b.rowNum
  pure (if rowNum > 0 then some (rowNum - 1) else none)

/-- The body of `Write`, for the put of one type. -/
def write (b : SharedBlock) (put : ℕ → Option (Status × SharedBlock)) :
    Option (Int32 × SharedBlock) := do
  match ← getCurrentRowIndex b with
  | none => pure (eError, b)
  | some currentRowIndex => do
    let (st, b) ← put currentRowIndex
    pure (convertErrorCode st, b)

def call (b : SharedBlock) : WriterCall → Option (Int32 × SharedBlock)
  | .allocRow => do
    let (st, b) ← SharedBlock.allocRow b
    pure (convertErrorCode st, b)
  | .freeLastRow => do
    let (st, b) ← b.freeLastRow
    pure (convertErrorCode st, b)
  | .writeNull column => write b fun row => b.putNull row column
  | .writeLong column value => write b fun row => b.putLong row column value
  | .writeDouble column value => write b fun row => b.putDouble row column value
  | .writeBlob column value => write b fun row => b.putBlob row column value
  | .writeString column value => write b fun row => b.putString row column value

end DataShareBlockWriterImpl

/-! ## Bridges -/

/-- What a bridge does with the writer : calls, each after the code of the last one, and in the
end its result and its next state. -/
inductive Fill (σ : Type)
  | done (result : Int32) (s : σ)
  | call (c : WriterCall) (next : Int32 → Fill σ)

/-- A bridge with states `σ`. The first two return a code, and what they leave in their
argument, which is empty, or 0, before. -/
structure ResultSetBridge (σ : Type) where
  getAllColumnNames : σ → Int32 × List StdString
  getRowCount : σ → Int32 × Int32
  onGo : σ → Int32 → Int32 → Fill σ

/-- Let a bridge fill a block. -/
def Fill.run {σ : Type} (b : SharedBlock) : Fill σ → Option (Int32 × SharedBlock × σ)
  | .done result s => pure (result, b, s)
  | .call c next => do
    let (code, b) ← DataShareBlockWriterImpl.call b c
    run b (next code)

/-! ## The result set -/

/-- `INIT_POS` and `INITIAL_POS`. -/
def initPos : Int32 := -1

/-- `MAX_SHARE_BLOCK_SIZE`. -/
def maxShareBlockSize : ℕ := 5 * 1024 * 1024

/-- `count` is the number of columns, once it is known. -/
structure DataShareResultSet (σ : Type) where
  rowPos : Int32 := initPos
  count : Int32 := -1
  startRowPos : Int32 := -1
  endRowPos : Int32 := -1
  sharedBlock : Option SharedBlock := none
  bridge : Option σ := none

/-- A sum of `int`s. -/
def addInt (a b : Int32) : Option Int32 :=
  if -2 ^ 31 ≤ a.toInt + b.toInt ∧ a.toInt + b.toInt < 2 ^ 31 then some (a + b) else none

/-- The conversions of C++ : `<<` and the cast of a `double`, and `strtoll` with base 0. -/
structure Conversions where
  toString : Double → StdString
  asI64 : Double → Int64
  strtoll : StdString → Int64

namespace DataShareResultSet

variable {σ : Type}

/-- The constructor. `region` says if a region can be had. -/
def new (bridge : σ) (blockSize : ℕ) (region : Bool) : DataShareResultSet σ where
  sharedBlock :=
    if blockSize > maxShareBlockSize ∨ region = false then none
    else (SharedBlock.create blockSize).toOption
  bridge := some bridge

def getAllColumnNames (br : ResultSetBridge σ) (rs : DataShareResultSet σ) :
    Int32 × List StdString :=
  match rs.bridge with
  | none => (eError, [])
  | some s => br.getAllColumnNames s

def getRowCount (br : ResultSetBridge σ) (rs : DataShareResultSet σ) : Int32 × Int32 :=
  match rs.bridge with
  | none => (eError, 0)
  | some s => br.getRowCount s

/-- The codes of `Clear` and `SetColumnNum` are not looked at. -/
def load (br : ResultSetBridge σ) (rs : DataShareResultSet σ) (b : SharedBlock) (s : σ)
    (startRowIndex targetRowIndex : Int32) : Option (Int32 × SharedBlock × σ) := do
  let (_, b) ← b.clear
  let (_, b) ← b.setColumnNum ((rs.getAllColumnNames br).2.length % 2 ^ 32)
  (br.onGo s startRowIndex targetRowIndex).run b

/-- With what is left in `cachedIndex`, which is -1 before. -/
def onGo (br : ResultSetBridge σ) (rs : DataShareResultSet σ)
    (startRowIndex targetRowIndex : Int32) : Option (Bool × Int32 × DataShareResultSet σ) :=
  match rs.sharedBlock, rs.bridge with
  | some b, some s => do
    let (result, b, s) ← rs.load br b s startRowIndex targetRowIndex
    pure (decide (0 ≤ result), result, { rs with sharedBlock := some b, bridge := some s })
  | _, _ => pure (false, -1, rs)

/-! ## The cursor -/

def goToRow (br : ResultSetBridge σ) (rs : DataShareResultSet σ) (position : Int32) :
    Option (Int32 × DataShareResultSet σ) :=
  if rs.sharedBlock.isNone then pure (eError, rs)
  else
    let rowCnt := (rs.getRowCount br).2
    if position ≥ rowCnt then pure (eError, { rs with rowPos := rowCnt })
    else if position < 0 then pure (eError, { rs with rowPos := initPos })
    else if position = rs.rowPos then pure (eOk, rs)
    else if position > rs.endRowPos ∨ position < rs.startRowPos then do
      let (result, endPos, rs) ← rs.onGo br position (rowCnt - 1)
      if result then
        pure (eOk, { rs with rowPos := position, startRowPos := position, endRowPos := endPos })
      else
        pure (eError,
          { rs with rowPos := rowCnt, startRowPos := initPos, endRowPos := initPos })
    else pure (eOk, { rs with rowPos := position })

def goTo (br : ResultSetBridge σ) (rs : DataShareResultSet σ) (offset : Int32) :
    Option (Int32 × DataShareResultSet σ) := do
  rs.goToRow br (← addInt rs.rowPos offset)

def goToFirstRow (br : ResultSetBridge σ) (rs : DataShareResultSet σ) :
    Option (Int32 × DataShareResultSet σ) :=
  rs.goToRow br 0

def goToLastRow (br : ResultSetBridge σ) (rs : DataShareResultSet σ) :
    Option (Int32 × DataShareResultSet σ) :=
  let (ret, rowCnt) := rs.getRowCount br
  if ret ≠ eOk then pure (ret, rs)
  else do
    rs.goToRow br (← addInt rowCnt (-1))

def goToNextRow (br : ResultSetBridge σ) (rs : DataShareResultSet σ) :
    Option (Int32 × DataShareResultSet σ) := do
  rs.goToRow br (← addInt rs.rowPos 1)

def goToPreviousRow (br : ResultSetBridge σ) (rs : DataShareResultSet σ) :
    Option (Int32 × DataShareResultSet σ) := do
  rs.goToRow br (← addInt rs.rowPos (-1))

def isAtFirstRow (rs : DataShareResultSet σ) : Except Int32 Bool :=
  .ok (rs.rowPos == 0)

/-- The body of the predicates that ask for the row count. -/
def withRowCount (br : ResultSetBridge σ) (rs : DataShareResultSet σ) (f : Int32 → Bool) :
    Except Int32 Bool :=
  let (ret, rowCnt) := rs.getRowCount br
  if ret ≠ eOk then .error ret else .ok (f rowCnt)

def isAtLastRow (br : ResultSetBridge σ) (rs : DataShareResultSet σ) : Except Int32 Bool :=
  rs.withRowCount br fun rowCnt => rs.rowPos == rowCnt - 1

def isStarted (rs : DataShareResultSet σ) : Except Int32 Bool :=
  .ok (rs.rowPos != initPos)

def isEnded (br : ResultSetBridge σ) (rs : DataShareResultSet σ) : Except Int32 Bool :=
  rs.withRowCount br fun rowCnt => if rowCnt = 0 then true else rs.rowPos == rowCnt

/-! ## Getters -/

/-- The count it finds, which is 0 before, and the result set that keeps it. -/
def getColumnCount (br : ResultSetBridge σ) (rs : DataShareResultSet σ) :
    Int32 × DataShareResultSet σ :=
  if rs.count = -1 then
    let (ret, columnNames) := rs.getAllColumnNames br
    if ret ≠ eOk then (0, rs)
    else (.ofNat columnNames.length, { rs with count := .ofNat columnNames.length })
  else (rs.count, rs)

def checkState (br : ResultSetBridge σ) (rs : DataShareResultSet σ) (columnIndex : Int32) :
    Int32 × DataShareResultSet σ :=
  let (cnt, rs) := rs.getColumnCount br
  if columnIndex ≥ cnt ∨ columnIndex < 0 then (eInvalidColumnIndex, rs)
  else if rs.rowPos = initPos then (eInvalidStatement, rs)
  else (eOk, rs)

/-- The cell that `GetCellUnit` points to, in the row of the cursor. -/
def cellUnit (rs : DataShareResultSet σ) (b : SharedBlock) (columnIndex : Int32) :
    Option (Option CellUnit) := do
  match ← b.getCellUnit (rs.rowPos - rs.startRowPos).toUInt32.toNat
      columnIndex.toUInt32.toNat with
  | none => pure none
  | some ptr => do
    let bytes ← b.mem.load ptr sizeOfCellUnit
    pure (some ⟨leNat (bytes.take 4), bytes.drop 4⟩)

/-- The getters return a code, and what is in `value` then. -/
def getString (conv : Conversions) (rs : DataShareResultSet σ) (columnIndex : Int32)
    (value : StdString) : Option (Int32 × StdString) :=
  match rs.sharedBlock with
  | none => pure (eError, value)
  | some b => do
    match ← rs.cellUnit b columnIndex with
    | none => pure (eError, value)
    | some cell =>
      if cell.type = cellUnitTypeString then
        match b.offsetToPtr cell.offset cell.size with
        | none => pure (eError, value)
        | some p => do
          let s ← b.mem.cString (b.mem.size - p) p
          pure (eOk, s)
      else if cell.type = cellUnitTypeNull then pure (eOk, value)
      else if cell.type = cellUnitTypeInteger then
        pure (eOk, utf8Bytes (toString cell.longValue.toInt))
      else if cell.type = cellUnitTypeFloat then pure (eOk, conv.toString cell.doubleValue)
      else pure (eError, value)

/-- The type of the cell is not looked at. -/
def getInt (rs : DataShareResultSet σ) (columnIndex : Int32) (value : Int32) :
    Option (Int32 × Int32) :=
  match rs.sharedBlock with
  | none => pure (eError, value)
  | some b => do
    match ← rs.cellUnit b columnIndex with
    | none => pure (eError, value)
    | some cell => pure (eOk, cell.longValue.toInt32)

def getLong (conv : Conversions) (rs : DataShareResultSet σ) (columnIndex : Int32)
    (value : Int64) : Option (Int32 × Int64) :=
  match rs.sharedBlock with
  | none => pure (eError, value)
  | some b => do
    match ← rs.cellUnit b columnIndex with
    | none => pure (eError, value)
    | some cell =>
      if cell.type = cellUnitTypeInteger then pure (eOk, cell.longValue)
      else if cell.type = cellUnitTypeString then
        match b.offsetToPtr cell.offset cell.size with
        | none => pure (eOk, 0)
        | some p =>
          if cell.size > 1 then do
            let s ← b.mem.cString (b.mem.size - p) p
            pure (eOk, conv.strtoll s)
          else pure (eOk, 0)
      else if cell.type = cellUnitTypeFloat then pure (eOk, conv.asI64 cell.doubleValue)
      else if cell.type = cellUnitTypeNull then pure (eOk, 0)
      else if cell.type = cellUnitTypeBlob then pure (eOk, 0)
      else pure (eInvalidObjectType, value)

def getBlob (br : ResultSetBridge σ) (rs : DataShareResultSet σ) (columnIndex : Int32)
    (value : List UInt8) : Option (Int32 × List UInt8 × DataShareResultSet σ) :=
  match rs.sharedBlock with
  | none => pure (eError, value, rs)
  | some b => do
    let (errorCode, rs) := rs.checkState br columnIndex
    if errorCode ≠ eOk then pure (errorCode, value, rs)
    else
      match ← rs.cellUnit b columnIndex with
      | none => pure (eError, value, rs)
      | some cell =>
        if cell.type = cellUnitTypeBlob ∨ cell.type = cellUnitTypeString then
          match b.offsetToPtr cell.offset cell.size with
          | none => pure (eOk, [], rs)
          | some p => do
            let blob ← b.mem.load p cell.size
            pure (eOk, blob, rs)
        else if cell.type = cellUnitTypeInteger then pure (eOk, [], rs)
        else if cell.type = cellUnitTypeNull then pure (eOk, [], rs)
        else if cell.type = cellUnitTypeFloat then pure (eOk, [], rs)
        else pure (eInvalidObjectType, [], rs)

def isColumnNull (br : ResultSetBridge σ) (rs : DataShareResultSet σ) (columnIndex : Int32)
    (isNull : Bool) : Option (Int32 × Bool × DataShareResultSet σ) :=
  match rs.sharedBlock with
  | none => pure (eError, isNull, rs)
  | some b => do
    let (errorCode, rs) := rs.checkState br columnIndex
    if errorCode ≠ eOk then pure (errorCode, isNull, rs)
    else
      match ← rs.cellUnit b columnIndex with
      | none => pure (eError, isNull, rs)
      | some cell => pure (eOk, cell.type == cellUnitTypeNull, rs)

end DataShareResultSet

end Cpp

end DataShare
