import DataShare.SharedBlockRefinement

/-!
# The Rust result set

`result_set.rs` reads a query result through one shared block. A `ResultSetBridge` fills the
block from a row on when the cursor leaves the rows that are in it (`onGo`), and the getters
read the block at `row_pos - start_row_pos`.

If the bridge fails half way, `start_row_pos` is -1 and the getters read the block at `row_pos`,
while the rows in the block are those from the row that was asked for. Which
runs this misreads is the matter of the next module.
-/

namespace DataShare

namespace Rust

/-! ## Block writer -/

/-- A call on the `Writer` : `alloc_row`, or the write of a value to a column of the last row. -/
inductive WriterCall
  | allocRow
  | write (column : ℕ) (value : Cell)

namespace BlockWriter

/-- `alloc_row_legacy`. -/
def allocRow (b : SharedBlock) : Option (Except DataShareError Unit × SharedBlock) := do
  let (st, b) ← b.allocRow
  pure (resultFromCode st, b)

/-- `write_null_legacy`, `write_long_legacy`, `write_double_legacy`, `write_string_str` and
`write_blob_slice`, by the value. -/
def write (b : SharedBlock) (column : ℕ) (value : Cell) :
    Option (Except DataShareError Unit × SharedBlock) := do
  let row ← b.rowNum
  if row = 0 then pure (.error .invalidOperation, b)
  else do
    let (st, b) ← b.put (row - 1) column value
    pure (resultFromCode st, b)

def call (b : SharedBlock) : WriterCall → Option (Except DataShareError Unit × SharedBlock)
  | .allocRow => allocRow b
  | .write column value => write b column value

end BlockWriter

/-! ## Bridges -/

/-- What a bridge does with the writer : calls, each after the result of the last one, and in
the end a result and its next state. -/
inductive Fill (σ : Type)
  | done (res : Except DataShareError Unit) (s : σ)
  | call (c : WriterCall) (next : Except DataShareError Unit → Fill σ)

/-- The `on_go` of a bridge with states `σ`. -/
structure ResultSetBridge (σ : Type) where
  onGo : σ → Int32 → Int32 → Fill σ

/-- Let a bridge fill a block. -/
def Fill.run {σ : Type} (b : SharedBlock) :
    Fill σ → Option (Except DataShareError Unit × SharedBlock × σ)
  | .done res s => pure (res, b, s)
  | .call c next => do
    let (res, b) ← BlockWriter.call b c
    run b (next res)

/-! ## The result set -/

/-- `INIT_POS`. -/
def initPos : Int32 := -1

structure DataShareResultSet (σ : Type) where
  block : Option SharedBlock := none
  columnNames : List String := []
  rowPos : Int32 := initPos
  count : Int32 := 0
  isClosed : Bool := false
  bridge : Option σ := none
  startRowPos : Int32 := -1
  endRowPos : Int32 := -1

inductive DataType
  | typeNull | typeInteger | typeFloat | typeString | typeBlob
deriving DecidableEq, Repr

/-- `From<i32>`. -/
def DataType.ofCellType : ℕ → DataType
  | 1 => typeInteger
  | 2 => typeFloat
  | 3 => typeString
  | 4 => typeBlob
  | _ => typeNull

/-- The conversions of `f64`. -/
structure FloatConversions where
  asI64 : Double → Int64
  ofI64 : Int64 → Double
  toString : Double → String
  parse : String → Option Double

/-- `str::parse::<i64>` : an optional sign, and digits in range. -/
def parseI64 (s : String) : Option Int64 :=
  let (negative, digits) : Bool × List Char :=
    match s.toList with
    | '-' :: cs => (true, cs)
    | '+' :: cs => (false, cs)
    | cs => (false, cs)
  if digits ≠ [] ∧ digits.all Char.isDigit then
    let n : ℕ := digits.foldl (fun n c => 10 * n + (c.toNat - '0'.toNat)) 0
    let v : ℤ := if negative then -n else n
    if -2 ^ 63 ≤ v ∧ v < 2 ^ 63 then some (.ofInt v) else none
  else none

namespace DataShareResultSet

variable {σ : Type}

/-- `with_bridge`, with what the bridge says of its columns and rows. -/
def withBridge (rs : DataShareResultSet σ) (names : Except DataShareError (List String))
    (count : Except DataShareError Int32) (bridge : σ) : DataShareResultSet σ where
  block := rs.block
  columnNames := names.toOption.getD rs.columnNames
  rowPos := rs.rowPos
  count := count.toOption.getD rs.count
  isClosed := rs.isClosed
  bridge := some bridge
  startRowPos := rs.startRowPos
  endRowPos := rs.endRowPos

def attachSharedBlock (rs : DataShareResultSet σ) (b : SharedBlock) : DataShareResultSet σ :=
  { rs with block := some b }

/-- The block to fill : the one that is there, or a new one if the region can be had. -/
def takeBlock (rs : DataShareResultSet σ) (region : Bool) :
    Option (Except DataShareError SharedBlock) :=
  match rs.block with
  | some b => pure (.ok b)
  | none =>
    if region then do
      match ← SharedBlock.create (2 * 1024 * 1024) with
      | .ok b => pure (.ok b)
      | .error _ => pure (.error .outOfMemory)
    else pure (.error .outOfMemory)

/-- The load of a page in `on_go` : clear, set the columns, let the bridge fill. -/
def load (br : ResultSetBridge σ) (rs : DataShareResultSet σ) (b : SharedBlock) (s : σ)
    (startRowIndex targetRowIndex : Int32) :
    Option (Except DataShareError Unit × SharedBlock × σ) := do
  let (st, b) ← b.clear
  match resultFromCode st with
  | .error e => pure (.error e, b, s)
  | .ok _ => do
    let (st, b) ← b.setColumnNum (rs.columnNames.length % 2 ^ 32)
    match resultFromCode st with
    | .error e => pure (.error e, b, s)
    | .ok _ => (br.onGo s startRowIndex targetRowIndex).run b

/-- The block is put back even if the load failed. -/
def onGo (br : ResultSetBridge σ) (region : Bool) (rs : DataShareResultSet σ)
    (startRowIndex targetRowIndex : Int32) :
    Option (Except DataShareError Int32 × DataShareResultSet σ) :=
  match rs.bridge with
  | none => pure (.ok (-1), rs)
  | some s => do
    match ← rs.takeBlock region with
    | .error e => pure (.error e, rs)
    | .ok b => do
      let (res, b, s) ← rs.load br b s startRowIndex targetRowIndex
      let rowCount ← b.rowNum
      match res with
      | .error e =>
        pure (.error e,
          { rs with block := some b, bridge := some s, startRowPos := -1, endRowPos := -1 })
      | .ok _ =>
        if Int32.ofNat rowCount > 0 then
          let endRowPos := startRowIndex + Int32.ofNat rowCount - 1
          pure (.ok endRowPos,
            { rs with block := some b, bridge := some s, startRowPos := startRowIndex, endRowPos })
        else
          pure (.ok (-1),
            { rs with block := some b, bridge := some s, startRowPos := -1, endRowPos := -1 })

def goToRow (br : ResultSetBridge σ) (region : Bool) (rs : DataShareResultSet σ)
    (position : Int32) : Option (Except DataShareError Bool × DataShareResultSet σ) :=
  if rs.isClosed then pure (.error .invalidOperation, rs)
  else if position < 0 ∨ position ≥ rs.count then pure (.ok false, rs)
  else if rs.bridge.isSome ∧ (position < rs.startRowPos ∨ position > rs.endRowPos) then do
    match ← rs.onGo br region position (rs.count - 1) with
    | (.error e, rs) => pure (.error e, rs)
    | (.ok _, rs) => pure (.ok true, { rs with rowPos := position })
  else pure (.ok true, { rs with rowPos := position })

def goTo (br : ResultSetBridge σ) (region : Bool) (rs : DataShareResultSet σ) (offset : Int32) :
    Option (Except DataShareError Bool × DataShareResultSet σ) :=
  if rs.isClosed then pure (.error .invalidOperation, rs)
  else rs.goToRow br region (rs.rowPos + offset)

def goToFirstRow (br : ResultSetBridge σ) (region : Bool) (rs : DataShareResultSet σ) :
    Option (Except DataShareError Bool × DataShareResultSet σ) :=
  rs.goToRow br region 0

def goToLastRow (br : ResultSetBridge σ) (region : Bool) (rs : DataShareResultSet σ) :
    Option (Except DataShareError Bool × DataShareResultSet σ) :=
  if rs.count ≤ 0 then pure (.ok false, rs) else rs.goToRow br region (rs.count - 1)

def goToNextRow (br : ResultSetBridge σ) (region : Bool) (rs : DataShareResultSet σ) :
    Option (Except DataShareError Bool × DataShareResultSet σ) :=
  rs.goTo br region 1

def goToPreviousRow (br : ResultSetBridge σ) (region : Bool) (rs : DataShareResultSet σ) :
    Option (Except DataShareError Bool × DataShareResultSet σ) :=
  rs.goTo br region (-1)

def isStarted (rs : DataShareResultSet σ) : Except DataShareError Bool :=
  if rs.isClosed then .error .invalidOperation else .ok (rs.rowPos == initPos)

def isEnded (rs : DataShareResultSet σ) : Except DataShareError Bool :=
  if rs.isClosed then .error .invalidOperation
  else .ok (decide (rs.count > 0 ∧ rs.rowPos ≥ rs.count))

def isAtFirstRow (rs : DataShareResultSet σ) : Except DataShareError Bool :=
  if rs.isClosed then .error .invalidOperation else .ok (rs.rowPos == 0)

def isAtLastRow (rs : DataShareResultSet σ) : Except DataShareError Bool :=
  if rs.isClosed then .error .invalidOperation
  else if rs.count ≤ 0 then .ok false
  else .ok (rs.rowPos == rs.count - 1)

/-! ## Getters -/

def blockRowIndex (rs : DataShareResultSet σ) : Int32 :=
  if rs.startRowPos ≥ 0 then rs.rowPos - rs.startRowPos else rs.rowPos

def columnCount (rs : DataShareResultSet σ) : Option Int32 :=
  match rs.columnNames, rs.block with
  | _ :: _, _ => pure (.ofNat rs.columnNames.length)
  | [], some b => do
    let n ← b.columnNum
    pure (.ofNat n)
  | [], none => pure 0

def checkState (rs : DataShareResultSet σ) (columnIndex : Int32) :
    Option (Except DataShareError Unit) :=
  if rs.isClosed then pure (.error .invalidOperation)
  else do
    let colCount ← rs.columnCount
    if colCount > 0 ∧ (columnIndex < 0 ∨ columnIndex ≥ colCount) then
      pure (.error .invalidColumnIndex)
    else if rs.rowPos = initPos then pure (.error .invalidRowIndex)
    else pure (.ok ())

/-- The body of the getters : check the state, find the cell, and read it with `f`. -/
def withCell {α : Type} (rs : DataShareResultSet σ) (column : Int32)
    (noBlock : Except DataShareError α)
    (f : SharedBlock → SharedBlock.CellValueLegacy → Option (Except DataShareError α)) :
    Option (Except DataShareError α) := do
  match ← rs.checkState column with
  | .error e => pure (.error e)
  | .ok _ =>
    match rs.block with
    | none => pure noBlock
    | some b => do
      match ← b.getCellValue rs.blockRowIndex.toUInt32.toNat column.toUInt32.toNat with
      | .error e => pure (.error e)
      | .ok cell => f b cell

def getColumnType (rs : DataShareResultSet σ) (index : Int32) :
    Option (Except DataShareError DataType) :=
  rs.withCell index (.ok .typeNull) fun _ cell => pure (.ok (.ofCellType cell.cellType))

/-- `get_blob`, of a cell. -/
def blobOf (b : SharedBlock) (cell : SharedBlock.CellValueLegacy) :
    Option (Except DataShareError (List UInt8)) :=
  if cell.cellType = cellUnitTypeString ∨ cell.cellType = cellUnitTypeBlob then
    b.getStringData cell.stringOrBlobOffset cell.stringOrBlobSize
  else pure (.error .invalidOperation)

def getBlob (rs : DataShareResultSet σ) (column : Int32) :
    Option (Except DataShareError (List UInt8)) :=
  rs.withCell column (.error .invalidOperation) blobOf

/-- `get_string`, of a cell. -/
def stringOf (conv : FloatConversions) (b : SharedBlock) (cell : SharedBlock.CellValueLegacy) :
    Option (Except DataShareError String) :=
  if cell.cellType = cellUnitTypeInteger then pure (.ok (toString cell.longValue.toInt))
  else if cell.cellType = cellUnitTypeFloat then pure (.ok (conv.toString cell.doubleValue))
  else if cell.cellType = cellUnitTypeString then b.getCellUnitStr cell
  else if cell.cellType = cellUnitTypeBlob then do
    match ← b.getStringData cell.stringOrBlobOffset cell.stringOrBlobSize with
    | .error e => pure (.error e)
    | .ok data =>
      match fromUtf8 data with
      | none => pure (.error .invalidOperation)
      | some s => pure (.ok s)
  else pure (.ok "")

def getString (conv : FloatConversions) (rs : DataShareResultSet σ) (column : Int32) :
    Option (Except DataShareError String) :=
  rs.withCell column (.error .invalidOperation) (stringOf conv)

/-- `get_long`, of a cell. -/
def longOf (conv : FloatConversions) (b : SharedBlock) (cell : SharedBlock.CellValueLegacy) :
    Option (Except DataShareError Int64) :=
  if cell.cellType = cellUnitTypeInteger then pure (.ok cell.longValue)
  else if cell.cellType = cellUnitTypeFloat then pure (.ok (conv.asI64 cell.doubleValue))
  else if cell.cellType = cellUnitTypeString then do
    let s ← b.getCellUnitStr cell
    pure (.ok ((parseI64 (s.toOption.getD "")).getD 0))
  else pure (.ok 0)

def getLong (conv : FloatConversions) (rs : DataShareResultSet σ) (column : Int32) :
    Option (Except DataShareError Int64) :=
  rs.withCell column (.error .invalidOperation) (longOf conv)

def getInt (conv : FloatConversions) (rs : DataShareResultSet σ) (column : Int32) :
    Option (Except DataShareError Int32) := do
  let v ← rs.getLong conv column
  pure (v.map Int64.toInt32)

/-- `get_double`, of a cell. -/
def doubleOf (conv : FloatConversions) (b : SharedBlock) (cell : SharedBlock.CellValueLegacy) :
    Option (Except DataShareError Double) :=
  if cell.cellType = cellUnitTypeInteger then pure (.ok (conv.ofI64 cell.longValue))
  else if cell.cellType = cellUnitTypeFloat then pure (.ok cell.doubleValue)
  else if cell.cellType = cellUnitTypeString then do
    let s ← b.getCellUnitStr cell
    pure (.ok ((conv.parse (s.toOption.getD "")).getD ⟨0⟩))
  else pure (.ok ⟨0⟩)

def getDouble (conv : FloatConversions) (rs : DataShareResultSet σ) (column : Int32) :
    Option (Except DataShareError Double) :=
  rs.withCell column (.error .invalidOperation) (doubleOf conv)

def isColumnNull (rs : DataShareResultSet σ) (column : Int32) :
    Option (Except DataShareError Bool) :=
  rs.withCell column (.error .invalidOperation) fun _ cell =>
    pure (.ok (cell.cellType == cellUnitTypeNull))

end DataShareResultSet

end Rust

end DataShare
