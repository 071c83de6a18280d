import DataShare.CppResultSetReads
import DataShare.MethodSimulation

/-!
# Classes of C++ result sets

The cursor and the getters of `DataShareAbsResultSet` and `DataShareResultSet` call `GetRowCount`,
`GetAllColumnNames` and `OnGo`, which a class over them overrides. A `ResultSetClass` is such a class :
how it keeps the members of the base classes, the block it reads, and its overrides. The methods of the
base classes are defined for all of them.

`Simulates` compares two classes : a map of objects that respects members, blocks and overrides.
Whatever is called then, in whatever order, the objects answer alike (`Simulates.answers`).
`localClass` is `DataShareResultSet` itself, whose methods are those of its model.
-/

namespace DataShare

namespace Cpp

open Rust (sizeOfCellUnit cellUnitTypeNull cellUnitTypeInteger cellUnitTypeFloat
  cellUnitTypeString cellUnitTypeBlob)

/-- The members of the base classes that the methods change. -/
structure CursorMembers where
  rowPos : Int32 := initPos
  count : Int32 := -1
  startRowPos : Int32 := -1
  endRowPos : Int32 := -1
deriving DecidableEq

/-- The overrides return a code and what is left in their argument, which is empty, or 0, before.
`OnGo` returns the cached index if it succeeds. -/
structure ResultSetClass (ρ : Type) where
  members : ρ → CursorMembers
  setMembers : CursorMembers → ρ → ρ
  block : ρ → Option SharedBlock
  getRowCount : Method ρ (Int32 × Int32)
  getAllColumnNames : Method ρ (Int32 × List StdString)
  onGo : Int32 → Int32 → Method ρ (Option Int32)

/-- The calls of a client. -/
inductive ClientCall
  | move (m : Move)
  | read (columnIndex : Int32) (r : Read)
  | getRowCount
  | getAllColumnNames
  | getColumnCount
  | isColumnNull (columnIndex : Int32)
  | isAtLastRow
  | isEnded

deriving instance DecidableEq for Read

/-- What a call leaves in its argument. -/
inductive ClientAnswer
  | nothing
  | read (r : Read)
  | count (n : Int32)
  | names (columnNames : List StdString)
  | flag (b : Bool)
deriving DecidableEq

namespace ResultSetClass

variable {ρ : Type} (cls : ResultSetClass ρ)

/-! ## The cursor -/

/-- Change the members. -/
def modifyMembers (g : CursorMembers → CursorMembers) : Method ρ Unit :=
  .update fun rs => cls.setMembers (g (cls.members rs)) rs

/-- The page of a row is loaded if it is not the one in the block. -/
def goToPage (position rowCnt : Int32) : Method ρ Int32 := do
  match ← cls.onGo position (rowCnt - 1) with
  | some endPos => do
    cls.modifyMembers fun m =>
      { m with rowPos := position, startRowPos := position, endRowPos := endPos }
    pure eOk
  | none => do
    cls.modifyMembers fun m =>
      { m with rowPos := rowCnt, startRowPos := initPos, endRowPos := initPos }
    pure eError

/-- `GoToRow`, once the row count is known. -/
def goToRowOf (position rowCnt : Int32) (m : CursorMembers) : Method ρ Int32 :=
  if position ≥ rowCnt then do
    cls.modifyMembers fun m => { m with rowPos := rowCnt }
    pure eError
  else if position < 0 then do
    cls.modifyMembers fun m => { m with rowPos := initPos }
    pure eError
  else if position = m.rowPos then pure eOk
  else if position > m.endRowPos ∨ position < m.startRowPos then cls.goToPage position rowCnt
  else do
    cls.modifyMembers fun m => { m with rowPos := position }
    pure eOk

/-- The row count is 0 if it cannot be had. -/
def goToRow (position : Int32) : Method ρ Int32 := do
  if (← Method.read fun rs => (cls.block rs).isNone) then pure eError
  else do
    let (_, rowCnt) ← cls.getRowCount
    let m ← Method.read cls.members
    cls.goToRowOf position rowCnt m

/-- `GoToRow` at a distance from the cursor. -/
def goTo (offset : Int32) : Method ρ Int32 := do
  let m ← Method.read cls.members
  let position ← Method.lift (addInt m.rowPos offset)
  cls.goToRow position

def goToLastRow : Method ρ Int32 := do
  let (ret, rowCnt) ← cls.getRowCount
  if ret ≠ eOk then pure ret
  else do
    let position ← Method.lift (addInt rowCnt (-1))
    cls.goToRow position

def move : Move → Method ρ Int32
  | .goToRow position => cls.goToRow position
  | .goTo offset => cls.goTo offset
  | .goToFirstRow => cls.goToRow 0
  | .goToLastRow => cls.goToLastRow
  | .goToNextRow => cls.goTo 1
  | .goToPreviousRow => cls.goTo (-1)

/-- The body of the predicates that ask for the row count. -/
def withRowCount (f : CursorMembers → Int32 → Bool) : Method ρ (Int32 × ClientAnswer) := do
  let (ret, rowCnt) ← cls.getRowCount
  if ret ≠ eOk then pure (ret, .nothing)
  else do
    let m ← Method.read cls.members
    pure (eOk, .flag (f m rowCnt))

def isAtLastRow : Method ρ (Int32 × ClientAnswer) :=
  cls.withRowCount fun m rowCnt => m.rowPos == rowCnt - 1

def isEnded : Method ρ (Int32 × ClientAnswer) :=
  cls.withRowCount fun m rowCnt => if rowCnt = 0 then true else m.rowPos == rowCnt

/-! ## Getters -/

def getColumnCount : Method ρ (Int32 × Int32) := do
  let m ← Method.read cls.members
  if m.count = -1 then do
    let (ret, columnNames) ← cls.getAllColumnNames
    if ret ≠ eOk then pure (ret, 0)
    else do
      cls.modifyMembers fun m => { m with count := .ofNat columnNames.length }
      pure (eOk, .ofNat columnNames.length)
  else pure (eOk, m.count)

/-- The count stays 0 if it cannot be had. -/
def checkState (columnIndex : Int32) : Method ρ Int32 := do
  let (_, cnt) ← cls.getColumnCount
  let m ← Method.read cls.members
  if columnIndex ≥ cnt ∨ columnIndex < 0 then pure eInvalidColumnIndex
  else if m.rowPos = initPos then pure eInvalidStatement
  else pure eOk

/-- What a getter reads of an object. -/
def view (rs : ρ) : DataShareResultSet Unit where
  rowPos := (cls.members rs).rowPos
  count := (cls.members rs).count
  startRowPos := (cls.members rs).startRowPos
  endRowPos := (cls.members rs).endRowPos
  sharedBlock := cls.block rs
  bridge := none

/-- `GetBlob` of a cell. -/
def blobOf (b : SharedBlock) (value : List UInt8) (cell : Option CellUnit) :
    Option (Int32 × List UInt8) :=
  match cell with
  | none => pure (eError, value)
  | some cell =>
    if cell.type = cellUnitTypeBlob ∨ cell.type = cellUnitTypeString then
      match b.offsetToPtr cell.offset cell.size with
      | none => pure (eOk, [])
      | some p => do
        let blob ← b.mem.load p cell.size
        pure (eOk, blob)
    else if cell.type = cellUnitTypeInteger then pure (eOk, [])
    else if cell.type = cellUnitTypeNull then pure (eOk, [])
    else if cell.type = cellUnitTypeFloat then pure (eOk, [])
    else pure (eInvalidObjectType, [])

/-- `IsColumnNull` of a cell. -/
def isNullOf (isNull : Bool) (cell : Option CellUnit) : Option (Int32 × Bool) :=
  match cell with
  | none => pure (eError, isNull)
  | some cell => pure (eOk, cell.type == cellUnitTypeNull)

/-- The body of the getters that check the state first. -/
def withCell {α : Type} (columnIndex : Int32) (value : α)
    (f : SharedBlock → Option CellUnit → Option (Int32 × α)) : Method ρ (Int32 × α) := do
  match ← Method.read cls.block with
  | none => pure (eError, value)
  | some b => do
    let errorCode ← cls.checkState columnIndex
    if errorCode ≠ eOk then pure (errorCode, value)
    else do
      let rs ← Method.read cls.view
      Method.lift do
        let cell ← rs.cellUnit b columnIndex
        f b cell

def getBlob (columnIndex : Int32) (value : List UInt8) : Method ρ (Int32 × List UInt8) :=
  cls.withCell columnIndex value fun b cell => blobOf b value cell

def isColumnNull (columnIndex : Int32) (isNull : Bool) : Method ρ (Int32 × Bool) :=
  cls.withCell columnIndex isNull fun _ cell => isNullOf isNull cell

/-- A getter that does not check the state. -/
def readView {α : Type} (get : DataShareResultSet Unit → Option (Int32 × α)) :
    Method ρ (Int32 × α) := do
  let rs ← Method.read cls.view
  Method.lift (get rs)

def read (conv : Conversions) (columnIndex : Int32) : Read → Method ρ (Int32 × Read)
  | .string value => do
    let (code, value) ← cls.readView fun rs => rs.getString conv columnIndex value
    pure (code, .string value)
  | .int value => do
    let (code, value) ← cls.readView fun rs => rs.getInt columnIndex value
    pure (code, .int value)
  | .long value => do
    let (code, value) ← cls.readView fun rs => rs.getLong conv columnIndex value
    pure (code, .long value)
  | .blob value => do
    let (code, value) ← cls.getBlob columnIndex value
    pure (code, .blob value)

/-! ## Runs -/

/-- One call : its code, and what it leaves in its argument. -/
def call (conv : Conversions) : ClientCall → Method ρ (Int32 × ClientAnswer)
  | .move m => do
    let code ← cls.move m
    pure (code, .nothing)
  | .read columnIndex r => do
    let (code, r) ← cls.read conv columnIndex r
    pure (code, .read r)
  | .getRowCount => do
    let (code, n) ← cls.getRowCount
    pure (code, .count n)
  | .getAllColumnNames => do
    let (code, columnNames) ← cls.getAllColumnNames
    pure (code, .names columnNames)
  | .getColumnCount => do
    let (code, n) ← cls.getColumnCount
    pure (code, .count n)
  | .isColumnNull columnIndex => do
    let (code, isNull) ← cls.isColumnNull columnIndex false
    pure (code, .flag isNull)
  | .isAtLastRow => cls.isAtLastRow
  | .isEnded => cls.isEnded

/-- The answers to calls, one after the other. -/
def answers (conv : Conversions) (calls : List ClientCall) : Method ρ (List (Int32 × ClientAnswer)) :=
  calls.mapM (cls.call conv)

end ResultSetClass

/-! ## Blocks that read alike -/

/-- The getters find the same in two blocks. -/
structure SameReads (b b' : SharedBlock) : Prop where
  unit : ∀ row col, b.getCellUnit row col = b'.getCellUnit row col
  ptr : ∀ offset size, b.offsetToPtr offset size = b'.offsetToPtr offset size
  mem : b.mem = b'.mem

theorem SameReads.refl (b : SharedBlock) : SameReads b b :=
  ⟨fun _ _ => rfl, fun _ _ => rfl, rfl⟩

section Reads

variable {σ σ' : Type} {rs : DataShareResultSet σ} {rs' : DataShareResultSet σ'} {b b' : SharedBlock}

/-- The members and the block of two result sets agree. -/
structure Alike (rs : DataShareResultSet σ) (rs' : DataShareResultSet σ') : Prop where
  rowPos : rs.rowPos = rs'.rowPos
  startRowPos : rs.startRowPos = rs'.startRowPos
  block : Option.Rel SameReads rs.sharedBlock rs'.sharedBlock

theorem Alike.cellUnit_eq (h : Alike rs rs') (hb : SameReads b b') (columnIndex : Int32) :
    rs.cellUnit b columnIndex = rs'.cellUnit b' columnIndex := by
  unfold DataShareResultSet.cellUnit
  rw [h.rowPos, h.startRowPos, hb.unit, hb.mem]

theorem Alike.getInt_eq (h : Alike rs rs') (columnIndex value : Int32) :
    rs.getInt columnIndex value = rs'.getInt columnIndex value := by
  unfold DataShareResultSet.getInt
  have hblock := h.block
  revert hblock
  rcases rs.sharedBlock with _ | b <;> rcases rs'.sharedBlock with _ | b' <;> rintro ⟨⟩
  · rfl
  · rename_i hb
    dsimp only
    rw [h.cellUnit_eq hb]

theorem Alike.getString_eq (h : Alike rs rs') (conv : Conversions) (columnIndex : Int32)
    (value : StdString) :
    rs.getString conv columnIndex value = rs'.getString conv columnIndex value := by
  unfold DataShareResultSet.getString
  have hblock := h.block
  revert hblock
  rcases rs.sharedBlock with _ | b <;> rcases rs'.sharedBlock with _ | b' <;> rintro ⟨⟩
  · rfl
  · rename_i hb
    simp only [h.cellUnit_eq hb, hb.ptr, hb.mem]

theorem Alike.getLong_eq (h : Alike rs rs') (conv : Conversions) (columnIndex : Int32)
    (value : Int64) :
    rs.getLong conv columnIndex value = rs'.getLong conv columnIndex value := by
  unfold DataShareResultSet.getLong
  have hblock := h.block
  revert hblock
  rcases rs.sharedBlock with _ | b <;> rcases rs'.sharedBlock with _ | b' <;> rintro ⟨⟩
  · rfl
  · rename_i hb
    simp only [h.cellUnit_eq hb, hb.ptr, hb.mem]

end Reads

/-! ## Simulations -/

namespace ResultSetClass

variable {ρ ρ' : Type}

/-- `f` turns the objects of a class into those of another, and respects all that the base classes
use of them. -/
structure Simulates (cls : ResultSetClass ρ) (cls' : ResultSetClass ρ') (f : ρ → ρ')
    (inv : ρ → Prop) : Prop where
  members : ∀ rs, inv rs → cls'.members (f rs) = cls.members rs
  setMembers : ∀ rs m, inv rs →
    cls'.setMembers m (f rs) = f (cls.setMembers m rs) ∧ inv (cls.setMembers m rs)
  block : ∀ rs, inv rs → Option.Rel SameReads (cls.block rs) (cls'.block (f rs))
  getRowCount : Method.Simulates f inv cls.getRowCount cls'.getRowCount
  getAllColumnNames : Method.Simulates f inv cls.getAllColumnNames cls'.getAllColumnNames
  onGo : ∀ start target, Method.Simulates f inv (cls.onGo start target) (cls'.onGo start target)

namespace Simulates

variable {cls : ResultSetClass ρ} {cls' : ResultSetClass ρ'} {f : ρ → ρ'} {inv : ρ → Prop}

theorem modifyMembers (h : cls.Simulates cls' f inv) (g : CursorMembers → CursorMembers) :
    Method.Simulates f inv (cls.modifyMembers g) (cls'.modifyMembers g) :=
  .update fun rs hrs => by
    rw [h.members rs hrs]
    exact h.setMembers rs _ hrs

theorem modifyThen (h : cls.Simulates cls' f inv) (g : CursorMembers → CursorMembers) (code : Int32) :
    Method.Simulates f inv (do cls.modifyMembers g; pure code)
      (do cls'.modifyMembers g; pure code) :=
  (h.modifyMembers g).bind fun _ => .pure code

theorem goToPage (h : cls.Simulates cls' f inv) (position rowCnt : Int32) :
    Method.Simulates f inv (cls.goToPage position rowCnt) (cls'.goToPage position rowCnt) := by
  refine (h.onGo position (rowCnt - 1)).bind fun endPos => ?_
  cases endPos with
  | none => exact h.modifyThen _ _
  | some endPos => exact h.modifyThen _ _

theorem goToRowOf (h : cls.Simulates cls' f inv) (position rowCnt : Int32) (m : CursorMembers) :
    Method.Simulates f inv (cls.goToRowOf position rowCnt m) (cls'.goToRowOf position rowCnt m) :=
  .ite (h.modifyThen _ _) (.ite (h.modifyThen _ _) (.ite (.pure _)
    (.ite (h.goToPage position rowCnt) (h.modifyThen _ _))))

theorem readMembers (h : cls.Simulates cls' f inv) :
    Method.Simulates f inv (Method.read cls.members) (Method.read cls'.members) :=
  .read h.members

theorem isNone_block (h : cls.Simulates cls' f inv) {rs : ρ} (hrs : inv rs) :
    (cls'.block (f rs)).isNone = (cls.block rs).isNone := by
  have hblock := h.block rs hrs
  revert hblock
  rcases cls.block rs with _ | b <;> rcases cls'.block (f rs) with _ | b' <;> rintro ⟨⟩ <;> rfl

theorem goToRow (h : cls.Simulates cls' f inv) (position : Int32) :
    Method.Simulates f inv (cls.goToRow position) (cls'.goToRow position) := by
  refine Method.Simulates.bind (.read fun rs hrs => h.isNone_block hrs) fun isNone => ?_
  refine .ite (.pure _) (h.getRowCount.bind fun r => ?_)
  exact h.readMembers.bind fun m => h.goToRowOf position r.2 m

theorem goTo (h : cls.Simulates cls' f inv) (offset : Int32) :
    Method.Simulates f inv (cls.goTo offset) (cls'.goTo offset) :=
  h.readMembers.bind fun _ => (Method.Simulates.lift _).bind fun position => h.goToRow position

theorem goToLastRow (h : cls.Simulates cls' f inv) :
    Method.Simulates f inv cls.goToLastRow cls'.goToLastRow :=
  h.getRowCount.bind fun _ => .ite (.pure _)
    ((Method.Simulates.lift _).bind fun position => h.goToRow position)

theorem move (h : cls.Simulates cls' f inv) (m : Move) :
    Method.Simulates f inv (cls.move m) (cls'.move m) := by
  cases m with
  | goToRow position => exact h.goToRow position
  | goTo offset => exact h.goTo offset
  | goToFirstRow => exact h.goToRow 0
  | goToLastRow => exact h.goToLastRow
  | goToNextRow => exact h.goTo 1
  | goToPreviousRow => exact h.goTo (-1)

theorem withRowCount (h : cls.Simulates cls' f inv) (g : CursorMembers → Int32 → Bool) :
    Method.Simulates f inv (cls.withRowCount g) (cls'.withRowCount g) :=
  h.getRowCount.bind fun _ => .ite (.pure _) (h.readMembers.bind fun _ => .pure _)

theorem getColumnCount (h : cls.Simulates cls' f inv) :
    Method.Simulates f inv cls.getColumnCount cls'.getColumnCount :=
  h.readMembers.bind fun _ => .ite
    (h.getAllColumnNames.bind fun _ => .ite (.pure _)
      ((h.modifyMembers _).bind fun _ => .pure _))
    (.pure _)

theorem checkState (h : cls.Simulates cls' f inv) (columnIndex : Int32) :
    Method.Simulates f inv (cls.checkState columnIndex) (cls'.checkState columnIndex) :=
  h.getColumnCount.bind fun _ => h.readMembers.bind fun _ =>
    .ite (.pure _) (.ite (.pure _) (.pure _))

/-- What the getters read of an object and of its image. -/
theorem alike_view (h : cls.Simulates cls' f inv) {rs : ρ} (hrs : inv rs) :
    Alike (cls.view rs) (cls'.view (f rs)) where
  rowPos := by rw [view, view, h.members rs hrs]
  startRowPos := by rw [view, view, h.members rs hrs]
  block := h.block rs hrs

theorem withCell {α : Type} (h : cls.Simulates cls' f inv) (columnIndex : Int32) (value : α)
    {g : SharedBlock → Option CellUnit → Option (Int32 × α)}
    (hg : ∀ b b' cell, SameReads b b' → g b cell = g b' cell) :
    Method.Simulates f inv (cls.withCell columnIndex value g) (cls'.withCell columnIndex value g) := by
  refine Method.Simulates.readThen h.block fun b b' hb => ?_
  cases hb with
  | none => exact .pure _
  | some hb =>
    refine (h.checkState columnIndex).bind fun errorCode => .ite (.pure _) ?_
    refine Method.Simulates.readThen (fun rs hrs => h.alike_view hrs) fun v v' hv => ?_
    rw [hv.cellUnit_eq hb columnIndex, funext fun cell => hg _ _ cell hb]
    exact .lift _

theorem readView {α : Type} (h : cls.Simulates cls' f inv)
    {get : DataShareResultSet Unit → Option (Int32 × α)}
    (hget : ∀ v v', Alike v v' → get v = get v') :
    Method.Simulates f inv (cls.readView get) (cls'.readView get) :=
  Method.Simulates.readThen (fun rs hrs => h.alike_view hrs) fun v v' hv => by
    rw [hget v v' hv]
    exact .lift _

theorem blobOf_congr {b b' : SharedBlock} (hb : SameReads b b') (value : List UInt8)
    (cell : Option CellUnit) : blobOf b value cell = blobOf b' value cell := by
  cases cell with
  | none => rfl
  | some cell => simp only [blobOf, hb.ptr, hb.mem]

theorem read (h : cls.Simulates cls' f inv) (conv : Conversions) (columnIndex : Int32) (r : Read) :
    Method.Simulates f inv (cls.read conv columnIndex r) (cls'.read conv columnIndex r) := by
  cases r with
  | string value =>
    exact (h.readView fun v v' hv => hv.getString_eq conv columnIndex value).bind fun _ => .pure _
  | int value =>
    exact (h.readView fun v v' hv => hv.getInt_eq columnIndex value).bind fun _ => .pure _
  | long value =>
    exact (h.readView fun v v' hv => hv.getLong_eq conv columnIndex value).bind fun _ => .pure _
  | blob value =>
    exact (h.withCell columnIndex value fun b b' cell hb => blobOf_congr hb value cell).bind
      fun _ => .pure _

theorem call (h : cls.Simulates cls' f inv) (conv : Conversions) (c : ClientCall) :
    Method.Simulates f inv (cls.call conv c) (cls'.call conv c) := by
  cases c with
  | move m => exact (h.move m).bind fun _ => .pure _
  | read columnIndex r => exact (h.read conv columnIndex r).bind fun _ => .pure _
  | getRowCount => exact h.getRowCount.bind fun _ => .pure _
  | getAllColumnNames => exact h.getAllColumnNames.bind fun _ => .pure _
  | getColumnCount => exact h.getColumnCount.bind fun _ => .pure _
  | isColumnNull columnIndex =>
    exact (h.withCell columnIndex false fun _ _ _ _ => rfl).bind fun _ => .pure _
  | isAtLastRow => exact h.withRowCount fun m rowCnt => m.rowPos == rowCnt - 1
  | isEnded =>
    exact h.withRowCount fun m rowCnt => if rowCnt = 0 then true else m.rowPos == rowCnt

/-- An object and its image give the same answers to the same calls. -/
theorem answers (h : cls.Simulates cls' f inv) (conv : Conversions) (calls : List ClientCall) :
    Method.Simulates f inv (cls.answers conv calls) (cls'.answers conv calls) :=
  Method.Simulates.mapM (h.call conv) calls

end Simulates

end ResultSetClass

/-! ## `DataShareResultSet` itself -/

section Local

variable {σ : Type} (br : ResultSetBridge σ)

/-- `DataShareResultSet`, which asks its bridge. -/
def localClass : ResultSetClass (DataShareResultSet σ) where
  members rs := ⟨rs.rowPos, rs.count, rs.startRowPos, rs.endRowPos⟩
  setMembers m rs := { rs with
    rowPos := m.rowPos, count := m.count, startRowPos := m.startRowPos, endRowPos := m.endRowPos }
  block rs := rs.sharedBlock
  getRowCount := .read fun rs => rs.getRowCount br
  getAllColumnNames := .read fun rs => rs.getAllColumnNames br
  onGo start target := fun rs => do
    let (result, cachedIndex, rs) ← rs.onGo br start target
    pure (if result then some cachedIndex else none, rs)

theorem goToPage_localClass (rs : DataShareResultSet σ) (position rowCnt : Int32) :
    (localClass br).goToPage position rowCnt rs = (do
      let (result, endPos, rs) ← rs.onGo br position (rowCnt - 1)
      if result then
        pure (eOk, { rs with rowPos := position, startRowPos := position, endRowPos := endPos })
      else
        pure (eError,
          { rs with rowPos := rowCnt, startRowPos := initPos, endRowPos := initPos })) := by
  rw [ResultSetClass.goToPage, Method.bind_apply]
  change ((rs.onGo br position (rowCnt - 1)).bind _).bind _ = (rs.onGo br position (rowCnt - 1)).bind _
  rcases rs.onGo br position (rowCnt - 1) with _ | ⟨result, endPos, rs⟩
  · rfl
  · cases result <;> rfl

/-- The methods of the class are those of the model of `DataShareResultSet`. -/
theorem goToRow_localClass (rs : DataShareResultSet σ) (position : Int32) :
    (localClass br).goToRow position rs = rs.goToRow br position := by
  have hgo : (localClass br).goToRow position rs = if rs.sharedBlock.isNone then pure (eError, rs)
      else (localClass br).goToRowOf position (rs.getRowCount br).2
        ((localClass br).members rs) rs := by
    rw [ResultSetClass.goToRow, Method.read_bind_apply, Method.ite_apply]
    rfl
  rw [hgo, DataShareResultSet.goToRow]
  unfold ResultSetClass.goToRowOf
  simp only [Method.ite_apply, goToPage_localClass]
  rfl

theorem goTo_localClass (rs : DataShareResultSet σ) (offset : Int32) :
    (localClass br).goTo offset rs = rs.goTo br offset := by
  rw [ResultSetClass.goTo, Method.read_bind_apply, Method.lift_bind_apply]
  exact congrArg _ (funext fun position => goToRow_localClass br rs position)

theorem goToLastRow_localClass (rs : DataShareResultSet σ) :
    (localClass br).goToLastRow rs = rs.goToLastRow br := by
  rw [ResultSetClass.goToLastRow, DataShareResultSet.goToLastRow]
  change (Method.read (fun rs => rs.getRowCount br) >>= _) rs = _
  rw [Method.read_bind_apply]
  dsimp only
  rw [Method.ite_apply, Method.lift_bind_apply]
  simp only [goToRow_localClass]
  rfl

theorem move_localClass (rs : DataShareResultSet σ) (m : Move) :
    (localClass br).move m rs = m.run br rs := by
  cases m with
  | goToRow position => exact goToRow_localClass br rs position
  | goTo offset => exact goTo_localClass br rs offset
  | goToFirstRow => exact goToRow_localClass br rs 0
  | goToLastRow => exact goToLastRow_localClass br rs
  | goToNextRow => exact goTo_localClass br rs 1
  | goToPreviousRow => exact goTo_localClass br rs (-1)

/-- The getters look at the members and the block only. -/
theorem alike_view_localClass (rs : DataShareResultSet σ) : Alike ((localClass br).view rs) rs where
  rowPos := rfl
  startRowPos := rfl
  block := by
    change Option.Rel SameReads rs.sharedBlock rs.sharedBlock
    cases rs.sharedBlock with
    | none => exact .none
    | some b => exact .some (.refl b)

theorem getColumnCount_localClass (rs : DataShareResultSet σ) :
    ((localClass br).getColumnCount rs).map (fun r => (r.1.2, r.2)) = some (rs.getColumnCount br) := by
  rw [ResultSetClass.getColumnCount, Method.read_bind_apply, Method.ite_apply,
    DataShareResultSet.getColumnCount]
  change Option.map _ (if rs.count = -1 then _ else _) = _
  split
  · change Option.map _ ((Method.read (fun rs => rs.getAllColumnNames br) >>= _) rs) = _
    rw [Method.read_bind_apply]
    dsimp only
    rw [Method.ite_apply]
    split <;> rfl
  · rfl

theorem checkState_localClass (rs : DataShareResultSet σ) (columnIndex : Int32) :
    (localClass br).checkState columnIndex rs = some (rs.checkState br columnIndex) := by
  have hcount := getColumnCount_localClass br rs
  obtain ⟨⟨⟨ret, cnt⟩, rs'⟩, hget, hcount⟩ := Option.map_eq_some_iff.mp hcount
  rw [ResultSetClass.checkState, Method.bind_apply, hget, DataShareResultSet.checkState, ← hcount,
    Option.bind_some]
  dsimp only
  rw [Method.read_bind_apply, Method.ite_apply, Method.ite_apply]
  change (if _ then _ else if rs'.rowPos = initPos then _ else _) = _
  split
  · rfl
  · split <;> rfl

theorem blobOf_localClass (b : SharedBlock) (value : List UInt8) (cell : CellUnit)
    (rs : DataShareResultSet σ) :
    (ResultSetClass.blobOf b value (some cell)).map (fun r => (r, rs)) =
      Option.map (fun x : Int32 × List UInt8 × _ => ((x.1, x.2.1), x.2.2))
        (if cell.type = cellUnitTypeBlob ∨ cell.type = cellUnitTypeString then
          match b.offsetToPtr cell.offset cell.size with
          | none => pure (eOk, [], rs)
          | some p => do
            let blob ← b.mem.load p cell.size
            pure (eOk, blob, rs)
        else if cell.type = cellUnitTypeInteger then pure (eOk, [], rs)
        else if cell.type = cellUnitTypeNull then pure (eOk, [], rs)
        else if cell.type = cellUnitTypeFloat then pure (eOk, [], rs)
        else pure (eInvalidObjectType, [], rs)) := by
  unfold ResultSetClass.blobOf
  dsimp only
  split
  · rcases b.offsetToPtr cell.offset cell.size with _ | p
    · rfl
    · dsimp only
      cases b.mem.load p cell.size <;> rfl
  · split
    · rfl
    · split
      · rfl
      · split <;> rfl

theorem getBlob_localClass (rs : DataShareResultSet σ) (columnIndex : Int32) (value : List UInt8) :
    (localClass br).getBlob columnIndex value rs =
      (rs.getBlob br columnIndex value).map fun x => ((x.1, x.2.1), x.2.2) := by
  rw [ResultSetClass.getBlob, ResultSetClass.withCell, Method.read_bind_apply,
    DataShareResultSet.getBlob]
  change (match rs.sharedBlock with | none => _ | some b => _ : Method _ _) rs = _
  rcases hblock : rs.sharedBlock with _ | b
  · rfl
  · dsimp only
    rw [Method.bind_apply, checkState_localClass, Option.bind_some]
    rcases rs.checkState br columnIndex with ⟨errorCode, rs'⟩
    dsimp only
    rw [Method.ite_apply, Method.read_bind_apply]
    split
    · rfl
    · rw [(alike_view_localClass br rs').cellUnit_eq (.refl b)]
      rcases rs'.cellUnit b columnIndex with _ | _ | cell
      · rfl
      · rfl
      · exact blobOf_localClass b value cell rs'

/-- A getter that does not check the state, and what it makes of its argument. -/
theorem readView_localClass {α : Type} (rs : DataShareResultSet σ) (wrap : α → Read)
    {get : DataShareResultSet Unit → Option (Int32 × α)} {x : Option (Int32 × α)}
    (h : get ((localClass br).view rs) = x) :
    (do
      let (code, value) ← (localClass br).readView get
      pure (code, wrap value) : Method _ (Int32 × Read)) rs =
        (x.map fun r => (r.1, wrap r.2, rs)).map fun x => ((x.1, x.2.1), x.2.2) := by
  rw [ResultSetClass.readView, Method.bind_apply, Method.read_bind_apply, h]
  cases x <;> rfl

theorem read_localClass (conv : Conversions) (rs : DataShareResultSet σ) (columnIndex : Int32)
    (r : Read) : (localClass br).read conv columnIndex r rs =
      (rs.read br conv columnIndex r).map fun x => ((x.1, x.2.1), x.2.2) := by
  have hview := alike_view_localClass br rs
  cases r with
  | string value =>
    exact readView_localClass br rs Read.string (hview.getString_eq conv columnIndex value)
  | int value => exact readView_localClass br rs Read.int (hview.getInt_eq columnIndex value)
  | long value =>
    exact readView_localClass br rs Read.long (hview.getLong_eq conv columnIndex value)
  | blob value =>
    rw [ResultSetClass.read, Method.bind_apply, getBlob_localClass, DataShareResultSet.read]
    cases rs.getBlob br columnIndex value <;> rfl

end Local

end Cpp

end DataShare
