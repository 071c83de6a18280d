import DataShare.SharedBlock
import Mathlib.Logic.Function.Basic

/-!
# The shared block as a table

A `Table` is what the shared block stands for : rows and columns of cells. `Table.step` says
what an operation does to it, given the status the operation returned.

The bytes of the block are an `Arena` whose owners are the `Region`s : header words, row
offsets, links between row groups, cells, and the bytes of strings and blobs. `Inv` relates
the two : every cell of the table is represented at the end of its own chain of offsets
(`CellAt`), and everything handed out lies below `unused_offset` (`Base`). `getCellUnit_eq`
and `readCell_eq` read the table off the block.
-/

namespace DataShare

namespace Rust

/-! ## The table -/

inductive Cell
  | null
  | long (v : Int64)
  | double (v : Double)
  | string (v : String)
  | blob (v : List UInt8)
deriving DecidableEq, Repr

namespace Cell

/-- The `cell_type`. -/
def kind : Cell → ℕ
  | null => cellUnitTypeNull
  | long _ => cellUnitTypeInteger
  | double _ => cellUnitTypeFloat
  | string _ => cellUnitTypeString
  | blob _ => cellUnitTypeBlob

/-- The bytes outside of the cell. -/
def payload : Cell → List UInt8
  | string s => utf8Bytes s ++ [0]
  | blob bs => bs
  | _ => []

/-- The union, if the payload is at `p`. -/
def value (p : ℕ) : Cell → List UInt8
  | null => leBytes 4 0 ++ leBytes 4 0
  | long v => basicBytes v
  | double v => basicBytes v
  | string s => leBytes 4 p ++ leBytes 4 (payload (string s)).length
  | blob bs => leBytes 4 p ++ leBytes 4 (payload (blob bs)).length

def encode (p : ℕ) (v : Cell) : List UInt8 :=
  leBytes 4 v.kind ++ v.value p

/-- What a getter sees : a string ends at its first NUL. -/
def read : Cell → Cell
  | string s => string (cString s)
  | v => v

theorem kind_le (v : Cell) : v.kind ≤ cellUnitTypeBlob := by
  cases v <;> simp only [kind] <;> decide

theorem length_value (p : ℕ) (v : Cell) : (v.value p).length = 8 := by
  cases v <;> simp [value] <;> rfl

theorem length_encode (p : ℕ) (v : Cell) : (v.encode p).length = sizeOfCellUnit := by
  rw [encode, List.length_append, length_leBytes, length_value]
  rfl

end Cell

structure Table where
  rowNums : ℕ
  columnNums : ℕ
  cell : ℕ → ℕ → Cell

/-- The calls on a shared block. -/
inductive Op
  | clear
  | setColumnNum (n : ℕ)
  | allocRow
  | freeLastRow
  | put (row col : ℕ) (v : Cell)

namespace Table

def empty : Table :=
  ⟨0, 0, fun _ _ => .null⟩

def put (t : Table) (row col : ℕ) (v : Cell) : Table :=
  { t with cell := fun r c => if r = row ∧ c = col then v else t.cell r c }

/-- The table with one more row, of null cells. -/
def allocRow (t : Table) : Table where
  rowNums := t.rowNums + 1
  columnNums := t.columnNums
  cell r c := if r = t.rowNums then .null else t.cell r c

/-- The table after an operation that returned `st`. `clear` empties a block that is too small
for a row group too, and the row that `alloc_row` has counted stays when it returns
`BAD_VALUE`. -/
def step (t : Table) : Op → Status → Table
  | .clear, _ => empty
  | .setColumnNum n, .ok => { t with columnNums := n }
  | .allocRow, .ok => t.allocRow
  | .allocRow, .badValue => t.allocRow
  | .freeLastRow, .ok => { t with rowNums := t.rowNums - 1 }
  | .put row col v, .ok => t.put row col v
  | _, _ => t

def run (t : Table) : List Op → List Status → Table
  | op :: ops, st :: sts => run (t.step op st) ops sts
  | _, _ => t

end Table

namespace SharedBlock

/-- The put of a value. -/
def put (b : SharedBlock) (row col : ℕ) : Cell → Option (Status × SharedBlock)
  | .null => b.putNull row col
  | .long v => b.putLong row col v
  | .double v => b.putDouble row col v
  | .string s => b.putString row col (utf8Bytes s ++ [0])
  | .blob bs => b.putBlob row col bs

def apply (b : SharedBlock) : Op → Option (Status × SharedBlock)
  | .clear => b.clear
  | .setColumnNum n => b.setColumnNum n
  | .allocRow => b.allocRow
  | .freeLastRow => b.freeLastRow
  | .put row col v => b.put row col v

/-- Run the operations, with the status of each. -/
def run (b : SharedBlock) : List Op → Option (List Status × SharedBlock)
  | [] => pure ([], b)
  | op :: ops => do
    let (st, b) ← b.apply op
    let (sts, b) ← run b ops
    pure (st :: sts, b)

/-- The getter for the type of the cell. -/
def readCell (b : SharedBlock) (row col : ℕ) : Option (Except DataShareError Cell) := do
  match ← b.getCellValue row col with
  | .error e => pure (.error e)
  | .ok cell =>
    if cell.cellType = cellUnitTypeInteger then pure (.ok (.long cell.longValue))
    else if cell.cellType = cellUnitTypeFloat then pure (.ok (.double cell.doubleValue))
    else if cell.cellType = cellUnitTypeString then do
      let s ← b.getCellUnitStr cell
      pure (s.map .string)
    else if cell.cellType = cellUnitTypeBlob then do
      let bs ← b.getStringData cell.stringOrBlobOffset cell.stringOrBlobSize
      pure (bs.map .blob)
    else pure (.ok .null)

end SharedBlock

/-! ## The representation -/

/-- The owners of the bytes. -/
inductive Region
  | header (f : HeaderField)
  | slot (r : ℕ)
  | next (i : ℕ)
  | cell (r c : ℕ)
  | payload (r c : ℕ)
deriving DecidableEq

open Arena

/-- A writable block. -/
def ofArena (A : Arena Region) : SharedBlock :=
  ⟨A.mem.size, false, A.mem⟩

/-- Where the row groups are. -/
structure Layout where
  groups : ℕ
  group : ℕ → ℕ

/-- The row offset of a row. -/
def Layout.slot (L : Layout) (r : ℕ) : ℕ :=
  L.group (r / rowOffsetsNum) + 4 * (r % rowOffsetsNum)

/-- The `next_group_offset` of a group. -/
def Layout.link (L : Layout) (i : ℕ) : ℕ :=
  if i + 1 < L.groups then L.group (i + 1) else 0

def Header (A : Arena Region) (f : HeaderField) (v : ℕ) : Prop :=
  A.Word f.offset (.header f) v

/-- The chain of row groups. -/
structure Chain (A : Arena Region) (L : Layout) : Prop where
  size_ge : sizeOfHeader ≤ A.mem.size
  size_lt : A.mem.size < 2 ^ 31
  brk_lt : A.brk < 2 ^ 31
  room : 0 < L.groups → A.brk < A.mem.size
  groups_pos : sizeOfHeader + sizeOfRowGroup < A.mem.size → 0 < L.groups
  group_zero : L.group 0 = sizeOfHeader
  group_ge : ∀ i < L.groups, sizeOfHeader + sizeOfRowGroup * i ≤ L.group i
  group_le : ∀ i < L.groups, L.group i + sizeOfRowGroup ≤ A.brk
  slots : ∀ i < L.groups, ∀ j < rowOffsetsNum,
    A.Owned (L.group i + 4 * j) 4 (.slot (rowOffsetsNum * i + j))
  links : ∀ i < L.groups, A.Word (L.group i + nextGroupField) (.next i) (L.link i)

/-- The header over the chain. -/
structure Base (A : Arena Region) (L : Layout) (rows cols : ℕ) : Prop extends Chain A L where
  unused : Header A .unusedOffset A.brk
  first : Header A .firstRowGroupOffset sizeOfHeader
  rowNums : Header A .rowNums rows
  columnNums : Header A .columnNums cols
  cols_le : cols ≤ colMaxNum
  rows_le : rows ≤ rowOffsetsNum * L.groups

/-- The cell at row `r`, column `c` : the row offset points to the directory at `d`, the directory
has the cell, and the cell points to its payload at `p`. -/
structure CellAt (A : Arena Region) (L : Layout) (r c : ℕ) (v : Cell) (d p : ℕ) : Prop where
  slot : A.Word (L.slot r) (.slot r) d
  bound : d + (c + 1) * sizeOfCellUnit < A.mem.size
  cell : A.PointsTo (d + c * sizeOfCellUnit) (.cell r c) (v.encode p)
  payload : A.PointsTo p (.payload r c) v.payload
  payload_lt : p + v.payload.length < A.mem.size

/-- The block stands for the table. -/
structure Inv (A : Arena Region) (L : Layout) (t : Table) : Prop where
  base : Base A L t.rowNums t.columnNums
  cell : ∀ r < t.rowNums, ∀ c < t.columnNums, ∃ d p, CellAt A L r c (t.cell r c) d p

theorem CellAt.frame {A A' : Arena Region} {L L' : Layout} {r c d p : ℕ} {v : Cell}
    {P : Region → Prop} (h : CellAt A L r c v d p) (hf : Frame A A' P) (hslot : ¬P (.slot r))
    (hcell : ¬P (.cell r c)) (hpayload : ¬P (.payload r c)) (hL : L'.slot r = L.slot r) :
    CellAt A' L' r c v d p where
  slot := hL ▸ hf.pointsTo hslot h.slot
  bound := hf.size ▸ h.bound
  cell := hf.pointsTo hcell h.cell
  payload := hf.pointsTo hpayload h.payload
  payload_lt := hf.size ▸ h.payload_lt

theorem Chain.frame {A A' : Arena Region} {L : Layout} {P : Region → Prop} (h : Chain A L)
    (hf : Frame A A' P) (hnext : ∀ i, ¬P (.next i)) (hbrk : A.brk ≤ A'.brk)
    (hlt : A'.brk < 2 ^ 31) (hroom : 0 < L.groups → A'.brk < A'.mem.size) : Chain A' L where
  size_ge := hf.size ▸ h.size_ge
  size_lt := hf.size ▸ h.size_lt
  brk_lt := hlt
  room := hroom
  groups_pos := hf.size ▸ h.groups_pos
  group_zero := h.group_zero
  group_ge := h.group_ge
  group_le i hi := (h.group_le i hi).trans hbrk
  slots i hi j hj := hf.owned (h.slots i hi j hj)
  links i hi := hf.pointsTo (hnext i) (h.links i hi)

/-- The header over another chain, where `unused_offset` has moved only. -/
theorem Base.ofChain {A A' : Arena Region} {L L' : Layout} {rows cols : ℕ} {P : Region → Prop}
    (h : Base A L rows cols) (hf : Frame A A' P)
    (hheader : ∀ f, P (.header f) → f = .unusedOffset) (hchain : Chain A' L')
    (hunused : Header A' .unusedOffset A'.brk) (hrows : rows ≤ rowOffsetsNum * L'.groups) :
    Base A' L' rows cols where
  toChain := hchain
  unused := hunused
  first := hf.pointsTo (fun hP => by cases hheader _ hP) h.first
  rowNums := hf.pointsTo (fun hP => by cases hheader _ hP) h.rowNums
  columnNums := hf.pointsTo (fun hP => by cases hheader _ hP) h.columnNums
  cols_le := h.cols_le
  rows_le := hrows

/-- A change that keeps the header, the links and the break. -/
theorem Base.frame {A A' : Arena Region} {L : Layout} {rows cols : ℕ} {P : Region → Prop}
    (h : Base A L rows cols) (hf : Frame A A' P) (hheader : ∀ f, ¬P (.header f))
    (hnext : ∀ i, ¬P (.next i)) (hbrk : A'.brk = A.brk) : Base A' L rows cols :=
  h.ofChain hf (fun f hP => absurd hP (hheader f))
    (h.toChain.frame hf hnext hbrk.ge (hbrk ▸ h.brk_lt) fun hL => by
      rw [hbrk, hf.size]
      exact h.room hL)
    (hbrk ▸ hf.pointsTo (hheader _) h.unused) h.rows_le

theorem Base.write_rowNums {A : Arena Region} {L : Layout} {rows cols : ℕ}
    (h : Base A L rows cols) {rows' : ℕ} (hle : rows' ≤ rowOffsetsNum * L.groups) :
    Base (A.write HeaderField.rowNums.offset (leBytes 4 rows')) L rows' cols :=
  have hf := h.rowNums.frame_write rows'
  { toChain := h.toChain.frame hf (fun _ => nofun) le_rfl h.brk_lt h.room
    unused := hf.pointsTo nofun h.unused
    first := hf.pointsTo nofun h.first
    rowNums := h.rowNums.write rows'
    columnNums := hf.pointsTo nofun h.columnNums
    cols_le := h.cols_le
    rows_le := hle }

theorem Base.write_columnNums {A : Arena Region} {L : Layout} {rows cols : ℕ}
    (h : Base A L rows cols) {cols' : ℕ} (hle : cols' ≤ colMaxNum) :
    Base (A.write HeaderField.columnNums.offset (leBytes 4 cols')) L rows cols' :=
  have hf := h.columnNums.frame_write cols'
  { toChain := h.toChain.frame hf (fun _ => nofun) le_rfl h.brk_lt h.room
    unused := hf.pointsTo nofun h.unused
    first := hf.pointsTo nofun h.first
    rowNums := hf.pointsTo nofun h.rowNums
    columnNums := h.columnNums.write cols'
    cols_le := hle
    rows_le := h.rows_le }

theorem Base.rows_lt {A : Arena Region} {L : Layout} {rows cols : ℕ} (h : Base A L rows cols) :
    rows < 2 ^ 31 := by
  have hrows := h.rows_le
  have hbrk := h.brk_lt
  rcases Nat.eq_zero_or_pos L.groups with h0 | hpos
  · simp only [h0] at hrows
    omega
  · have hge := h.group_ge (L.groups - 1) (by omega)
    have hle := h.group_le (L.groups - 1) (by omega)
    simp only [sizeOfHeader, sizeOfRowGroup, rowOffsetsNum] at hrows hge hle
    omega

theorem Base.groups_pos_of_lt {A : Arena Region} {L : Layout} {rows cols r : ℕ}
    (h : Base A L rows cols) (hr : r < rows) : 0 < L.groups := by
  have hrows := h.rows_le
  rcases Nat.eq_zero_or_pos L.groups with h0 | hpos
  · rw [h0] at hrows
    omega
  · exact hpos

/-! ## Words of the block -/

section Words

variable {A : Arena Region} {f : HeaderField} {a v : ℕ}

theorem header_ofArena (h : Header A f v) (hv : v < 2 ^ 32) : (ofArena A).header f = some v :=
  h.loadU32 hv

theorem storeU32_ofArena (h : a + 4 ≤ A.mem.size) (w : ℕ) :
    (ofArena A).storeU32 a w = some (ofArena (A.write a (leBytes 4 w))) := by
  unfold SharedBlock.storeU32 ofArena
  rw [Memory.storeU32_of_le h]
  rfl

theorem store_ofArena {bs : List UInt8} (h : a + bs.length ≤ A.mem.size) :
    (ofArena A).store a bs = some (ofArena (A.write a bs)) := by
  unfold SharedBlock.store ofArena
  rw [Memory.store_of_le h]
  rfl

theorem setHeader_of_le (h : sizeOfHeader ≤ A.mem.size) (f : HeaderField) (w : ℕ) :
    (ofArena A).setHeader f w = some (ofArena (A.write f.offset (leBytes 4 w))) := by
  have hoffset : f.offset + 4 ≤ sizeOfHeader := by cases f <;> decide
  exact storeU32_ofArena (hoffset.trans h) w

theorem setHeader_ofArena (h : Header A f v) (w : ℕ) :
    (ofArena A).setHeader f w = some (ofArena (A.write f.offset (leBytes 4 w))) :=
  storeU32_ofArena h.bound w

theorem offsetToPtr_ofArena {n : ℕ} (hsize : A.mem.size < 2 ^ 31) (h : a + n < A.mem.size) :
    (ofArena A).offsetToPtr a n = some a := by
  have hlt : ¬a ≥ (ofArena A).size := by
    show ¬a ≥ A.mem.size
    omega
  have hle : ¬a + n ≥ (ofArena A).size := by
    show ¬a + n ≥ A.mem.size
    omega
  rw [SharedBlock.offsetToPtr, if_neg hlt, if_neg (by omega), if_neg hle]

theorem offsetToPtr_ofArena_none {n : ℕ} (h : A.mem.size ≤ a + n) :
    (ofArena A).offsetToPtr a n = none := by
  have hge : a + n ≥ (ofArena A).size := h
  rw [SharedBlock.offsetToPtr, if_pos hge, ite_self, ite_self]

end Words

/-! ## Lookups -/

section Lookups

variable {A : Arena Region} {L : Layout} {t : Table} {rows cols r c : ℕ}

theorem Chain.group_lt (h : Chain A L) {i : ℕ} (hi : i < L.groups) :
    L.group i + sizeOfRowGroup < A.mem.size :=
  (h.group_le i hi).trans_lt (h.room (by omega))

/-- Follow `k` links. -/
theorem Chain.seekGroup_eq (h : Chain A L) {limit q : ℕ} (hq : q < limit) :
    ∀ (k fuel i : ℕ), k ≤ fuel → i + k < L.groups → (k = 0 ∨ limit ≤ q + rowOffsetsNum) →
      (ofArena A).seekGroup limit fuel (L.group i) (rowOffsetsNum * k + q) =
        some (some (L.group (i + k), q))
  | 0, 0, i, _, _, _ => by simp [SharedBlock.seekGroup]
  | 0, fuel + 1, i, _, _, _ => by simp [SharedBlock.seekGroup, hq]
  | k + 1, 0, _, hle, _, _ => by omega
  | k + 1, fuel + 1, i, hle, hi, hlimit => by
    have hlt : ¬rowOffsetsNum * (k + 1) + q < limit := by
      unfold rowOffsetsNum at hlimit ⊢
      omega
    have hsub : rowOffsetsNum * (k + 1) + q - rowOffsetsNum = rowOffsetsNum * k + q := by
      unfold rowOffsetsNum
      omega
    have hlink : L.link i = L.group (i + 1) := if_pos (by omega)
    have hgroup := h.group_lt (i := i + 1) (by omega)
    have hsize := h.size_lt
    have hload : (ofArena A).mem.loadU32 (L.group i + nextGroupField) = some (L.group (i + 1)) := by
      rw [← hlink]
      exact (h.links i (by omega)).loadU32 (by omega)
    have hptr := offsetToPtr_ofArena hsize hgroup
    rw [SharedBlock.seekGroup, if_neg hlt, hload]
    simp only [Option.bind_eq_bind, Option.bind_some, hptr, hsub]
    rw [h.seekGroup_eq hq k fuel (i + 1) (by omega) (by omega) (by omega),
      show i + 1 + k = i + (k + 1) by omega]

theorem Chain.firstGroup_eq (h : Chain A L) (hL : 0 < L.groups) :
    (ofArena A).offsetToPtr sizeOfHeader sizeOfRowGroup = some (L.group 0) := by
  have hgroup := h.group_lt hL
  rw [h.group_zero] at hgroup ⊢
  exact offsetToPtr_ofArena h.size_lt hgroup

theorem Base.getRowOffset_eq (h : Base A L rows cols) (hr : r < rows) :
    (ofArena A).getRowOffset r = some (some (L.slot r)) := by
  have hrows := h.rows_le
  have hk : r / rowOffsetsNum < L.groups := Nat.div_lt_of_lt_mul (by omega)
  have hq : r % rowOffsetsNum < rowOffsetsNum := Nat.mod_lt _ (by decide)
  have hseek := h.seekGroup_eq hq (r / rowOffsetsNum) r 0 (Nat.div_le_self _ _) (by omega)
    (.inr (by omega))
  rw [Nat.div_add_mod, Nat.zero_add] at hseek
  unfold SharedBlock.getRowOffset
  rw [header_ofArena h.first (by decide)]
  simp only [Option.bind_eq_bind, Option.bind_some,
    h.firstGroup_eq (Nat.zero_lt_of_lt hk), hseek]
  rfl

/-- The cell of a row with a directory at `d`. -/
theorem Base.getCellUnit_eq {d : ℕ} (h : Base A L rows cols) (hslot : A.Word (L.slot r) (.slot r) d)
    (hbound : d + sizeOfCellUnit < A.mem.size) (hr : r < rows) (hc : c < cols) :
    (ofArena A).getCellUnit r c = some (some (d + c * sizeOfCellUnit)) := by
  have hsize := h.size_lt
  have hcols := h.cols_le
  have hload : (ofArena A).mem.loadU32 (L.slot r) = some d := hslot.loadU32 (by omega)
  have hptr := offsetToPtr_ofArena hsize hbound
  unfold colMaxNum at hcols
  unfold SharedBlock.getCellUnit
  rw [header_ofArena h.rowNums (h.rows_lt.trans (by decide)),
    header_ofArena h.columnNums (by omega)]
  simp only [Option.bind_eq_bind, Option.bind_some]
  rw [if_neg (by omega), h.getRowOffset_eq hr]
  simp only [Option.bind_some, hload, hptr]
  rfl

theorem Base.getCellUnit_eq_none (h : Base A L rows cols) (hrc : ¬(r < rows ∧ c < cols)) :
    (ofArena A).getCellUnit r c = some none := by
  have hcols := h.cols_le
  unfold colMaxNum at hcols
  unfold SharedBlock.getCellUnit
  rw [header_ofArena h.rowNums (h.rows_lt.trans (by decide)),
    header_ofArena h.columnNums (by omega)]
  simp only [Option.bind_eq_bind, Option.bind_some]
  rw [if_pos (by omega)]
  rfl

theorem Inv.getCellUnit_eq {d p : ℕ} {v : Cell} (h : Inv A L t) (hcell : CellAt A L r c v d p)
    (hr : r < t.rowNums) (hc : c < t.columnNums) :
    (ofArena A).getCellUnit r c = some (some (d + c * sizeOfCellUnit)) := by
  have hbound := hcell.bound
  rw [Nat.succ_mul] at hbound
  exact h.base.getCellUnit_eq hcell.slot (by omega) hr hc

/-- The flattened view of a cell with its payload at `p`. -/
def Cell.legacy (p : ℕ) (v : Cell) : SharedBlock.CellValueLegacy :=
  match v with
  | .null => { cellType := cellUnitTypeNull }
  | .long v => { cellType := cellUnitTypeInteger, longValue := v }
  | .double v => { cellType := cellUnitTypeFloat, doubleValue := v }
  | v => { cellType := v.kind, stringOrBlobOffset := p, stringOrBlobSize := v.payload.length }

theorem ofBytes_encode {p : ℕ} {v : Cell} (h : p + v.payload.length < 2 ^ 32) :
    SharedBlock.CellValueLegacy.ofBytes (v.encode p) = v.legacy p := by
  have htake : (v.encode p).take 4 = leBytes 4 v.kind := by
    rw [Cell.encode, List.take_left' (length_leBytes _ _)]
  have hdrop : (v.encode p).drop 4 = v.value p := by
    rw [Cell.encode, List.drop_left' (length_leBytes _ _)]
  have hkind : leNat (leBytes 4 v.kind) = v.kind := by
    rw [leNat_leBytes, Nat.mod_eq_of_lt (v.kind_le.trans_lt (by decide))]
  have hword : ∀ n, n < 2 ^ 32 → leNat (leBytes 4 n) = n := fun n hn => by
    rw [leNat_leBytes, Nat.mod_eq_of_lt (by omega)]
  unfold SharedBlock.CellValueLegacy.ofBytes
  rw [htake, hdrop, hkind]
  cases v with
  | null => rfl
  | long v => simp [Cell.kind, Cell.value, Cell.legacy]
  | double v => simp [Cell.kind, Cell.value, Cell.legacy, cellUnitTypeInteger, cellUnitTypeFloat]
  | string s =>
    simp only [Cell.value, List.take_left' (length_leBytes _ _),
      List.drop_left' (length_leBytes _ _), hword p (by omega), hword _ (Nat.lt_of_add_left_lt h)]
    rfl
  | blob bs =>
    simp only [Cell.value, List.take_left' (length_leBytes _ _),
      List.drop_left' (length_leBytes _ _), hword p (by omega), hword _ (Nat.lt_of_add_left_lt h)]
    rfl

/-- What `get_cell_value` sees of a cell of the table, and where its payload is. -/
theorem Inv.getCellValue_eq (h : Inv A L t) (hr : r < t.rowNums) (hc : c < t.columnNums) :
    ∃ p, (ofArena A).getCellValue r c = some (.ok ((t.cell r c).legacy p)) ∧
      A.PointsTo p (.payload r c) (t.cell r c).payload ∧
      p + (t.cell r c).payload.length < A.mem.size := by
  obtain ⟨d, p, hcell⟩ := h.cell r hr c hc
  have hlt := hcell.payload_lt
  have hsize := h.base.size_lt
  have hload := hcell.cell.holds.load_eq
  rw [Cell.length_encode] at hload
  refine ⟨p, ?_, hcell.payload, hlt⟩
  unfold SharedBlock.getCellValue
  rw [h.getCellUnit_eq hcell hr hc]
  show (A.mem.load _ _).bind _ = _
  rw [hload, Option.bind_some, ofBytes_encode (by omega)]
  rfl

theorem Inv.getCellValue_eq_error (h : Inv A L t)
    (hrc : ¬(r < t.rowNums ∧ c < t.columnNums)) :
    (ofArena A).getCellValue r c = some (.error .invalidColumnIndex) := by
  unfold SharedBlock.getCellValue
  rw [h.base.getCellUnit_eq_none hrc]
  rfl

/-- The bytes of a payload. -/
theorem getStringData_eq {p : ℕ} {o : Region} {bs : List UInt8} (h : A.PointsTo p o bs)
    (hsize : A.mem.size < 2 ^ 31) (hlt : p + bs.length < A.mem.size) :
    (ofArena A).getStringData p bs.length = some (.ok bs) := by
  unfold SharedBlock.getStringData
  rw [offsetToPtr_ofArena hsize hlt]
  show (A.mem.load _ _).bind _ = _
  rw [h.holds.load_eq]
  rfl

theorem getCellUnitStr_eq {p : ℕ} {o : Region} {s : String}
    (h : A.PointsTo p o (Cell.string s).payload) (hsize : A.mem.size < 2 ^ 31)
    (hlt : p + (Cell.string s).payload.length < A.mem.size) :
    (ofArena A).getCellUnitStr ((Cell.string s).legacy p) = some (.ok (cString s)) := by
  unfold SharedBlock.getCellUnitStr
  rw [if_neg (by simp [Cell.legacy, Cell.kind])]
  simp only [Cell.legacy, offsetToPtr_ofArena hsize hlt]
  show (A.mem.load _ _).bind _ = _
  rw [h.holds.load_eq, Option.bind_some, Cell.payload, takeWhile_utf8Bytes, fromUtf8_utf8Bytes]
  rfl

/-- The typed getter returns the cell of the table. -/
theorem Inv.readCell_eq (h : Inv A L t) (hr : r < t.rowNums) (hc : c < t.columnNums) :
    (ofArena A).readCell r c = some (.ok (t.cell r c).read) := by
  obtain ⟨p, hvalue, hpay, hlt⟩ := h.getCellValue_eq hr hc
  have hsize := h.base.size_lt
  unfold SharedBlock.readCell
  rw [hvalue]
  rcases hcell : t.cell r c with _ | v | v | s | bs
  · rfl
  · rfl
  · rfl
  · rw [hcell] at hpay hlt
    simp only [Option.bind_eq_bind, Option.bind_some, getCellUnitStr_eq hpay hsize hlt]
    rfl
  · rw [hcell] at hpay hlt
    have hdata : (ofArena A).getStringData p bs.length = some (.ok bs) :=
      getStringData_eq hpay hsize hlt
    simp only [Option.bind_eq_bind, Option.bind_some, Cell.legacy, Cell.payload, hdata]
    rfl

end Lookups

end Rust

end DataShare
