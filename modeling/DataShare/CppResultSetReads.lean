import DataShare.CppBlockLoads
import DataShare.CppGetters
import DataShare.CppSharedBlock

/-!
# Soundness of the C++ getters

A bridge `Honours` its contract with a `source` of cells if a load that succeeds leaves the rows
from the start on in the block, and returns the last of them. A load that fails may leave what
it likes.

Between two loads the window is that of the rows in the block, or there are no rows
(`CursorInv`), if the loads that fail leave none. In these runs no getter succeeds outside of
the rows, and what it returns is the cell of the source at `rowPos_` (`reads_of_reachable`).
One failed load is enough to read a row before the first one (`misreads`).
-/

namespace DataShare

namespace Cpp

open Rust (Refines Table sizeOfCellUnit colMaxNum)

/-! ## The cursor -/

/-- The first `n` rows of the block are those of the source from `start` on. -/
def HoldsRows (source : ℤ → ℕ → Cell) (start : ℤ) (n : ℕ) (b : SharedBlock) : Prop :=
  ∀ r < n, ∀ c ptr, b.getCellUnit r c = some (some ptr) → ∃ p, CellAt b ptr (source (start + r) c) p

/-- A load that succeeds leaves rows of the source in the block, from the start on, and returns
the last of them. -/
structure Honours {σ : Type} (br : ResultSetBridge σ) (columnNames : List StdString)
    (source : ℤ → ℕ → Cell) (rowCount : Int32) : Prop where
  nonneg : 0 ≤ rowCount.toInt
  names : ∀ s, br.getAllColumnNames s = (eOk, columnNames)
  count : ∀ s, br.getRowCount s = (eOk, rowCount)
  onGo : ∀ s start b result b' s', Prepared (columnNames.length % 2 ^ 32) b →
    0 ≤ start.toInt → start.toInt < rowCount.toInt →
      (br.onGo s start (rowCount - 1)).run b = some (result, b', s') → 0 ≤ result →
        ∃ n : ℕ, b'.rowNum = some n ∧ result.toInt = start.toInt + n - 1 ∧
          result.toInt < rowCount.toInt ∧ HoldsRows source start.toInt n b'

/-- The block has the rows of the source from `startRowPos_` to `endRowPos_`, or none. -/
def Cached {σ : Type} (source : ℤ → ℕ → Cell) (rowCount : Int32) (rs : DataShareResultSet σ)
    (b : SharedBlock) : Prop :=
  ∃ n : ℕ, b.rowNum = some n ∧
    ((0 ≤ rs.startRowPos.toInt ∧ rs.startRowPos.toInt + n ≤ rowCount.toInt ∧
        HoldsRows source rs.startRowPos.toInt n b) ∨
      (rs.startRowPos = -1 ∧ rs.endRowPos = -1 ∧ n = 0))

structure CursorInv {σ : Type} (source : ℤ → ℕ → Cell) (rowCount : Int32)
    (rs : DataShareResultSet σ) : Prop where
  bridge : rs.bridge.isSome
  rowPos_ge : -1 ≤ rs.rowPos.toInt
  rowPos_le : rs.rowPos.toInt ≤ rowCount.toInt
  block : ∀ b, rs.sharedBlock = some b → Writable b ∧ Cached source rowCount rs b

section Cursor

variable {σ : Type} {br : ResultSetBridge σ} {conv : Conversions} {columnNames : List StdString}
  {source : ℤ → ℕ → Cell} {rowCount : Int32} {rs : DataShareResultSet σ}

theorem row_lt_of_getCellUnit {b : SharedBlock} {row col ptr n : ℕ}
    (h : b.getCellUnit row col = some (some ptr)) (hn : b.rowNum = some n) : row < n := by
  have hrows : b.header .rowNums = some n := hn
  unfold Rust.SharedBlock.getCellUnit at h
  simp only [Option.bind_eq_bind, hrows, Option.bind_some] at h
  obtain ⟨cols, -, hcell⟩ := Option.bind_eq_some_iff.mp h
  by_contra hge
  rw [if_pos (.inl (not_lt.mp hge))] at hcell
  cases hcell

/-- A getter that succeeds reads the row of the cursor, and this is a row of the source. -/
theorem CursorInv.read_eq (h : CursorInv source rowCount rs) {columnIndex : Int32}
    {r r' : Read} {rs' : DataShareResultSet σ}
    (hread : rs.read br conv columnIndex r = some (eOk, r', rs')) :
    (0 ≤ rs.rowPos.toInt ∧ rs.rowPos.toInt < rowCount.toInt) ∧
      (r.Safe (source rs.rowPos.toInt columnIndex.toUInt32.toNat) →
        (source rs.rowPos.toInt columnIndex.toUInt32.toNat).get conv r = some r') := by
  obtain ⟨b, ptr, hblock, hunit⟩ := exists_unit_of_read hread
  obtain ⟨-, n, hn, ⟨hstart, hle, hrows⟩ | ⟨-, -, rfl⟩⟩ := h.block b hblock
  · have hlt := row_lt_of_getCellUnit hunit hn
    have hcount := rowCount.toInt_lt
    have hint := toInt_eq_toNat (x := rs.rowPos - rs.startRowPos) (by omega)
    rw [toInt_sub_of_nonneg h.rowPos_ge hstart] at hint
    obtain ⟨p, hcell⟩ := hrows _ hlt _ ptr hunit
    rw [← hint, show rs.startRowPos.toInt + (rs.rowPos.toInt - rs.startRowPos.toInt) =
      rs.rowPos.toInt by omega] at hcell
    exact ⟨by omega, hcell.read_eq hblock hunit hread⟩
  · exact absurd (row_lt_of_getCellUnit hunit hn) (Nat.not_lt_zero _)

/-- `GoToRow` has to load the page of the row. -/
def Pages (br : ResultSetBridge σ) (rs : DataShareResultSet σ) (position : Int32) : Prop :=
  (0 ≤ position ∧ position < (rs.getRowCount br).2) ∧ position ≠ rs.rowPos ∧
    (position > rs.endRowPos ∨ position < rs.startRowPos)

/-- A load from `position` that fails leaves no row in the block. -/
def FailsEmpty (br : ResultSetBridge σ) (rs : DataShareResultSet σ) (position : Int32) : Prop :=
  ∀ b s result b' s', rs.sharedBlock = some b → rs.bridge = some s →
    rs.load br b s position ((rs.getRowCount br).2 - 1) = some (result, b', s') →
      result < 0 → b'.rowNum = some 0

theorem load_spec (hon : Honours br columnNames source rowCount) {b : SharedBlock} {s : σ}
    (hbridge : rs.bridge = some s) (hb : Writable b) {position : Int32}
    (hge : 0 ≤ position.toInt) (hlt : position.toInt < rowCount.toInt) {result : Int32}
    {b' : SharedBlock} {s' : σ}
    (hload : rs.load br b s position (rowCount - 1) = some (result, b', s')) :
    Writable b' ∧ (0 ≤ result → ∃ n : ℕ, b'.rowNum = some n ∧
      position.toInt + n ≤ rowCount.toInt ∧ HoldsRows source position.toInt n b') := by
  have hnames : (rs.getAllColumnNames br).2 = columnNames := by
    unfold DataShareResultSet.getAllColumnNames
    rw [hbridge]
    exact congrArg Prod.snd (hon.names s)
  obtain ⟨st, b₁, st', b₂, hclear, hset, hprep⟩ :=
    prepare_spec hb (columnNames.length % 2 ^ 32)
  unfold DataShareResultSet.load at hload
  rw [hclear, hnames] at hload
  simp only [Option.bind_eq_bind, Option.bind_some, hset] at hload
  refine ⟨(writable_ofRefines hprep).keep (keeps_fill b₂ _ _ hload), fun hok => ?_⟩
  obtain ⟨n, hn, hlast, hend, hrows⟩ := hon.onGo s position b₂ result b' s' hprep hge hlt hload hok
  exact ⟨n, hn, by omega, hrows⟩

theorem CursorInv.goToRow (h : CursorInv source rowCount rs)
    (hon : Honours br columnNames source rowCount) {position : Int32}
    (hquiet : Pages br rs position → FailsEmpty br rs position) {code : Int32}
    {rs' : DataShareResultSet σ} (hgo : rs.goToRow br position = some (code, rs')) :
    CursorInv source rowCount rs' := by
  obtain ⟨s, hs⟩ := Option.isSome_iff_exists.mp h.bridge
  have hcount : (rs.getRowCount br).2 = rowCount := by
    unfold DataShareResultSet.getRowCount
    rw [hs]
    exact congrArg Prod.snd (hon.count s)
  have hnonneg := hon.nonneg
  -- The window and the block do not depend on the position of the cursor.
  have hmove : ∀ position : Int32, -1 ≤ position.toInt → position.toInt ≤ rowCount.toInt →
      CursorInv source rowCount { rs with rowPos := position } :=
    fun _ hge hle => ⟨h.bridge, hge, hle, h.block⟩
  unfold DataShareResultSet.goToRow at hgo
  rw [hcount] at hgo
  rcases hblock : rs.sharedBlock with - | b
  · rw [if_pos (by rw [hblock]; rfl)] at hgo
    cases hgo
    exact h
  obtain ⟨hwrite, -⟩ := h.block b hblock
  rw [if_neg (by rw [hblock]; exact Bool.false_ne_true)] at hgo
  dsimp only at hgo
  by_cases hend : position ≥ rowCount
  · rw [if_pos hend] at hgo
    cases hgo
    exact hmove rowCount (by omega) le_rfl
  rw [if_neg hend] at hgo
  by_cases hneg : position < 0
  · rw [if_pos hneg] at hgo
    cases hgo
    exact hmove initPos le_rfl (hnonneg.trans' (by decide))
  rw [if_neg hneg] at hgo
  by_cases hsame : position = rs.rowPos
  · rw [if_pos hsame] at hgo
    cases hgo
    exact h
  rw [if_neg hsame] at hgo
  have hge : 0 ≤ position.toInt := by
    rwa [Int32.lt_iff_toInt_lt, Int32.toInt_zero, not_lt] at hneg
  have hlt : position.toInt < rowCount.toInt := by
    rwa [ge_iff_le, Int32.le_iff_toInt_le, not_le] at hend
  by_cases hpage : position > rs.endRowPos ∨ position < rs.startRowPos
  · rw [if_pos hpage] at hgo
    obtain ⟨r, honGo, hres⟩ := Option.bind_eq_some_iff.mp hgo
    unfold DataShareResultSet.onGo at honGo
    rw [hblock, hs] at honGo
    obtain ⟨⟨result, b', s'⟩, hload, hr⟩ := Option.bind_eq_some_iff.mp honGo
    obtain ⟨hwrite', hok⟩ := load_spec hon hs hwrite hge hlt hload
    cases hr
    by_cases hresult : 0 ≤ result
    · obtain ⟨n, hn, hle, hrows⟩ := hok hresult
      simp only [hresult, decide_true, if_true] at hres
      cases hres
      refine ⟨rfl, (by omega : -1 ≤ position.toInt), hlt.le, fun b'' hb'' => ?_⟩
      cases hb''
      exact ⟨hwrite', n, hn, .inl ⟨hge, hle, hrows⟩⟩
    · have hfail : result < 0 := by
        rw [Int32.lt_iff_toInt_lt, Int32.toInt_zero]
        rwa [Int32.le_iff_toInt_le, Int32.toInt_zero, not_le] at hresult
      have hpages : Pages br rs position := by
        refine ⟨⟨?_, ?_⟩, hsame, hpage⟩
        · rwa [Int32.le_iff_toInt_le, Int32.toInt_zero]
        · rwa [hcount, Int32.lt_iff_toInt_lt]
      have hempty := hquiet hpages b s result b' s' hblock hs (by rw [hcount]; exact hload) hfail
      simp only [hresult, decide_false, Bool.false_eq_true, if_false] at hres
      cases hres
      refine ⟨rfl, (by omega : -1 ≤ rowCount.toInt), le_rfl, fun b'' hb'' => ?_⟩
      cases hb''
      exact ⟨hwrite', 0, hempty, .inr ⟨rfl, rfl, rfl⟩⟩
  · rw [if_neg hpage] at hgo
    cases hgo
    exact hmove position (by omega) hlt.le

end Cursor

/-! ## Runs -/

inductive Move
  | goToRow (position : Int32)
  | goTo (offset : Int32)
  | goToFirstRow
  | goToLastRow
  | goToNextRow
  | goToPreviousRow

inductive Call
  | move (m : Move)
  | read (columnIndex : Int32) (r : Read)

section Runs

variable {σ : Type}

def Move.run (br : ResultSetBridge σ) (rs : DataShareResultSet σ) :
    Move → Option (Int32 × DataShareResultSet σ)
  | .goToRow position => rs.goToRow br position
  | .goTo offset => rs.goTo br offset
  | .goToFirstRow => rs.goToFirstRow br
  | .goToLastRow => rs.goToLastRow br
  | .goToNextRow => rs.goToNextRow br
  | .goToPreviousRow => rs.goToPreviousRow br

/-- The row that a move goes to. -/
def Move.target (br : ResultSetBridge σ) (rs : DataShareResultSet σ) : Move → Option Int32
  | .goToRow position => some position
  | .goTo offset => addInt rs.rowPos offset
  | .goToFirstRow => some 0
  | .goToLastRow => addInt (rs.getRowCount br).2 (-1)
  | .goToNextRow => addInt rs.rowPos 1
  | .goToPreviousRow => addInt rs.rowPos (-1)

def Call.run (br : ResultSetBridge σ) (conv : Conversions) (rs : DataShareResultSet σ) :
    Call → Option (Int32 × DataShareResultSet σ)
  | .move m => m.run br rs
  | .read columnIndex r => (rs.read br conv columnIndex r).map fun res => (res.1, res.2.2)

/-- The load of a call, if it makes one, leaves no row in the block when it fails. -/
def Call.Quiet (br : ResultSetBridge σ) (rs : DataShareResultSet σ) : Call → Prop
  | .move m => ∀ position, m.target br rs = some position → Pages br rs position →
      FailsEmpty br rs position
  | .read _ _ => True

/-- The states after some calls, each of them quiet. -/
inductive Reachable (br : ResultSetBridge σ) (conv : Conversions) (rs₀ : DataShareResultSet σ) :
    DataShareResultSet σ → Prop
  | refl : Reachable br conv rs₀ rs₀
  | step {rs rs' : DataShareResultSet σ} {c : Call} {code : Int32}
      (h : Reachable br conv rs₀ rs) (hquiet : c.Quiet br rs)
      (hrun : c.run br conv rs = some (code, rs')) : Reachable br conv rs₀ rs'

variable {br : ResultSetBridge σ} {conv : Conversions} {columnNames : List StdString}
  {source : ℤ → ℕ → Cell} {rowCount : Int32} {rs rs' : DataShareResultSet σ} {code : Int32}

theorem cursorInv_new (hon : Honours br columnNames source rowCount) (bridge : σ)
    (blockSize : ℕ) (region : Bool) :
    CursorInv source rowCount (DataShareResultSet.new bridge blockSize region) := by
  have hnonneg := hon.nonneg
  have hpos : initPos.toInt ≤ 0 := by decide
  refine ⟨rfl, le_rfl, hpos.trans hnonneg, fun b hb => ?_⟩
  have hb' : (if blockSize > maxShareBlockSize ∨ region = false then none
    else (SharedBlock.create blockSize).toOption) = some b := hb
  split at hb'
  · cases hb'
  rename_i hsize
  rcases hcreate : SharedBlock.create blockSize with st | b'
  · rw [hcreate] at hb'
    cases hb'
  rw [hcreate] at hb'
  cases hb'
  obtain ⟨hwrite, hrows⟩ := writable_of_create (not_lt.mp (not_or.mp hsize).1) hcreate
  exact ⟨hwrite, 0, hrows, .inr ⟨rfl, rfl, rfl⟩⟩

/-- A move is `GoToRow`, or nothing. -/
theorem Move.run_cases {m : Move} (h : m.run br rs = some (code, rs')) :
    rs' = rs ∨ ∃ position, m.target br rs = some position ∧
      rs.goToRow br position = some (code, rs') := by
  cases m with
  | goToRow position => exact .inr ⟨position, rfl, h⟩
  | goTo offset => exact .inr (Option.bind_eq_some_iff.mp h)
  | goToFirstRow => exact .inr ⟨0, rfl, h⟩
  | goToLastRow =>
    have hlast : rs.goToLastRow br = some (code, rs') := h
    unfold DataShareResultSet.goToLastRow at hlast
    dsimp only at hlast
    split at hlast
    · cases hlast
      exact .inl rfl
    · exact .inr (Option.bind_eq_some_iff.mp hlast)
  | goToNextRow => exact .inr (Option.bind_eq_some_iff.mp h)
  | goToPreviousRow => exact .inr (Option.bind_eq_some_iff.mp h)

/-- A getter may keep the number of columns, and no more. -/
theorem rs_eq_of_read {columnIndex : Int32} {r r' : Read}
    (h : rs.read br conv columnIndex r = some (code, r', rs')) :
    ∃ count, rs' = { rs with count := count } := by
  rcases r with value | value | value | value <;>
    obtain ⟨x, hget, hres⟩ := Option.map_eq_some_iff.mp h
  · exact ⟨rs.count, (congrArg (·.2.2) hres).symm⟩
  · exact ⟨rs.count, (congrArg (·.2.2) hres).symm⟩
  · exact ⟨rs.count, (congrArg (·.2.2) hres).symm⟩
  obtain rfl : x.2.2 = rs' := congrArg (·.2.2) hres
  obtain ⟨count, hcount⟩ := @checkState_eq _ br rs columnIndex
  unfold DataShareResultSet.getBlob at hget
  split at hget
  · cases hget
    exact ⟨rs.count, rfl⟩
  refine ⟨count, hcount ▸ ?_⟩
  dsimp only at hget
  split at hget
  · cases hget
    rfl
  obtain ⟨cell, -, hcell⟩ := Option.bind_eq_some_iff.mp hget
  split at hcell
  · cases hcell
    rfl
  split_ifs at hcell
  · split at hcell
    · cases hcell
      rfl
    · obtain ⟨blob, -, hblob⟩ := Option.bind_eq_some_iff.mp hcell
      cases hblob
      rfl
  all_goals
    cases hcell
    rfl

/-- One call. -/
theorem CursorInv.call (h : CursorInv source rowCount rs)
    (hon : Honours br columnNames source rowCount) {c : Call} (hquiet : c.Quiet br rs)
    (hrun : c.run br conv rs = some (code, rs')) : CursorInv source rowCount rs' := by
  cases c with
  | move m =>
    rcases Move.run_cases hrun with rfl | ⟨position, htarget, hgo⟩
    · exact h
    · exact h.goToRow hon (hquiet position htarget) hgo
  | read columnIndex r =>
    obtain ⟨⟨code', r', rs₁⟩, hread, hres⟩ := Option.map_eq_some_iff.mp hrun
    cases hres
    obtain ⟨count, rfl⟩ := rs_eq_of_read hread
    exact ⟨h.bridge, h.rowPos_ge, h.rowPos_le, h.block⟩

theorem Reachable.inv {rs₀ : DataShareResultSet σ} (hreach : Reachable br conv rs₀ rs)
    (h : CursorInv source rowCount rs₀) (hon : Honours br columnNames source rowCount) :
    CursorInv source rowCount rs := by
  induction hreach with
  | refl => exact h
  | step _ hquiet hrun ih => exact ih.call hon hquiet hrun

/-- After quiet calls, a getter that succeeds reads the row of the cursor, which is a row of the
source. Where it reads the cell right, its argument has what the cell gives. -/
theorem reads_of_reachable (hon : Honours br columnNames source rowCount) {bridge : σ}
    {blockSize : ℕ} {region : Bool}
    (hreach : Reachable br conv (.new bridge blockSize region) rs) {columnIndex : Int32}
    {r r' : Read} (hread : rs.read br conv columnIndex r = some (eOk, r', rs')) :
    (0 ≤ rs.rowPos.toInt ∧ rs.rowPos.toInt < rowCount.toInt) ∧
      (r.Safe (source rs.rowPos.toInt columnIndex.toUInt32.toNat) →
        (source rs.rowPos.toInt columnIndex.toUInt32.toNat).get conv r = some r') :=
  (hreach.inv (cursorInv_new hon bridge blockSize region) hon).read_eq hread

end Runs

/-! ## A bridge of one row a page -/

/-- With columns, `AllocRow` is the port's `alloc_row`. -/
theorem allocRow_eq {b : SharedBlock} {t : Table} (h : Refines b t) (hcols : 0 < t.columnNums) :
    SharedBlock.allocRow b = Rust.SharedBlock.allocRow b := by
  have hrows : t.rowNums < 2 ^ 31 := by
    obtain ⟨A, L, rfl, hinv⟩ := h
    exact hinv.base.rows_lt
  have hintact : AppDataFwk.Intact b := by
    rw [AppDataFwk.Intact, h.rowNum_eq, h.columnNum_eq]
    exact ⟨fun heq => absurd (Option.some.inj heq) (by omega),
      fun heq => hcols.ne' (Option.some.inj heq)⟩
  rw [← AppDataFwk.allocRow_eq_sharedBlock, AppDataFwk.allocRow_eq hintact]

/-- Every row is the text "7". -/
def textRows (_ : ℤ) (_ : ℕ) : Cell :=
  .string [55]

/-- Write the row asked for, and fail afterwards from the second load on. -/
def textBridge : ResultSetBridge ℕ where
  getAllColumnNames _ := (eOk, [[105, 100]])
  getRowCount _ := (eOk, 2)
  onGo n start _ := .call .allocRow fun code =>
    if code ≠ eOk then .done (-1) n
    else .call (.writeString 0 [55, 0]) fun code =>
      if code ≠ eOk then .done (-1) n else .done (if n = 0 then start else -1) (n + 1)

theorem honours_textBridge : Honours textBridge [[105, 100]] textRows 2 := by
  have hfail : ¬(0 : Int32) ≤ -1 := by decide
  refine ⟨by decide, fun _ => rfl, fun _ => rfl, fun n start b result b' s' hprep hge hlt hrun hok => ?_⟩
  have h : Refines b { Table.empty with columnNums := 1 } := hprep
  obtain ⟨st, b₁, halloc, h₁⟩ := h.apply .allocRow
  have halloc' : SharedBlock.allocRow b = some (st, b₁) :=
    (allocRow_eq h Nat.zero_lt_one).trans halloc
  have hcall : DataShareBlockWriterImpl.call b .allocRow =
      some (DataShareBlockWriterImpl.convertErrorCode st, b₁) := by
    unfold DataShareBlockWriterImpl.call
    rw [halloc']
    rfl
  unfold textBridge at hrun
  simp only [Fill.run, Option.bind_eq_bind, hcall, Option.bind_some] at hrun
  by_cases hst : st = .ok
  swap
  · rw [DataShareBlockWriterImpl.convertErrorCode, if_neg hst, if_pos (by decide)] at hrun
    cases hrun
    exact absurd hok hfail
  subst hst
  obtain ⟨st', b₂, hput, h₂⟩ := h₁.apply (.put 0 0 (.string "7"))
  have hput' : b₁.putString 0 0 [55, 0] = some (st', b₂) := hput
  have hcall' : DataShareBlockWriterImpl.call b₁ (.writeString 0 [55, 0]) =
      some (DataShareBlockWriterImpl.convertErrorCode st', b₂) := by
    unfold DataShareBlockWriterImpl.call DataShareBlockWriterImpl.write
      DataShareBlockWriterImpl.getCurrentRowIndex
    rw [h₁.rowNum_eq]
    refine (congrArg (Option.bind · _) hput').trans ?_
    rfl
  have hcode : DataShareBlockWriterImpl.convertErrorCode .ok = eOk := rfl
  rw [hcode, if_neg (not_not.mpr rfl)] at hrun
  simp only [Fill.run, Option.bind_eq_bind, hcall', Option.bind_some] at hrun
  by_cases hst' : st' = .ok
  swap
  · rw [DataShareBlockWriterImpl.convertErrorCode, if_neg hst', if_pos (by decide)] at hrun
    cases hrun
    exact absurd hok hfail
  subst hst'
  rw [hcode, if_neg (not_not.mpr rfl)] at hrun
  cases hrun
  by_cases hn : n = 0
  swap
  · rw [if_neg hn] at hok
    exact absurd hok hfail
  rw [if_pos hn]
  refine ⟨1, h₂.rowNum_eq, by omega, hlt, fun r hr c ptr hunit => ?_⟩
  obtain ⟨-, hc, hcell⟩ := cellAt_ofRefines h₂ hunit
  obtain rfl : r = 0 := Nat.lt_one_iff.mp hr
  obtain rfl : c = 0 := Nat.lt_one_iff.mp hc
  exact hcell

/-- `strtoll` on decimal digits. -/
def digitConversions : Conversions where
  toString _ := []
  asI64 _ := 0
  strtoll s := .ofNat (s.foldl (fun n c => 10 * n + (c.toNat - 48)) 0)

def textResultSet : DataShareResultSet ℕ :=
  .new 0 4096 true

theorem reads_first_row : ∃ rs rs', Reachable textBridge digitConversions textResultSet rs ∧
    rs.read textBridge digitConversions 0 (.string []) = some (eOk, .string [55], rs') ∧
      (0 ≤ rs.rowPos.toInt ∧ rs.rowPos.toInt < 2) ∧
        (textRows rs.rowPos.toInt 0).get digitConversions (.string []) = some (.string [55]) := by
  have hok : (textResultSet.goToRow textBridge 0).any fun r =>
      r.2.getString digitConversions 0 [] == some (eOk, [55]) := by decide +kernel
  obtain ⟨⟨code, rs⟩, hgo, hget⟩ := (Option.any_eq_true _ _).mp hok
  have hread : rs.read textBridge digitConversions 0 (.string []) =
      some (eOk, .string [55], rs) := by
    rw [DataShareResultSet.read, eq_of_beq hget]
    rfl
  have hquiet : Call.Quiet textBridge textResultSet (.move (.goToRow 0)) := by
    rintro _ ⟨⟩ - b s result b' s' hb hs hload hneg
    have hres : (textResultSet.sharedBlock.bind fun b =>
        textResultSet.load textBridge b 0 0 (2 - 1)).any fun r => r.1 == 0 := by decide +kernel
    obtain rfl : 0 = s := Option.some.inj hs
    rw [hb, Option.bind_some] at hres
    rw [show (textResultSet.getRowCount textBridge).2 = 2 from rfl] at hload
    rw [hload, Option.any_some] at hres
    obtain rfl : result = 0 := eq_of_beq hres
    exact absurd hneg (by decide)
  have hreach : Reachable textBridge digitConversions textResultSet rs :=
    Reachable.refl.step hquiet hgo
  obtain ⟨hrange, hvalue⟩ := reads_of_reachable honours_textBridge hreach hread
  have hsafe : (Read.string []).Safe (textRows rs.rowPos.toInt 0) := fun _ => rfl
  exact ⟨rs, rs, hreach, hread, hrange, hvalue hsafe⟩

/-- `GetInt` returns the offset of the text "7". And after the load of row 1 has failed, it
returns this before the first row. -/
theorem misreads : Honours textBridge [[105, 100]] textRows 2 ∧
    (textRows 0 0).get digitConversions (.int 0) = some (.int 7) ∧
      ∃ rs₁ rs₂ rs₃, textResultSet.goToRow textBridge 0 = some (eOk, rs₁) ∧ rs₁.rowPos = 0 ∧
        rs₁.getInt 0 0 = some (eOk, 444) ∧ rs₁.goToRow textBridge 1 = some (eError, rs₂) ∧
          rs₂.goToRow textBridge (-1) = some (eError, rs₃) ∧ rs₃.rowPos = -1 ∧
            rs₃.getInt 0 0 = some (eOk, 444) := by
  refine ⟨honours_textBridge, congrArg (some ∘ Read.int)
    (by decide : ((textRows 0 0).asLong digitConversions).toInt32 = 7), ?_⟩
  have hok : (textResultSet.goToRow textBridge 0).any fun r₁ =>
      r₁.1 == eOk && (r₁.2.rowPos == 0 && (r₁.2.getInt 0 0 == some (eOk, 444) &&
        (r₁.2.goToRow textBridge 1).any fun r₂ => r₂.1 == eError &&
          (r₂.2.goToRow textBridge (-1)).any fun r₃ => r₃.1 == eError &&
            (r₃.2.rowPos == -1 && r₃.2.getInt 0 0 == some (eOk, 444)))) := by
    decide +kernel
  simp only [Option.any_eq_true, Bool.and_eq_true, beq_iff_eq] at hok
  obtain ⟨⟨_, rs₁⟩, hgo₁, rfl, hpos₁, hget₁, hok⟩ := hok
  obtain ⟨⟨_, rs₂⟩, hgo₂, rfl, ⟨_, rs₃⟩, hgo₃, rfl, hpos₃, hget₃⟩ := hok
  exact ⟨rs₁, rs₂, rs₃, hgo₁, hpos₁, hget₁, hgo₂, hgo₃, hpos₃, hget₃⟩

end Cpp

end DataShare
