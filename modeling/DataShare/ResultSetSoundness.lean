import DataShare.RustResultSet

/-!
# Soundness of the result set getters

A `source` gives the cell at each row and column of the query result. A bridge is `Honest` if
a load that succeeds leaves the rows from the start on in the block. Nothing is asked of a load
that fails.

In every state that is reached by loads that leave no row `row_pos` in the block when they
fail, a getter returns what the cell of the source at `row_pos` gives, or an error
(`readsSource_of_reachable`). One failed load is enough to return another row
(`misread_after_failed_load`).
-/

namespace DataShare

namespace Rust

/-! ## What the getters make of a cell -/

namespace Cell

def asBlob : Cell → Except DataShareError (List UInt8)
  | string s => .ok (utf8Bytes s ++ [0])
  | blob bs => .ok bs
  | _ => .error .invalidOperation

def asString (conv : FloatConversions) : Cell → Except DataShareError String
  | null => .ok ""
  | long v => .ok (toString v.toInt)
  | double v => .ok (conv.toString v)
  | string s => .ok (cString s)
  | blob bs =>
    match fromUtf8 bs with
    | none => .error .invalidOperation
    | some s => .ok s

def asLong (conv : FloatConversions) : Cell → Except DataShareError Int64
  | long v => .ok v
  | double v => .ok (conv.asI64 v)
  | string s => .ok ((parseI64 (cString s)).getD 0)
  | _ => .ok 0

def asDouble (conv : FloatConversions) : Cell → Except DataShareError Double
  | long v => .ok (conv.ofI64 v)
  | double v => .ok v
  | string s => .ok ((conv.parse (cString s)).getD ⟨0⟩)
  | _ => .ok ⟨0⟩

end Cell

/-- The getters. -/
inductive Getter
  | columnType | blob | string | int | long | double | isNull

/-- What they return. -/
inductive Value
  | columnType (v : DataType)
  | blob (v : List UInt8)
  | string (v : String)
  | int (v : Int32)
  | long (v : Int64)
  | double (v : Double)
  | isNull (v : Bool)
deriving DecidableEq

def Cell.get (conv : FloatConversions) (v : Cell) : Getter → Except DataShareError Value
  | .columnType => .ok (.columnType (.ofCellType v.kind))
  | .blob => v.asBlob.map .blob
  | .string => (v.asString conv).map .string
  | .int => (v.asLong conv).map fun n => .int n.toInt32
  | .long => (v.asLong conv).map .long
  | .double => (v.asDouble conv).map .double
  | .isNull => .ok (.isNull (v.kind == cellUnitTypeNull))

def DataShareResultSet.get {σ : Type} (conv : FloatConversions) (rs : DataShareResultSet σ)
    (column : Int32) : Getter → Option (Except DataShareError Value)
  | .columnType => (rs.getColumnType column).map (Except.map .columnType)
  | .blob => (rs.getBlob column).map (Except.map .blob)
  | .string => (rs.getString conv column).map (Except.map .string)
  | .int => (rs.getInt conv column).map (Except.map .int)
  | .long => (rs.getLong conv column).map (Except.map .long)
  | .double => (rs.getDouble conv column).map (Except.map .double)
  | .isNull => (rs.isColumnNull column).map (Except.map .isNull)

/-- The bytes of the value `v` are at `p`, and its string is readable there. -/
structure PayloadAt (b : SharedBlock) (v : Cell) (p : ℕ) : Prop where
  data : b.getStringData p v.payload.length = some (.ok v.payload)
  str : ∀ s, v = .string s → b.getCellUnitStr (v.legacy p) = some (.ok (cString s))

section Cells

open DataShareResultSet

variable {b : SharedBlock} {v : Cell} {p : ℕ}

theorem cellType_legacy (v : Cell) (p : ℕ) : (v.legacy p).cellType = v.kind := by
  cases v <;> rfl

theorem PayloadAt.blobOf_eq (h : PayloadAt b v p) : blobOf b (v.legacy p) = some v.asBlob := by
  have hdata := h.data
  cases v <;> first | rfl | exact hdata

theorem PayloadAt.stringOf_eq (conv : FloatConversions) (h : PayloadAt b v p) :
    stringOf conv b (v.legacy p) = some (v.asString conv) := by
  cases v with
  | null => rfl
  | long v => rfl
  | double v => rfl
  | string s => exact h.str s rfl
  | blob bs =>
    have hdata : b.getStringData p bs.length = some (.ok bs) := h.data
    show (b.getStringData p bs.length).bind _ = _
    rw [hdata, Option.bind_some]
    rcases hutf : fromUtf8 bs with _ | s <;> simp [Cell.asString, hutf]

theorem PayloadAt.longOf_eq (conv : FloatConversions) (h : PayloadAt b v p) :
    longOf conv b (v.legacy p) = some (v.asLong conv) := by
  cases v with
  | string s =>
    show (b.getCellUnitStr ((Cell.string s).legacy p)).bind _ = _
    rw [h.str s rfl]
    rfl
  | _ => rfl

theorem PayloadAt.doubleOf_eq (conv : FloatConversions) (h : PayloadAt b v p) :
    doubleOf conv b (v.legacy p) = some (v.asDouble conv) := by
  cases v with
  | string s =>
    show (b.getCellUnitStr ((Cell.string s).legacy p)).bind _ = _
    rw [h.str s rfl]
    rfl
  | _ => rfl

end Cells

theorem Refines.getCellValue_eq {b : SharedBlock} {t : Table} (h : Refines b t) {r c : ℕ}
    (hr : r < t.rowNums) (hc : c < t.columnNums) :
    ∃ p, b.getCellValue r c = some (.ok ((t.cell r c).legacy p)) ∧ PayloadAt b (t.cell r c) p := by
  obtain ⟨A, L, rfl, hinv⟩ := h
  obtain ⟨p, hvalue, hpay, hlt⟩ := hinv.getCellValue_eq hr hc
  have hsize := hinv.base.size_lt
  refine ⟨p, hvalue, getStringData_eq hpay hsize hlt, fun s hs => ?_⟩
  rw [hs] at hpay hlt ⊢
  exact getCellUnitStr_eq hpay hsize hlt

theorem Refines.getCellValue_eq_error {b : SharedBlock} {t : Table} (h : Refines b t) {r c : ℕ}
    (hrc : ¬(r < t.rowNums ∧ c < t.columnNums)) :
    b.getCellValue r c = some (.error .invalidColumnIndex) := by
  obtain ⟨A, L, rfl, hinv⟩ := h
  exact hinv.getCellValue_eq_error hrc

theorem Refines.rows_lt {b : SharedBlock} {t : Table} (h : Refines b t) :
    t.rowNums < 2 ^ 31 := by
  obtain ⟨A, L, -, hinv⟩ := h
  exact hinv.base.rows_lt

/-! ## Sources and bridges -/

/-- The table holds the rows of the source from `start` on. -/
def Matches (source : ℤ → ℕ → Cell) (start : ℤ) (t : Table) : Prop :=
  ∀ r < t.rowNums, ∀ c < t.columnNums, t.cell r c = source (start + r) c

/-- A load that succeeds leaves rows of the source in the block, from the start on. -/
def Honest {σ : Type} (br : ResultSetBridge σ) (source : ℤ → ℕ → Cell) (columns : ℕ) : Prop :=
  ∀ s start target b b' s', Refines b { Table.empty with columnNums := columns } →
    (br.onGo s start target).run b = some (.ok (), b', s') →
      ∃ t, Refines b' t ∧ (0 < t.rowNums → 0 ≤ start.toInt) ∧ Matches source start.toInt t

theorem resultFromCode_eq_ok {st : Status} (h : resultFromCode st = .ok ()) : st = .ok := by
  cases st <;> first | rfl | cases h

section Loads

variable {σ : Type} {br : ResultSetBridge σ} {source : ℤ → ℕ → Cell}

theorem Refines.allocRow {b : SharedBlock} {t : Table} (h : Refines b t) :
    ∃ st b', BlockWriter.call b .allocRow = some (resultFromCode st, b') ∧
      Refines b' (t.step .allocRow st) := by
  obtain ⟨st, b', happly, h'⟩ := h.apply .allocRow
  have halloc : b.allocRow = some (st, b') := happly
  refine ⟨st, b', ?_, h'⟩
  show b.allocRow.bind _ = _
  rw [halloc]
  rfl

theorem Refines.write {b : SharedBlock} {t : Table} (h : Refines b t) (hpos : 0 < t.rowNums)
    (column : ℕ) (value : Cell) :
    ∃ st b', BlockWriter.call b (.write column value) = some (resultFromCode st, b') ∧
      Refines b' (t.step (.put (t.rowNums - 1) column value) st) := by
  obtain ⟨st, b', happly, h'⟩ := h.apply (.put (t.rowNums - 1) column value)
  have hput : b.put (t.rowNums - 1) column value = some (st, b') := happly
  refine ⟨st, b', ?_, h'⟩
  show b.rowNum.bind _ = _
  rw [h.rowNum_eq]
  refine (if_neg hpos.ne').trans ?_
  rw [hput]
  rfl

theorem Refines.call {b : SharedBlock} {t : Table} (h : Refines b t) (c : WriterCall) :
    ∃ res b' t', BlockWriter.call b c = some (res, b') ∧ Refines b' t' ∧
      t'.columnNums = t.columnNums := by
  cases c with
  | allocRow =>
    obtain ⟨st, b', hcall, h'⟩ := h.allocRow
    exact ⟨_, b', _, hcall, h', by cases st <;> rfl⟩
  | write column value =>
    rcases Nat.eq_zero_or_pos t.rowNums with h0 | hpos
    · refine ⟨.error .invalidOperation, b, t, ?_, h, rfl⟩
      show b.rowNum.bind _ = _
      rw [h.rowNum_eq]
      exact if_pos h0
    · obtain ⟨st, b', hcall, h'⟩ := h.write hpos column value
      exact ⟨_, b', _, hcall, h', (t.size_step_put _ _ _ _).2⟩

/-- A bridge may call what it likes. -/
theorem Refines.fill : ∀ {b : SharedBlock} {t : Table}, Refines b t → ∀ prog : Fill σ,
    ∃ res b' s t', prog.run b = some (res, b', s) ∧ Refines b' t' ∧ t'.columnNums = t.columnNums
  | b, t, h, .done res s => ⟨res, b, s, t, rfl, h, rfl⟩
  | b, t, h, .call c next => by
    obtain ⟨res, b₁, t₁, hcall, h₁, hcols₁⟩ := h.call c
    obtain ⟨res', b₂, s, t₂, hrun, h₂, hcols₂⟩ := h₁.fill (next res)
    refine ⟨res', b₂, s, t₂, ?_, h₂, hcols₂.trans hcols₁⟩
    rw [Fill.run, hcall]
    exact hrun

theorem takeBlock_spec (rs : DataShareResultSet σ) (region : Bool)
    (hb : ∀ b, rs.block = some b → ∃ t, Refines b t) :
    ∃ res, rs.takeBlock region = some res ∧ ∀ b, res = .ok b → ∃ t, Refines b t := by
  unfold DataShareResultSet.takeBlock
  cases hblock : rs.block with
  | some b => exact ⟨.ok b, rfl, fun b' hb' => by cases hb'; exact hb b hblock⟩
  | none =>
    cases region with
    | false => exact ⟨_, rfl, nofun⟩
    | true =>
      have hge : sizeOfHeader ≤ 2 * 1024 * 1024 := by decide
      obtain ⟨A, L, hcreate, hinv⟩ := create_spec hge (by decide)
      refine ⟨.ok (ofArena A), ?_, fun b hb' => ?_⟩
      · rw [hcreate]
        rfl
      · cases hb'
        exact ⟨_, A, L, rfl, hinv⟩

/-- A load fails before the bridge is asked, or lets it fill an empty table. -/
theorem load_cases (br : ResultSetBridge σ) (rs : DataShareResultSet σ) {b : SharedBlock} {t : Table}
    (h : Refines b t) (s : σ) (start target : Int32) :
    (∃ e b' t', rs.load br b s start target = some (.error e, b', s) ∧ Refines b' t') ∨
    ∃ b', Refines b' { Table.empty with columnNums := rs.columnNames.length % 2 ^ 32 } ∧
      rs.load br b s start target = (br.onGo s start target).run b' := by
  obtain ⟨st, b₁, hclear, h₁⟩ := h.apply .clear
  have hclear' : b.clear = some (st, b₁) := hclear
  unfold DataShareResultSet.load
  rw [hclear']
  rcases hst : resultFromCode st with e | _
  · refine .inl ⟨e, b₁, _, ?_, h₁⟩
    simp only [Option.bind_eq_bind, Option.bind_some, hst]
    rfl
  obtain ⟨st', b₂, hset, h₂⟩ := h₁.apply (.setColumnNum (rs.columnNames.length % 2 ^ 32))
  have hset' : b₁.setColumnNum (rs.columnNames.length % 2 ^ 32) = some (st', b₂) := hset
  rcases hst' : resultFromCode st' with e | _
  · refine .inl ⟨e, b₂, _, ?_, h₂⟩
    simp only [Option.bind_eq_bind, Option.bind_some, hst, hset', hst']
    rfl
  obtain rfl := resultFromCode_eq_ok hst'
  refine .inr ⟨b₂, h₂, ?_⟩
  simp only [Option.bind_eq_bind, Option.bind_some, hst, hset', hst']

/-- A load leaves some table in the block, and rows of the source if it succeeds. -/
theorem load_spec (rs : DataShareResultSet σ)
    (hon : Honest br source (rs.columnNames.length % 2 ^ 32)) {b : SharedBlock} {t : Table}
    (h : Refines b t) (s : σ) (start target : Int32) :
    ∃ res b' s' t', rs.load br b s start target = some (res, b', s') ∧ Refines b' t' ∧
      (res = .ok () → (0 < t'.rowNums → 0 ≤ start.toInt) ∧ Matches source start.toInt t') := by
  rcases load_cases br rs h s start target with ⟨e, b', t', hload, h'⟩ | ⟨b', h', hload⟩
  · exact ⟨.error e, b', s, t', hload, h', nofun⟩
  obtain ⟨res, b'', s', t'', hrun, h'', -⟩ := h'.fill (br.onGo s start target)
  rw [hload, hrun]
  rcases res with e | _
  · exact ⟨_, b'', s', t'', rfl, h'', nofun⟩
  · obtain ⟨t, ht, hrows, hmatch⟩ := hon s start target b' b'' s' h' hrun
    exact ⟨_, b'', s', t, rfl, ht, fun _ => ⟨hrows, hmatch⟩⟩

end Loads

/-! ## The cursor -/

/-- The block has the rows of the source from `start_row_pos` on, or nothing is cached and it has
no row `row_pos`. -/
def Cached {σ : Type} (source : ℤ → ℕ → Cell) (rs : DataShareResultSet σ) (t : Table) : Prop :=
  (0 ≤ rs.startRowPos.toInt ∧ Matches source rs.startRowPos.toInt t) ∨
    (rs.startRowPos = -1 ∧ rs.endRowPos = -1 ∧
      (rs.rowPos = initPos ∨ (t.rowNums : ℤ) ≤ rs.rowPos.toInt))

structure CursorInv {σ : Type} (source : ℤ → ℕ → Cell) (names : List String)
    (rs : DataShareResultSet σ) : Prop where
  isOpen : rs.isClosed = false
  bridge : rs.bridge.isSome
  names_eq : rs.columnNames = names
  rowPos_ge : -1 ≤ rs.rowPos.toInt
  noBlock : rs.block = none → rs.rowPos = initPos ∧ rs.startRowPos = -1 ∧ rs.endRowPos = -1
  cached : ∀ b, rs.block = some b → ∃ t, Refines b t ∧ Cached source rs t

/-- No fault, and a value is that of `expected`, read from cached rows. -/
def Sound {σ α : Type} (rs : DataShareResultSet σ) (o : Option (Except DataShareError α))
    (expected : Except DataShareError α) : Prop :=
  ∃ res, o = some res ∧ ∀ x, res = .ok x → 0 ≤ rs.startRowPos.toInt ∧ expected = .ok x

theorem Sound.map {σ α β : Type} {rs : DataShareResultSet σ}
    {o : Option (Except DataShareError α)} {expected : Except DataShareError α}
    (h : Sound rs o expected) (f : α → β) :
    Sound rs (o.map (Except.map f)) (expected.map f) := by
  obtain ⟨res, rfl, hres⟩ := h
  refine ⟨res.map f, rfl, fun y hy => ?_⟩
  rcases res with e | x
  · cases hy
  · obtain ⟨hstart, rfl⟩ := hres x rfl
    exact ⟨hstart, hy⟩

section Getters

variable {σ : Type} {source : ℤ → ℕ → Cell} {names : List String} {rs : DataShareResultSet σ}

theorem CursorInv.checkState_eq (h : CursorInv source names rs) (column : Int32) :
    ∃ res, rs.checkState column = some res ∧ (res = .ok () → rs.rowPos ≠ initPos) := by
  obtain ⟨n, hn⟩ : ∃ n, rs.columnCount = some n := by
    unfold DataShareResultSet.columnCount
    split
    · exact ⟨_, rfl⟩
    · rename_i b _ hblock
      obtain ⟨t, ht, -⟩ := h.cached b hblock
      rw [ht.columnNum_eq]
      exact ⟨_, rfl⟩
    · exact ⟨_, rfl⟩
  unfold DataShareResultSet.checkState
  rw [h.isOpen, hn]
  simp only [Bool.false_eq_true, if_false, Option.bind_eq_bind, Option.bind_some]
  split
  · exact ⟨_, rfl, nofun⟩
  · split
    · exact ⟨_, rfl, nofun⟩
    · exact ⟨_, rfl, fun _ => by assumption⟩

/-- The row a getter looks up is row `row_pos` of the source. -/
theorem Cached.row_eq {t : Table} (h : Cached source rs t) (hpos : -1 ≤ rs.rowPos.toInt)
    (hne : rs.rowPos ≠ initPos) (hlt : t.rowNums < 2 ^ 31)
    (hr : rs.blockRowIndex.toUInt32.toNat < t.rowNums) :
    0 ≤ rs.startRowPos.toInt ∧ Matches source rs.startRowPos.toInt t ∧
      rs.startRowPos.toInt + rs.blockRowIndex.toUInt32.toNat = rs.rowPos.toInt := by
  rcases h with ⟨hstart, hmatch⟩ | ⟨hstart, -, hrows⟩
  · have hindex : rs.blockRowIndex = rs.rowPos - rs.startRowPos :=
      if_pos (by rwa [ge_iff_le, Int32.le_iff_toInt_le, Int32.toInt_zero])
    rw [hindex] at hr ⊢
    have hint := toInt_eq_toNat (hr.trans hlt)
    rw [toInt_sub_of_nonneg hpos hstart] at hint
    exact ⟨hstart, hmatch, by omega⟩
  · -- The block has no such row.
    have hindex : rs.blockRowIndex = rs.rowPos := if_neg (by rw [hstart]; decide)
    rw [hindex] at hr
    have hint := toInt_eq_toNat (hr.trans hlt)
    have := hrows.resolve_left hne
    omega

theorem CursorInv.withCell {α : Type} (h : CursorInv source names rs)
    {noBlock : Except DataShareError α}
    {f : SharedBlock → SharedBlock.CellValueLegacy → Option (Except DataShareError α)}
    {g : Cell → Except DataShareError α}
    (hf : ∀ {b v p}, PayloadAt b v p → f b (v.legacy p) = some (g v)) (column : Int32) :
    Sound rs (rs.withCell column noBlock f)
      (g (source rs.rowPos.toInt column.toUInt32.toNat)) := by
  obtain ⟨res, hcheck, hne⟩ := h.checkState_eq column
  unfold DataShareResultSet.withCell
  rw [hcheck]
  rcases res with e | _
  · exact ⟨.error e, rfl, nofun⟩
  rcases hblock : rs.block with _ | b
  · exact absurd (h.noBlock hblock).1 (hne rfl)
  obtain ⟨t, ht, hcached⟩ := h.cached b hblock
  by_cases hrc : rs.blockRowIndex.toUInt32.toNat < t.rowNums ∧
      column.toUInt32.toNat < t.columnNums
  · obtain ⟨hstart, hmatch, hrow⟩ := hcached.row_eq h.rowPos_ge (hne rfl) ht.rows_lt hrc.1
    obtain ⟨p, hvalue, hpay⟩ := ht.getCellValue_eq hrc.1 hrc.2
    have hcell := hmatch _ hrc.1 _ hrc.2
    rw [hrow] at hcell
    refine ⟨g (t.cell rs.blockRowIndex.toUInt32.toNat column.toUInt32.toNat), ?_, fun x hx => ?_⟩
    · simp only [Option.bind_eq_bind, Option.bind_some, hvalue]
      exact hf hpay
    · rw [← hcell]
      exact ⟨hstart, hx⟩
  · refine ⟨.error .invalidColumnIndex, ?_, nofun⟩
    simp only [Option.bind_eq_bind, Option.bind_some, ht.getCellValue_eq_error hrc]
    rfl

/-- Every getter returns what the cell of the source gives, or an error. -/
theorem CursorInv.get (h : CursorInv source names rs) (conv : FloatConversions)
    (column : Int32) (getter : Getter) : Sound rs (rs.get conv column getter)
      ((source rs.rowPos.toInt column.toUInt32.toNat).get conv getter) := by
  cases getter with
  | columnType =>
    refine (h.withCell (g := fun v => .ok (DataType.ofCellType v.kind)) (fun _ => ?_)
      column).map Value.columnType
    rw [cellType_legacy]
    rfl
  | blob => exact (h.withCell PayloadAt.blobOf_eq column).map _
  | string => exact (h.withCell (PayloadAt.stringOf_eq conv) column).map _
  | int =>
    have hint : rs.get conv column .int =
        (rs.getLong conv column).map (Except.map fun n => .int n.toInt32) := by
      show ((rs.getLong conv column).bind _).map _ = _
      rcases rs.getLong conv column with _ | _ | v <;> rfl
    rw [hint]
    exact (h.withCell (PayloadAt.longOf_eq conv) column).map _
  | long => exact (h.withCell (PayloadAt.longOf_eq conv) column).map _
  | double => exact (h.withCell (PayloadAt.doubleOf_eq conv) column).map _
  | isNull =>
    refine (h.withCell (g := fun v => .ok (v.kind == cellUnitTypeNull)) (fun _ => ?_)
      column).map Value.isNull
    rw [cellType_legacy]
    rfl

end Getters

/-! ## Runs -/

inductive Call
  | onGo (startRowIndex targetRowIndex : Int32)
  | goToRow (position : Int32)
  | goTo (offset : Int32)

section Runs

variable {σ : Type}

/-- A call, by whether it returns an error. `region` says if a new region can be had. -/
def Call.run (br : ResultSetBridge σ) (region : Bool) (rs : DataShareResultSet σ) :
    Call → Option (Except DataShareError Unit × DataShareResultSet σ)
  | .onGo start target => (rs.onGo br region start target).map fun r => (r.1.map fun _ => (), r.2)
  | .goToRow position => (rs.goToRow br region position).map fun r => (r.1.map fun _ => (), r.2)
  | .goTo offset => (rs.goTo br region offset).map fun r => (r.1.map fun _ => (), r.2)

/-- If the load from `start` fails, it leaves no row `row_pos` in the block. -/
def LoadsBelow (br : ResultSetBridge σ) (region : Bool) (rs : DataShareResultSet σ)
    (start target : Int32) : Prop :=
  rs.rowPos = initPos ∨ ∀ s b e b' s' n, rs.bridge = some s → rs.takeBlock region = some (.ok b) →
    rs.load br b s start target = some (.error e, b', s') → b'.rowNum = some n →
      (n : ℤ) ≤ rs.rowPos.toInt

/-- `go_to_row` has to load the page of the row. -/
def Pages (rs : DataShareResultSet σ) (position : Int32) : Prop :=
  ¬(position < 0 ∨ position ≥ rs.count) ∧ (position < rs.startRowPos ∨ position > rs.endRowPos)

/-- The load of a call, if it makes one, leaves no row `row_pos` behind when it fails. -/
def Call.Quiet (br : ResultSetBridge σ) (region : Bool) (rs : DataShareResultSet σ) :
    Call → Prop
  | .onGo start target => LoadsBelow br region rs start target
  | .goToRow position => Pages rs position → LoadsBelow br region rs position (rs.count - 1)
  | .goTo offset =>
    Pages rs (rs.rowPos + offset) → LoadsBelow br region rs (rs.rowPos + offset) (rs.count - 1)

/-- A result set over a bridge, without a block or with one attached. -/
inductive Initial : DataShareResultSet σ → Prop
  | bridge (names : Except DataShareError (List String)) (count : Except DataShareError Int32)
      (s : σ) : Initial (({} : DataShareResultSet σ).withBridge names count s)
  | attached (names : Except DataShareError (List String)) (count : Except DataShareError Int32)
      (s : σ) {b : SharedBlock} {t : Table} (h : Refines b t) :
      Initial ((({} : DataShareResultSet σ).withBridge names count s).attachSharedBlock b)

/-- The states after some calls, each of them quiet. -/
inductive Reachable (br : ResultSetBridge σ) (rs₀ : DataShareResultSet σ) :
    DataShareResultSet σ → Prop
  | refl : Reachable br rs₀ rs₀
  | step {rs rs' : DataShareResultSet σ} {c : Call} {region : Bool}
      {res : Except DataShareError Unit} (h : Reachable br rs₀ rs) (hquiet : c.Quiet br region rs)
      (hrun : c.run br region rs = some (res, rs')) : Reachable br rs₀ rs'

variable {br : ResultSetBridge σ} {source : ℤ → ℕ → Cell} {names : List String}
  {rs : DataShareResultSet σ}

theorem cursorInv_initial (h : Initial rs) : CursorInv source rs.columnNames rs := by
  have hpos : -1 ≤ initPos.toInt := by decide
  cases h with
  | bridge names count s => exact ⟨rfl, rfl, rfl, hpos, fun _ => ⟨rfl, rfl, rfl⟩, nofun⟩
  | attached names count s hb =>
    refine ⟨rfl, rfl, rfl, hpos, nofun, fun b hblock => ?_⟩
    cases hblock
    exact ⟨_, hb, .inr ⟨rfl, rfl, .inl rfl⟩⟩

/-- What `on_go` keeps. If it succeeds, the cursor may go anywhere, and if not, nothing is
cached. -/
theorem CursorInv.onGo (h : CursorInv source names rs)
    (hon : Honest br source (names.length % 2 ^ 32)) {region : Bool} {start target : Int32}
    (hquiet : LoadsBelow br region rs start target) :
    ∃ res rs', rs.onGo br region start target = some (res, rs') ∧ CursorInv source names rs' ∧
      (∀ e, res = .error e → rs'.startRowPos = -1) ∧
      ∀ x, res = .ok x → ∀ position : Int32, 0 ≤ position.toInt →
        CursorInv source names { rs' with rowPos := position } := by
  obtain ⟨s, hs⟩ := Option.isSome_iff_exists.mp h.bridge
  obtain ⟨taken, htake, hblock⟩ := takeBlock_spec rs region fun b hb =>
    (h.cached b hb).imp fun _ ht => ht.1
  rw [← h.names_eq] at hon
  rcases taken with e | b
  · have hnone : rs.block = none := by
      unfold DataShareResultSet.takeBlock at htake
      split at htake
      · cases htake
      · assumption
    refine ⟨.error e, rs, ?_, h, fun _ _ => (h.noBlock hnone).2.1, nofun⟩
    unfold DataShareResultSet.onGo
    rw [hs]
    simp only [Option.bind_eq_bind, Option.bind_some, htake]
    rfl
  obtain ⟨t, ht⟩ := hblock b rfl
  obtain ⟨res, b', s', t', hload, ht', hok⟩ := load_spec rs hon ht s start target
  unfold DataShareResultSet.onGo
  rw [hs]
  simp only [Option.bind_eq_bind, Option.bind_some, htake, hload, ht'.rowNum_eq]
  rcases res with e | _
  · refine ⟨.error e, _, rfl, ⟨h.isOpen, rfl, h.names_eq, h.rowPos_ge, nofun, fun b'' hb'' => ?_⟩,
      fun _ _ => rfl, nofun⟩
    cases hb''
    refine ⟨t', ht', .inr ⟨rfl, rfl, hquiet.imp_right fun hrows => ?_⟩⟩
    exact hrows s b e b' s' t'.rowNums hs htake hload ht'.rowNum_eq
  obtain ⟨hstart, hmatch⟩ := hok rfl
  have hcount : (Int32.ofNat t'.rowNums).toInt = t'.rowNums := Int32.toInt_ofNat_of_lt ht'.rows_lt
  have hpos : Int32.ofNat t'.rowNums > 0 ↔ 0 < t'.rowNums := by
    rw [gt_iff_lt, Int32.lt_iff_toInt_lt, hcount, Int32.toInt_zero, Int.natCast_pos]
  by_cases hrows : Int32.ofNat t'.rowNums > 0
  · have hcached : ∀ position, Cached source
        { rs with block := some b', bridge := some s', rowPos := position, startRowPos := start
                  endRowPos := start + Int32.ofNat t'.rowNums - 1 } t' := fun _ =>
      .inl ⟨hstart (hpos.mp hrows), hmatch⟩
    rw [if_pos hrows]
    refine ⟨_, _, rfl, ⟨h.isOpen, rfl, h.names_eq, h.rowPos_ge, nofun, fun b'' hb'' => ?_⟩, nofun,
      fun _ _ position hle => ⟨h.isOpen, rfl, h.names_eq, ?_, nofun, fun b'' hb'' => ?_⟩⟩
    · cases hb''
      exact ⟨t', ht', hcached _⟩
    · exact (by omega : -1 ≤ position.toInt)
    · cases hb''
      exact ⟨t', ht', hcached _⟩
  · have hzero : t'.rowNums = 0 := by
      rw [hpos] at hrows
      omega
    rw [if_neg hrows]
    refine ⟨_, _, rfl, ⟨h.isOpen, rfl, h.names_eq, h.rowPos_ge, nofun, fun b'' hb'' => ?_⟩, nofun,
      fun _ _ position hle => ⟨h.isOpen, rfl, h.names_eq, ?_, nofun, fun b'' hb'' => ?_⟩⟩
    · cases hb''
      refine ⟨t', ht', .inr ⟨rfl, rfl, ?_⟩⟩
      rcases h.rowPos_ge.eq_or_lt with heq | hlt
      · exact .inl (Int32.toInt_inj.mp heq.symm)
      · exact .inr (hzero ▸ hlt)
    · exact (by omega : -1 ≤ position.toInt)
    · cases hb''
      exact ⟨t', ht', .inr ⟨rfl, rfl, .inr (hzero ▸ hle)⟩⟩

theorem CursorInv.goToRow (h : CursorInv source names rs)
    (hon : Honest br source (names.length % 2 ^ 32)) {region : Bool} {position : Int32}
    (hquiet : Pages rs position → LoadsBelow br region rs position (rs.count - 1)) :
    ∃ res rs', rs.goToRow br region position = some (res, rs') ∧ CursorInv source names rs' ∧
      ∀ e, res = .error e → rs'.startRowPos = -1 := by
  unfold DataShareResultSet.goToRow
  rw [h.isOpen]
  simp only [Bool.false_eq_true, if_false]
  split
  · exact ⟨_, _, rfl, h, nofun⟩
  rename_i hrange
  have hle : 0 ≤ position.toInt := by
    have := (not_or.mp hrange).1
    rwa [Int32.lt_iff_toInt_lt, Int32.toInt_zero, not_lt] at this
  split
  · rename_i hpage
    obtain ⟨res, rs', hgo, hinv, herr, hok⟩ := h.onGo hon (hquiet ⟨hrange, hpage.2⟩)
    simp only [Option.bind_eq_bind, hgo, Option.bind_some]
    rcases res with e | x
    · exact ⟨.error e, rs', rfl, hinv, fun _ _ => herr e rfl⟩
    · exact ⟨.ok true, _, rfl, hok x rfl position hle, nofun⟩
  · rename_i hcache
    have hend : rs.endRowPos ≠ -1 := fun hend => hcache ⟨h.bridge, .inr <| by
      rw [hend, gt_iff_lt, Int32.lt_iff_toInt_lt]
      exact (by omega : (-1 : ℤ) < position.toInt)⟩
    refine ⟨_, _, rfl, ⟨rfl, h.bridge, h.names_eq, ?_, fun hnone => ?_, fun b hb => ?_⟩, nofun⟩
    · exact (by omega : -1 ≤ position.toInt)
    · exact absurd (h.noBlock hnone).2.2 hend
    · obtain ⟨t, ht, hfresh | ⟨-, hstale, -⟩⟩ := h.cached b hb
      · exact ⟨t, ht, .inl hfresh⟩
      · exact absurd hstale hend

/-- One call. -/
theorem CursorInv.call (h : CursorInv source names rs)
    (hon : Honest br source (names.length % 2 ^ 32)) {region : Bool} {c : Call}
    (hquiet : c.Quiet br region rs) :
    ∃ res rs', c.run br region rs = some (res, rs') ∧ CursorInv source names rs' ∧
      ∀ e, res = .error e → rs'.startRowPos = -1 := by
  cases c with
  | onGo start target =>
    obtain ⟨res, rs', hgo, hinv, herr, -⟩ := h.onGo hon hquiet
    refine ⟨res.map fun _ => (), rs', ?_, hinv, fun e he => ?_⟩
    · rw [Call.run, hgo]
      rfl
    · rcases res with e' | x
      · exact herr e' rfl
      · cases he
  | goToRow position =>
    obtain ⟨res, rs', hgo, hinv, herr⟩ := h.goToRow hon hquiet
    refine ⟨res.map fun _ => (), rs', ?_, hinv, fun e he => ?_⟩
    · rw [Call.run, hgo]
      rfl
    · rcases res with e' | x
      · exact herr e' rfl
      · cases he
  | goTo offset =>
    obtain ⟨res, rs', hgo, hinv, herr⟩ := h.goToRow hon hquiet
    refine ⟨res.map fun _ => (), rs', ?_, hinv, fun e he => ?_⟩
    · rw [Call.run, DataShareResultSet.goTo, if_neg (by simp [h.isOpen]), hgo]
      rfl
    · rcases res with e' | x
      · exact herr e' rfl
      · cases he

theorem Reachable.inv {rs₀ : DataShareResultSet σ} (hreach : Reachable br rs₀ rs)
    (h : CursorInv source names rs₀) (hon : Honest br source (names.length % 2 ^ 32)) :
    CursorInv source names rs := by
  induction hreach with
  | refl => exact h
  | step _ hquiet hrun ih =>
    obtain ⟨res, rs', hrun', hinv, -⟩ := ih.call hon hquiet
    rw [hrun] at hrun'
    cases hrun'
    exact hinv

/-- A getter that returns a value returns that of the source, at the row of the cursor. -/
def ReadsSource (conv : FloatConversions) (source : ℤ → ℕ → Cell) (rs : DataShareResultSet σ) :
    Prop :=
  ∀ column getter, ∃ res, rs.get conv column getter = some res ∧
    ∀ x, res = .ok x → (source rs.rowPos.toInt column.toUInt32.toNat).get conv getter = .ok x

/-- After quiet calls the getters read the source, and after a call that fails they return
errors. -/
theorem readsSource_of_reachable {rs₀ : DataShareResultSet σ} (conv : FloatConversions)
    (hinit : Initial rs₀) (hon : Honest br source (rs₀.columnNames.length % 2 ^ 32))
    (hreach : Reachable br rs₀ rs) : ReadsSource conv source rs ∧
      ∀ (c : Call) (region : Bool), c.Quiet br region rs →
        ∃ res rs', c.run br region rs = some (res, rs') ∧ ∀ e, res = .error e →
          ∀ column getter, ∃ e', rs'.get conv column getter = some (.error e') := by
  have hinv := hreach.inv (cursorInv_initial hinit) hon
  refine ⟨fun column getter => ?_, fun c region hquiet => ?_⟩
  · obtain ⟨res, hget, hres⟩ := hinv.get conv column getter
    exact ⟨res, hget, fun x hx => (hres x hx).2⟩
  · obtain ⟨res, rs', hrun, hinv', herr⟩ := hinv.call hon hquiet
    refine ⟨res, rs', hrun, fun e he column getter => ?_⟩
    obtain ⟨got, hget, hgot⟩ := hinv'.get conv column getter
    rcases got with e' | x
    · exact ⟨e', hget⟩
    · have hstart := (hgot x rfl).1
      rw [herr e he] at hstart
      exact absurd hstart (by decide)

end Runs

/-! ## A load that fails late -/

/-- Row `r` is one blob, of the byte `r`. -/
def byteRows (r : ℤ) (_ : ℕ) : Cell :=
  .blob [UInt8.ofNat r.toNat]

/-- Write the row asked for, and fail afterwards from the second load on. -/
def failingBridge : ResultSetBridge ℕ where
  onGo n start _ :=
    if start < 0 then .done (.error .invalidParameter) n
    else .call .allocRow fun
      | .error e => .done (.error e) n
      | .ok _ => .call (.write 0 (byteRows start.toInt 0)) fun
        | .error e => .done (.error e) n
        | .ok _ => .done (if n = 0 then .ok () else .error .generalError) (n + 1)

theorem honest_failingBridge : Honest failingBridge byteRows 1 := by
  intro n start target b b' s' h hrun
  unfold failingBridge at hrun
  dsimp only at hrun
  split at hrun
  · cases hrun
  rename_i hstart
  rw [Int32.lt_iff_toInt_lt, Int32.toInt_zero, not_lt] at hstart
  obtain ⟨st, b₁, hcall, h₁⟩ := h.allocRow
  simp only [Fill.run, Option.bind_eq_bind, hcall, Option.bind_some] at hrun
  rcases hst : resultFromCode st with e | _
  · rw [hst] at hrun
    cases hrun
  obtain rfl := resultFromCode_eq_ok hst
  obtain ⟨st', b₂, hcall', h₂⟩ := h₁.write (Nat.succ_pos 0) 0 (byteRows start.toInt 0)
  simp only [hst, Fill.run, Option.bind_eq_bind, hcall', Option.bind_some] at hrun
  rcases hst' : resultFromCode st' with e | _
  · rw [hst'] at hrun
    cases hrun
  obtain rfl := resultFromCode_eq_ok hst'
  rw [hst'] at hrun
  dsimp only [Fill.run] at hrun
  rw [Option.pure_def, Option.some.injEq, Prod.mk.injEq, Prod.mk.injEq] at hrun
  obtain ⟨-, rfl, -⟩ := hrun
  refine ⟨_, h₂, fun _ => hstart, fun r hr c hc => ?_⟩
  obtain rfl : r = 0 := Nat.lt_one_iff.mp hr
  obtain rfl : c = 0 := Nat.lt_one_iff.mp hc
  rw [Int.natCast_zero, add_zero]
  rfl

/-- Two rows of one column. -/
def failingResultSet : DataShareResultSet ℕ :=
  ({} : DataShareResultSet ℕ).withBridge (.ok ["id"]) (.ok 2) 0

theorem readsSource_first_row : ∃ rs, Reachable failingBridge failingResultSet rs ∧
    rs.rowPos = 0 ∧ ∀ conv, ReadsSource conv byteRows rs := by
  have hok : (Call.run failingBridge true failingResultSet (.goToRow 0)).any fun r =>
      r.2.rowPos == 0 := by decide +kernel
  obtain ⟨⟨res, rs⟩, hrun, hpos⟩ := (Option.any_eq_true _ _).mp hok
  have hquiet : Call.Quiet failingBridge true failingResultSet (.goToRow 0) := fun _ => .inl rfl
  have hreach := Reachable.refl.step hquiet hrun
  exact ⟨rs, hreach, eq_of_beq hpos, fun conv =>
    (readsSource_of_reachable conv (.bridge _ _ _) honest_failingBridge hreach).1⟩

/-- The load of row 1 fails after it has written the row, and then row 0 reads as row 1. -/
theorem misread_after_failed_load : Honest failingBridge byteRows 1 ∧
    ∃ rs₁ rs₂ e, Call.run failingBridge true failingResultSet (.goToRow 0) = some (.ok (), rs₁) ∧
      Call.run failingBridge true rs₁ (.goToRow 1) = some (.error e, rs₂) ∧
      rs₂.rowPos = 0 ∧ rs₂.getBlob 0 = some (.ok [1]) ∧ (byteRows 0 0).asBlob = .ok [0] := by
  refine ⟨honest_failingBridge, ?_⟩
  have hok : (Call.run failingBridge true failingResultSet (.goToRow 0)).any fun r₁ =>
      r₁.1.isOk && (Call.run failingBridge true r₁.2 (.goToRow 1)).any fun r₂ =>
        !r₂.1.isOk && (r₂.2.rowPos == 0 && r₂.2.getBlob 0 == some (.ok [1])) := by
    decide +kernel
  obtain ⟨⟨e₁ | ⟨⟩, rs₁⟩, hrun₁, h₁⟩ := (Option.any_eq_true _ _).mp hok
  · cases h₁
  obtain ⟨⟨e | ⟨⟩, rs₂⟩, hrun₂, h₂⟩ := (Option.any_eq_true _ _).mp h₁
  · have hread : (rs₂.rowPos == 0 && rs₂.getBlob 0 == some (.ok [1])) = true := h₂
    rw [Bool.and_eq_true, beq_iff_eq, beq_iff_eq] at hread
    exact ⟨rs₁, rs₂, e, hrun₁, hrun₂, hread.1, hread.2, rfl⟩
  · cases h₂

end Rust

end DataShare
