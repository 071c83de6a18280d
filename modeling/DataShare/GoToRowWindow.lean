import DataShare.ResultSetSoundness

/-!
# The window of `go_to_row`

A move to row `p` leaves a window if `p` lies between `start_row_pos` and `end_row_pos`, the block
has the rows up to it, and the getters read row `p - start_row_pos` of the block (`Window`).

The calls keep that the block holds the page they note (`PageInv`), for every bridge. A move inside
the page then leaves a window unless the page starts at a negative row, which only `on_go` can ask
for. A move outside loads a page, and leaves a window exactly if the bridge stores a row : `on_go`
returns `Ok(-1)` for a load without rows, and `go_to_row` takes it for a success
(`goToRow_window_iff`).
-/

namespace DataShare

namespace Rust

open DataShareResultSet

variable {σ : Type} {br : ResultSetBridge σ} {rs rs₀ : DataShareResultSet σ}

/-- `close`. -/
def DataShareResultSet.close (rs : DataShareResultSet σ) :
    Except DataShareError Unit × DataShareResultSet σ :=
  if rs.isClosed then (.error .invalidOperation, rs)
  else (.ok (), { rs with isClosed := true, block := none, bridge := none })

/-- The states after some calls, whatever the bridge does in them. -/
inductive Visited (br : ResultSetBridge σ) (rs₀ : DataShareResultSet σ) :
    DataShareResultSet σ → Prop
  | refl : Visited br rs₀ rs₀
  | call {rs rs' : DataShareResultSet σ} {c : Call} {region : Bool}
      {res : Except DataShareError Unit} (h : Visited br rs₀ rs)
      (hrun : c.run br region rs = some (res, rs')) : Visited br rs₀ rs'
  | close {rs : DataShareResultSet σ} (h : Visited br rs₀ rs) : Visited br rs₀ rs.close.2

/-- A column the getters accept. -/
def ValidColumn (rs : DataShareResultSet σ) (column : Int32) : Prop :=
  ∃ n, rs.columnCount = some n ∧ 0 ≤ column ∧ column < n

/-- The getters read row `position`, from the page in the block. -/
def Window (rs : DataShareResultSet σ) (position : Int32) : Prop :=
  rs.startRowPos ≤ position ∧ position ≤ rs.endRowPos ∧
    rs.blockRowIndex.toInt = position.toInt - rs.startRowPos.toInt ∧
    ∃ b t, rs.block = some b ∧ Refines b t ∧
      position.toInt - rs.startRowPos.toInt + 1 ≤ t.rowNums ∧
      ∀ conv column getter, ValidColumn rs column → rs.get conv column getter =
        some ((t.cell rs.blockRowIndex.toInt.toNat column.toInt.toNat).get conv getter)

/-! ## Reading a cell of the block -/

section Getters

variable {b : SharedBlock} {t : Table} {column : Int32} {r c : ℕ}

/-- The block has cell `(r, c)`, and a getter of the column gets to it. -/
structure ReadsCell (rs : DataShareResultSet σ) (column : Int32) (b : SharedBlock) (t : Table)
    (r c : ℕ) : Prop where
  check : rs.checkState column = some (.ok ())
  block : rs.block = some b
  refines : Refines b t
  row : rs.blockRowIndex.toUInt32.toNat = r
  column : column.toUInt32.toNat = c
  row_lt : r < t.rowNums
  column_lt : c < t.columnNums

theorem ReadsCell.withCell {α : Type} (h : ReadsCell rs column b t r c)
    {noBlock : Except DataShareError α}
    {f : SharedBlock → SharedBlock.CellValueLegacy → Option (Except DataShareError α)}
    {g : Cell → Except DataShareError α}
    (hf : ∀ {b v p}, PayloadAt b v p → f b (v.legacy p) = some (g v)) :
    rs.withCell column noBlock f = some (g (t.cell r c)) := by
  obtain ⟨p, hvalue, hpay⟩ := h.refines.getCellValue_eq h.row_lt h.column_lt
  unfold DataShareResultSet.withCell
  rw [h.check, h.block, h.row, h.column]
  simp only [Option.bind_eq_bind, Option.bind_some, hvalue]
  exact hf hpay

theorem ReadsCell.get (h : ReadsCell rs column b t r c) (conv : FloatConversions) (getter : Getter) :
    rs.get conv column getter = some ((t.cell r c).get conv getter) := by
  have hmap {α : Type} {o : Option (Except DataShareError α)} {x : Except DataShareError α}
      (ho : o = some x) (f : α → Value) : o.map (Except.map f) = some (x.map f) := by rw [ho]; rfl
  cases getter with
  | columnType =>
    have hread : rs.getColumnType column = some (.ok (.ofCellType (t.cell r c).kind)) :=
      h.withCell (g := fun v => .ok (DataType.ofCellType v.kind)) fun _ => by
        rw [cellType_legacy]
        rfl
    exact hmap hread _
  | blob => exact hmap (h.withCell PayloadAt.blobOf_eq) _
  | string => exact hmap (h.withCell (PayloadAt.stringOf_eq conv)) _
  | int =>
    have hlong : rs.getLong conv column = some ((t.cell r c).asLong conv) :=
      h.withCell (PayloadAt.longOf_eq conv)
    show ((rs.getLong conv column).bind _).map _ = _
    rw [hlong, Cell.get]
    rcases (t.cell r c).asLong conv with e | n <;> rfl
  | long => exact hmap (h.withCell (PayloadAt.longOf_eq conv)) _
  | double => exact hmap (h.withCell (PayloadAt.doubleOf_eq conv)) _
  | isNull =>
    have hread : rs.isColumnNull column = some (.ok ((t.cell r c).kind == cellUnitTypeNull)) :=
      h.withCell (g := fun v => .ok (v.kind == cellUnitTypeNull)) fun _ => by
        rw [cellType_legacy]
        rfl
    exact hmap hread _

end Getters

/-! ## The page in the block -/

/-- The block has a table with the rows from `start_row_pos` to `end_row_pos`. -/
structure HoldsPage (rs : DataShareResultSet σ) (b : SharedBlock) (t : Table) : Prop where
  block : rs.block = some b
  refines : Refines b t
  columns : t.columnNums = rs.columnNames.length % 2 ^ 32
  nonempty : 0 < t.rowNums
  end_eq : rs.endRowPos = rs.startRowPos + Int32.ofNat t.rowNums - 1

/-- While it is open, the result set has a bridge, and no page or the one it notes. -/
structure PageInv (rs : DataShareResultSet σ) : Prop where
  refines : ∀ b, rs.block = some b → ∃ t, Refines b t
  rowPos_ge : -1 ≤ rs.rowPos.toInt
  bridge : rs.isClosed = false → rs.bridge.isSome
  page : rs.isClosed = false →
    (rs.startRowPos = -1 ∧ rs.endRowPos = -1) ∨ ∃ b t, HoldsPage rs b t

theorem pageInv_initial (h : Initial rs) : PageInv rs := by
  have hpos : -1 ≤ initPos.toInt := by decide
  cases h with
  | bridge names count s =>
    exact ⟨fun b hb => absurd hb (Option.some_ne_none b).symm, hpos, fun _ => rfl,
      fun _ => .inl ⟨rfl, rfl⟩⟩
  | attached names count s hb =>
    exact ⟨fun b hblock => ⟨_, Option.some_inj.mp hblock ▸ hb⟩, hpos, fun _ => rfl,
      fun _ => .inl ⟨rfl, rfl⟩⟩

/-- A load leaves a block, with the columns of the result set if it succeeds. -/
theorem load_runs (br : ResultSetBridge σ) (rs : DataShareResultSet σ) {b : SharedBlock} {t : Table}
    (h : Refines b t) (s : σ) (start target : Int32) :
    ∃ res b' s' t', rs.load br b s start target = some (res, b', s') ∧ Refines b' t' ∧
      (res = .ok () → t'.columnNums = rs.columnNames.length % 2 ^ 32) := by
  rcases load_cases br rs h s start target with ⟨e, b', t', hload, h'⟩ | ⟨b', h', hload⟩
  · exact ⟨.error e, b', s, t', hload, h', fun he => absurd he (by simp)⟩
  · obtain ⟨res, b'', s', t'', hrun, h'', hcols⟩ := h'.fill (br.onGo s start target)
    exact ⟨res, b'', s', t'', hload.trans hrun, h'', fun _ => hcols⟩

/-- `on_go` loads from `start` to `target`, with this result. -/
def Loads (br : ResultSetBridge σ) (region : Bool) (rs : DataShareResultSet σ)
    (start target : Int32) (res : Except DataShareError Unit) (b' : SharedBlock) (s' : σ) : Prop :=
  ∃ s b, rs.bridge = some s ∧ rs.takeBlock region = some (.ok b) ∧
    rs.load br b s start target = some (res, b', s')

theorem Loads.unique {region : Bool} {start target : Int32} {res res' : Except DataShareError Unit}
    {b b' : SharedBlock} {s s' : σ} (h : Loads br region rs start target res b s)
    (h' : Loads br region rs start target res' b' s') : res = res' ∧ b = b' ∧ s = s' := by
  obtain ⟨s₁, b₁, hs, hb, hload⟩ := h
  obtain ⟨s₂, b₂, hs', hb', hload'⟩ := h'
  obtain rfl := Option.some_inj.mp (hs.symm.trans hs')
  obtain rfl := Except.ok.inj (Option.some_inj.mp (hb.symm.trans hb'))
  have heq := Option.some_inj.mp (hload.symm.trans hload')
  exact ⟨congrArg Prod.fst heq, congrArg (fun r => r.2.1) heq, congrArg (fun r => r.2.2) heq⟩

/-- What is cached after a load. -/
def DataShareResultSet.cache (rs : DataShareResultSet σ) (b : SharedBlock) (s : σ)
    (startRowPos endRowPos : Int32) : DataShareResultSet σ :=
  { rs with block := some b, bridge := some s, startRowPos, endRowPos }

/-- What `on_go` does : without a bridge or a block it changes nothing, and the page of a load is
cached if it succeeds and has rows. -/
theorem onGo_cases (h : PageInv rs) (br : ResultSetBridge σ) (region : Bool) (start target : Int32) :
    (rs.bridge = none ∧ rs.onGo br region start target = some (.ok (-1), rs)) ∨
    (∃ e, rs.takeBlock region = some (.error e) ∧
      rs.onGo br region start target = some (.error e, rs)) ∨
    ∃ res b' s' t', Loads br region rs start target res b' s' ∧ Refines b' t' ∧
      ((∃ e, res = .error e ∧
          rs.onGo br region start target = some (.error e, rs.cache b' s' (-1) (-1))) ∨
        (res = .ok () ∧ t'.rowNums = 0 ∧
          rs.onGo br region start target = some (.ok (-1), rs.cache b' s' (-1) (-1))) ∨
        (res = .ok () ∧ 0 < t'.rowNums ∧ t'.columnNums = rs.columnNames.length % 2 ^ 32 ∧
          rs.onGo br region start target =
            some (.ok (start + Int32.ofNat t'.rowNums - 1),
              rs.cache b' s' start (start + Int32.ofNat t'.rowNums - 1)))) := by
  unfold DataShareResultSet.onGo
  cases hbridge : rs.bridge with
  | none => exact .inl ⟨rfl, rfl⟩
  | some s =>
    refine .inr ?_
    obtain ⟨taken, htake, hblock⟩ := takeBlock_spec rs region h.refines
    rcases taken with e | b
    · refine .inl ⟨e, htake, ?_⟩
      simp only [Option.bind_eq_bind, Option.bind_some, htake]
      rfl
    obtain ⟨t, ht⟩ := hblock b rfl
    obtain ⟨res, b', s', t', hload, ht', hcols⟩ := load_runs br rs ht s start target
    refine .inr ⟨res, b', s', t', ⟨s, b, hbridge, htake, hload⟩, ht', ?_⟩
    simp only [Option.bind_eq_bind, Option.bind_some, htake, hload, ht'.rowNum_eq]
    rcases res with e | _
    · exact .inl ⟨e, rfl, rfl⟩
    have hpos : Int32.ofNat t'.rowNums > 0 ↔ 0 < t'.rowNums := by
      rw [gt_iff_lt, Int32.lt_iff_toInt_lt, Int32.toInt_ofNat_of_lt ht'.rows_lt, Int32.toInt_zero,
        Int.natCast_pos]
    refine .inr ?_
    by_cases hrows : Int32.ofNat t'.rowNums > 0
    · rw [if_pos hrows]
      exact .inr ⟨rfl, hpos.mp hrows, hcols rfl, rfl⟩
    · rw [if_neg hrows]
      exact .inl ⟨rfl, Nat.eq_zero_of_not_pos (mt hpos.mpr hrows), rfl⟩

/-- After a load the page in the block is the one that is noted. -/
theorem PageInv.onGo (h : PageInv rs) {region : Bool} {start target : Int32}
    {res : Except DataShareError Int32} {rs' : DataShareResultSet σ}
    (hrun : rs.onGo br region start target = some (res, rs')) : PageInv rs' := by
  rcases onGo_cases h br region start target with ⟨-, hgo⟩ | ⟨e, -, hgo⟩ |
    ⟨loaded, b', s', t', -, ht', ⟨e, -, hgo⟩ | ⟨-, -, hgo⟩ | ⟨-, hrows, hcols, hgo⟩⟩
  all_goals
    rw [hrun] at hgo
    cases hgo
  · exact h
  · exact h
  · exact ⟨fun b hb => ⟨t', Option.some_inj.mp hb ▸ ht'⟩, h.rowPos_ge, fun _ => rfl,
      fun _ => .inl ⟨rfl, rfl⟩⟩
  · exact ⟨fun b hb => ⟨t', Option.some_inj.mp hb ▸ ht'⟩, h.rowPos_ge, fun _ => rfl,
      fun _ => .inl ⟨rfl, rfl⟩⟩
  · exact ⟨fun b hb => ⟨t', Option.some_inj.mp hb ▸ ht'⟩, h.rowPos_ge, fun _ => rfl,
      fun _ => .inr ⟨b', t', rfl, ht', hcols, hrows, rfl⟩⟩

theorem PageInv.move (h : PageInv rs) {position : Int32} (hpos : 0 ≤ position.toInt) :
    PageInv { rs with rowPos := position } :=
  ⟨h.refines, by show -1 ≤ position.toInt; omega, h.bridge, fun hopen =>
    (h.page hopen).imp_right (Exists.imp fun b => Exists.imp fun t hpage =>
      ⟨hpage.block, hpage.refines, hpage.columns, hpage.nonempty, hpage.end_eq⟩)⟩

theorem le_toInt_of_inRange {position : Int32} (h : ¬(position < 0 ∨ position ≥ rs.count)) :
    0 ≤ position.toInt := by
  have hneg := (not_or.mp h).1
  rwa [Int32.lt_iff_toInt_lt, Int32.toInt_zero, not_lt] at hneg

theorem PageInv.goToRow (h : PageInv rs) {region : Bool} {position : Int32}
    {res : Except DataShareError Bool} {rs' : DataShareResultSet σ}
    (hrun : rs.goToRow br region position = some (res, rs')) : PageInv rs' := by
  unfold DataShareResultSet.goToRow at hrun
  split at hrun
  · cases hrun
    exact h
  split at hrun
  · cases hrun
    exact h
  rename_i hrange
  have hpos := le_toInt_of_inRange hrange
  split at hrun
  · obtain ⟨⟨e | x, rs₁⟩, hgo, hmove⟩ := Option.bind_eq_some_iff.mp hrun
    · cases hmove
      exact h.onGo hgo
    · cases hmove
      exact (h.onGo hgo).move hpos
  · cases hrun
    exact h.move hpos

theorem PageInv.call (h : PageInv rs) {c : Call} {region : Bool} {res : Except DataShareError Unit}
    {rs' : DataShareResultSet σ} (hrun : c.run br region rs = some (res, rs')) : PageInv rs' := by
  cases c with
  | onGo start target =>
    obtain ⟨⟨res', rs''⟩, hgo, heq⟩ := Option.map_eq_some_iff.mp hrun
    cases heq
    exact h.onGo hgo
  | goToRow position =>
    obtain ⟨⟨res', rs''⟩, hgo, heq⟩ := Option.map_eq_some_iff.mp hrun
    cases heq
    exact h.goToRow hgo
  | goTo offset =>
    obtain ⟨⟨res', rs''⟩, hgo, heq⟩ := Option.map_eq_some_iff.mp hrun
    cases heq
    unfold DataShareResultSet.goTo at hgo
    split at hgo
    · cases hgo
      exact h
    · exact h.goToRow hgo

theorem PageInv.close (h : PageInv rs) : PageInv rs.close.2 := by
  unfold DataShareResultSet.close
  split
  · exact h
  · exact ⟨fun b hb => absurd hb (Option.some_ne_none b).symm, h.rowPos_ge,
      fun hopen => absurd hopen (Bool.noConfusion), fun hopen => absurd hopen (Bool.noConfusion)⟩

/-- The invariant holds in every run, of any bridge. -/
theorem Visited.pageInv (h : Visited br rs₀ rs) (hinit : Initial rs₀) : PageInv rs := by
  induction h with
  | refl => exact pageInv_initial hinit
  | call _ hrun ih => exact ih.call hrun
  | close _ ih => exact ih.close

/-! ## Moves -/

/-- The end of a page wraps around with its last row. -/
theorem toInt_pageEnd {start : Int32} {n : ℕ} (hstart : 0 ≤ start.toInt) (hpos : 0 < n)
    (hlt : n < 2 ^ 31) : (start + Int32.ofNat n - 1).toInt =
      if start.toInt + n ≤ 2 ^ 31 then start.toInt + n - 1 else start.toInt + n - 1 - 2 ^ 32 := by
  have hmax := start.toInt_lt
  have hsum : (start + Int32.ofNat n - 1).toInt = (start.toInt + n - 1).bmod (2 ^ 32) := by
    rw [Int32.toInt_sub, Int32.toInt_add, Int32.toInt_ofNat_of_lt hlt, Int32.toInt_one]
    exact Int.bmod_sub_bmod
  rw [hsum]
  split
  · rw [Int.bmod_eq_of_le (by omega) (by omega)]
  · rw [← Int.sub_bmod_right]
    exact Int.bmod_eq_of_le (by omega) (by omega)

theorem Refines.columns_le {b : SharedBlock} {t : Table} (h : Refines b t) :
    t.columnNums ≤ colMaxNum := by
  obtain ⟨A, L, -, hinv⟩ := h
  exact hinv.base.cols_le

/-- The columns the getters accept are those of the page. -/
theorem HoldsPage.columnCount_eq {b : SharedBlock} {t : Table} (h : HoldsPage rs b t) {n : Int32}
    (hcount : rs.columnCount = some n) : n.toInt = t.columnNums := by
  have hle := h.refines.columns_le
  have hcols := h.columns
  unfold colMaxNum at hle
  unfold DataShareResultSet.columnCount at hcount
  rw [h.block] at hcount
  cases hnames : rs.columnNames with
  | nil =>
    rw [hnames] at hcount hcols
    dsimp only at hcount
    rw [h.refines.columnNum_eq, hcols] at hcount
    rw [hcols, ← Option.some_inj.mp hcount]
    rfl
  | cons name names =>
    rw [hnames] at hcount hcols
    rw [← Option.some_inj.mp hcount, Int32.toInt_ofNat', ← Int.emod_bmod]
    have hcast : (((name :: names).length : ℕ) : ℤ) % (Int32.size : ℕ) = t.columnNums := by
      rw [hcols]
      exact (Int.natCast_emod _ _).symm
    rw [hcast]
    have hsize : ((Int32.size : ℕ) : ℤ) = 2 ^ 32 := rfl
    exact Int.bmod_eq_of_le (by omega) (by omega)

/-- A move inside a page that starts at a row leaves a window. -/
theorem HoldsPage.window {b : SharedBlock} {t : Table} {position : Int32} (h : HoldsPage rs b t)
    (hopen : rs.isClosed = false) (hpos : rs.rowPos = position) (hstart : 0 ≤ rs.startRowPos.toInt)
    (hle : rs.startRowPos ≤ position) (hend : position ≤ rs.endRowPos) : Window rs position := by
  have hle' := Int32.le_iff_toInt_le.mp hle
  have hend' := Int32.le_iff_toInt_le.mp hend
  have hmax := rs.startRowPos.toInt_lt
  have hrowsLt := h.refines.rows_lt
  rw [h.end_eq, toInt_pageEnd hstart h.nonempty hrowsLt] at hend'
  have hrows : position.toInt - rs.startRowPos.toInt + 1 ≤ t.rowNums := by
    split at hend' <;> omega
  have hindex : rs.blockRowIndex.toInt = position.toInt - rs.startRowPos.toInt := by
    unfold DataShareResultSet.blockRowIndex
    rw [if_pos (by rwa [ge_iff_le, Int32.le_iff_toInt_le, Int32.toInt_zero]), hpos,
      toInt_sub_of_nonneg (by omega) hstart]
  refine ⟨hle, hend, hindex, b, t, h.block, h.refines, hrows, fun conv column getter hvalid => ?_⟩
  obtain ⟨n, hcount, hlow, hhigh⟩ := hvalid
  rw [Int32.le_iff_toInt_le, Int32.toInt_zero] at hlow
  rw [Int32.lt_iff_toInt_lt, h.columnCount_eq hcount] at hhigh
  have hcheck : rs.checkState column = some (.ok ()) := by
    have hcolumns := h.columnCount_eq hcount
    have hne : rs.rowPos ≠ initPos := fun heq => by
      have hinit : position.toInt = -1 := by
        rw [← hpos, heq]
        rfl
      omega
    unfold DataShareResultSet.checkState
    rw [hopen, hcount]
    simp only [Bool.false_eq_true, if_false, Option.bind_eq_bind, Option.bind_some]
    rw [if_neg, if_neg hne]
    · rfl
    · rintro ⟨-, hneg | hbig⟩
      · rw [Int32.lt_iff_toInt_lt, Int32.toInt_zero] at hneg
        omega
      · rw [ge_iff_le, Int32.le_iff_toInt_le] at hbig
        omega
  have hcast {x : Int32} (h0 : 0 ≤ x.toInt) : x.toUInt32.toNat = x.toInt.toNat :=
    Int32.toNat_toUInt32_of_le (by rwa [Int32.le_iff_toInt_le, Int32.toInt_zero])
  have hcell : ReadsCell rs column b t rs.blockRowIndex.toInt.toNat column.toInt.toNat :=
    ⟨hcheck, h.block, h.refines, hcast (by omega), hcast hlow, by omega, by omega⟩
  exact hcell.get conv getter

/-- A load from `position` that succeeds stores rows, up to the last row number. -/
def StoresRows (br : ResultSetBridge σ) (region : Bool) (rs : DataShareResultSet σ)
    (position : Int32) : Prop :=
  ∀ b' s' n, Loads br region rs position (rs.count - 1) (.ok ()) b' s' → b'.rowNum = some n →
    0 < n ∧ position.toInt + n ≤ 2 ^ 31

/-- In every state the calls reach, whatever the bridge does, a move in range leaves a window
exactly if a page is loaded and has rows, or the page there is starts at a row. -/
theorem goToRow_window_iff (hinit : Initial rs₀) (hreach : Visited br rs₀ rs) (region : Bool)
    (position : Int32) :
    (∃ res rs', rs.goToRow br region position = some (res, rs') ∧
      (res = .ok true → Window rs' position)) ↔
    (rs.isClosed = false → ¬(position < 0 ∨ position ≥ rs.count) →
      if position < rs.startRowPos ∨ position > rs.endRowPos then
        StoresRows br region rs position
      else 0 ≤ rs.startRowPos) := by
  have h := hreach.pageInv hinit
  unfold DataShareResultSet.goToRow
  by_cases hclosed : rs.isClosed = true
  · rw [if_pos hclosed]
    refine iff_of_true ⟨_, _, rfl, fun hok => absurd hok (by simp)⟩ fun hopen => ?_
    simp [hclosed] at hopen
  have hopen : rs.isClosed = false := by simpa using hclosed
  rw [if_neg hclosed, imp_iff_right hopen]
  by_cases hrange : position < 0 ∨ position ≥ rs.count
  · rw [if_pos hrange]
    exact iff_of_true ⟨_, _, rfl, fun hok => absurd hok (by simp)⟩ fun hin => absurd hrange hin
  rw [if_neg hrange, imp_iff_right hrange]
  have hpos := le_toInt_of_inRange hrange
  have hout : ¬position ≤ (-1 : Int32) := by
    rw [Int32.le_iff_toInt_le]
    show ¬position.toInt ≤ -1
    omega
  by_cases hpage : position < rs.startRowPos ∨ position > rs.endRowPos
  · rw [if_pos ⟨h.bridge hopen, hpage⟩, if_pos hpage]
    rcases onGo_cases h br region position (rs.count - 1) with ⟨hnone, -⟩ | ⟨e, htake, hgo⟩ |
      ⟨loaded, b', s', t', hloads, ht', hcase⟩
    · have hbridge := h.bridge hopen
      rw [hnone] at hbridge
      exact absurd hbridge (by simp)
    · rw [hgo]
      refine iff_of_true ⟨.error e, rs, rfl, fun hok => absurd hok (by simp)⟩ ?_
      rintro b' s' n ⟨s, b, -, hb, -⟩
      exact absurd (htake.symm.trans hb) (by simp)
    rcases hcase with ⟨e, rfl, hgo⟩ | ⟨rfl, hzero, hgo⟩ | ⟨rfl, hrows, hcols, hgo⟩
    · rw [hgo]
      refine iff_of_true ⟨.error e, _, rfl, fun hok => absurd hok (by simp)⟩ ?_
      intro b'' s'' n hloads'
      exact absurd (hloads.unique hloads').1 (by simp)
    · rw [hgo]
      refine iff_of_false ?_ fun hstores => ?_
      · rintro ⟨res, rs', hrun, hwindow⟩
        obtain ⟨rfl, rfl⟩ := Prod.mk.inj (Option.some_inj.mp hrun)
        exact hout (hwindow rfl).2.1
      · exact absurd (hstores b' s' _ hloads ht'.rowNum_eq).1 (by omega)
    · have hmax := position.toInt_lt
      have hend := toInt_pageEnd hpos hrows ht'.rows_lt
      have hpage' : HoldsPage { rs.cache b' s' position (position + Int32.ofNat t'.rowNums - 1) with
          rowPos := position } b' t' := ⟨rfl, ht', hcols, hrows, rfl⟩
      rw [hgo]
      constructor
      · rintro ⟨res, rs', hrun, hwindow⟩ b'' s'' n hloads' hn
        obtain ⟨rfl, rfl⟩ := Prod.mk.inj (Option.some_inj.mp hrun)
        obtain ⟨-, rfl, rfl⟩ := hloads.unique hloads'
        obtain rfl := Option.some_inj.mp (ht'.rowNum_eq.symm.trans hn)
        have hle := Int32.le_iff_toInt_le.mp (hwindow rfl).2.1
        change position.toInt ≤ (position + Int32.ofNat t'.rowNums - 1).toInt at hle
        refine ⟨hrows, ?_⟩
        by_contra hwrap
        rw [hend, if_neg hwrap] at hle
        have := ht'.rows_lt
        omega
      · intro hstores
        have hfits := (hstores b' s' _ hloads ht'.rowNum_eq).2
        refine ⟨.ok true, _, rfl, fun _ => hpage'.window hopen rfl hpos (Int32.le_refl _) ?_⟩
        rw [Int32.le_iff_toInt_le]
        show position.toInt ≤ (position + Int32.ofNat t'.rowNums - 1).toInt
        rw [hend, if_pos hfits]
        omega
  · rw [if_neg fun hboth => hpage hboth.2, if_neg hpage]
    obtain ⟨hle, hend⟩ := not_or.mp hpage
    rw [Int32.not_lt] at hle
    have hend' : position ≤ rs.endRowPos := Int32.not_lt.mp hend
    obtain ⟨b, t, hheld⟩ := (h.page hopen).resolve_left fun hnone => hout (hnone.2 ▸ hend')
    have hmoved : HoldsPage { rs with rowPos := position } b t :=
      ⟨hheld.block, hheld.refines, hheld.columns, hheld.nonempty, hheld.end_eq⟩
    constructor
    · rintro ⟨res, rs', hrun, hwindow⟩
      obtain ⟨rfl, rfl⟩ := Prod.mk.inj (Option.some_inj.mp hrun)
      by_contra hstart
      -- The getters take the row number for one of the block.
      have hindex := (hwindow rfl).2.2.1
      unfold DataShareResultSet.blockRowIndex at hindex
      rw [if_neg hstart] at hindex
      rw [Int32.le_iff_toInt_le, Int32.toInt_zero] at hstart
      change position.toInt = position.toInt - rs.startRowPos.toInt at hindex
      omega
    · intro hstart
      rw [Int32.le_iff_toInt_le, Int32.toInt_zero] at hstart
      exact ⟨.ok true, _, rfl, fun _ => hmoved.window hopen rfl hstart hle hend'⟩

/-- A bridge that stores one row. -/
def oneRowBridge : ResultSetBridge ℕ where
  onGo n _ _ := .call .allocRow fun res => .done res n

theorem goToRow_window_of_one_row : ∃ res rs', goToRow oneRowBridge true failingResultSet 0 =
    some (res, rs') ∧ (res = .ok true → Window rs' 0) := by
  have hinit : Initial failingResultSet := .bridge (.ok ["id"]) (.ok 2) 0
  refine (goToRow_window_iff hinit (.refl : Visited oneRowBridge _ failingResultSet) true 0).mpr
    fun _ _ => ?_
  rw [if_pos (by decide)]
  rintro b' s' n ⟨s, b, hs, hb, hload⟩ hn
  have hone : ((takeBlock failingResultSet true).any fun taken => taken.toOption.any fun b =>
      (load oneRowBridge failingResultSet b 0 0 (failingResultSet.count - 1)).any fun r =>
        r.2.1.rowNum == some 1) = true := by decide +kernel
  obtain rfl : 0 = s := Option.some_inj.mp hs
  rw [hb] at hone
  change (load oneRowBridge failingResultSet b 0 0 (failingResultSet.count - 1)).any _ = true at hone
  rw [hload] at hone
  have hn' : b'.rowNum = some 1 := eq_of_beq hone
  obtain rfl := Option.some_inj.mp (hn'.symm.trans hn)
  decide

/-- A bridge that stores nothing. -/
def emptyBridge : ResultSetBridge ℕ where
  onGo n _ _ := .done (.ok ()) n

/-- The move to row 0 succeeds, and the result set has no page. -/
theorem goToRow_without_rows : Initial failingResultSet ∧
    ∃ rs', goToRow emptyBridge true failingResultSet 0 = some (.ok true, rs') ∧ ¬Window rs' 0 := by
  refine ⟨.bridge (.ok ["id"]) (.ok 2) 0, ?_⟩
  have hok : (goToRow emptyBridge true failingResultSet 0).any fun r =>
      r.1.toOption == some true && r.2.endRowPos == -1 := by decide +kernel
  obtain ⟨⟨res, rs'⟩, hrun, hres⟩ := (Option.any_eq_true _ _).mp hok
  rw [Bool.and_eq_true, beq_iff_eq, beq_iff_eq] at hres
  rcases res with e | ok
  · exact absurd hres.1 (by simp [Except.toOption])
  · obtain rfl : ok = true := Option.some_inj.mp hres.1
    refine ⟨rs', hrun, fun hwindow => ?_⟩
    have hend := hwindow.2.1
    rw [hres.2] at hend
    exact absurd hend (by decide)

end Rust

end DataShare
