import DataShare.RemoteResultSet

/-!
# Soundness of the getters behind a proxy

A request of a proxy can be lost, and an answer can be lost after the stub has acted. The block may then
have rows that the proxy knows nothing of : its cursor is behind the last row, or before the first one,
and it has no window (`ProxyInv`).

Whatever is called and whatever is lost, a getter that succeeds with the cursor on a row returns the
cell of the source at that row (`reads_remote`), if a load leaves at most as many rows as there are.
-/

namespace DataShare

namespace Cpp

open Rust (Refines Table)

/-! ## Getters of a class -/

namespace ResultSetClass

variable {ρ : Type} {cls : ResultSetClass ρ} {conv : Conversions} {columnIndex : Int32} {rs rs' : ρ}

/-- The members are kept apart from the block, and asking for the names keeps both. -/
structure Lawful (cls : ResultSetClass ρ) : Prop where
  members_set : ∀ rs m, cls.members (cls.setMembers m rs) = m
  block_set : ∀ rs m, cls.block (cls.setMembers m rs) = cls.block rs
  names : ∀ rs, ∀ r ∈ cls.getAllColumnNames rs,
    cls.members r.2 = cls.members rs ∧ cls.block r.2 = cls.block rs

/-- A bridge that is not asked. -/
def noBridge : ResultSetBridge Unit where
  getAllColumnNames _ := (eOk, [])
  getRowCount _ := (eOk, 0)
  onGo _ _ _ := .done 0 ()

/-- Two objects that the getters cannot tell apart, but for the count of columns. -/
structure SameView (cls : ResultSetClass ρ) (rs rs' : ρ) : Prop where
  rowPos : (cls.members rs').rowPos = (cls.members rs).rowPos
  startRowPos : (cls.members rs').startRowPos = (cls.members rs).startRowPos
  block : cls.block rs' = cls.block rs

theorem Lawful.getColumnCount_cases (hl : cls.Lawful) {code cnt : Int32}
    (h : cls.getColumnCount rs = some ((code, cnt), rs')) :
    cls.SameView rs rs' ∧ (cnt = 0 ∨ cnt = (cls.members rs').count) := by
  rw [getColumnCount, Method.read_bind_apply, Method.ite_apply] at h
  split at h
  · obtain ⟨⟨⟨ret, columnNames⟩, rs₁⟩, hnames, h⟩ := Option.bind_eq_some_iff.mp h
    obtain ⟨hmembers, hblock⟩ := hl.names rs _ hnames
    dsimp only at h hmembers hblock
    rw [Method.ite_apply] at h
    split at h
    · cases h
      exact ⟨⟨by rw [hmembers], by rw [hmembers], hblock⟩, .inl rfl⟩
    · rw [modifyMembers, Method.update_bind_apply] at h
      cases h
      refine ⟨⟨?_, ?_, ?_⟩, .inr ?_⟩
      · rw [hl.members_set, hmembers]
      · rw [hl.members_set, hmembers]
      · rw [hl.block_set, hblock]
      · rw [hl.members_set]
  · cases h
    exact ⟨⟨rfl, rfl, rfl⟩, .inr rfl⟩

/-- If the state is right, the count of columns is known then. -/
theorem Lawful.checkState_ok (hl : cls.Lawful)
    (h : cls.checkState columnIndex rs = some (eOk, rs')) :
    cls.SameView rs rs' ∧ (cls.view rs').checkState noBridge columnIndex = (eOk, cls.view rs') := by
  obtain ⟨⟨⟨code, cnt⟩, rs₁⟩, hcount, h⟩ := Option.bind_eq_some_iff.mp h
  obtain ⟨hview, hcnt⟩ := hl.getColumnCount_cases hcount
  dsimp only at h
  rw [Method.read_bind_apply, Method.ite_apply, Method.ite_apply] at h
  split at h
  · cases h
  rename_i hcolumn
  split at h
  · cases h
  rename_i hpos
  cases h
  refine ⟨hview, ?_⟩
  obtain ⟨hlt, hge⟩ := not_or.mp hcolumn
  have hcnt : cnt = (cls.members rs').count := by
    refine hcnt.resolve_left fun hzero => ?_
    rw [hzero] at hlt
    exact hlt (Int32.not_lt.mp hge)
  have hne : (cls.members rs').count ≠ -1 := by
    intro hneg
    rw [hcnt, hneg] at hlt
    exact hlt (Int32.le_trans (by decide) (Int32.not_lt.mp hge))
  rw [hcnt] at hcolumn
  have hne' : (cls.view rs').count ≠ -1 := hne
  have hpos' : (cls.view rs').rowPos ≠ initPos := hpos
  have hcolumn' : ¬(columnIndex ≥ (cls.view rs').count ∨ columnIndex < 0) := hcolumn
  unfold DataShareResultSet.checkState DataShareResultSet.getColumnCount
  rw [if_neg hne']
  dsimp only
  rw [if_neg hcolumn', if_neg hpos']

theorem readView_cases {α : Type} {wrap : α → Read} {r' : Read} {code : Int32}
    {get : DataShareResultSet Unit → Option (Int32 × α)}
    (h : (do
      let (code, value) ← cls.readView get
      pure (code, wrap value) : Method _ (Int32 × Read)) rs = some ((code, r'), rs')) :
    rs' = rs ∧ ∃ v, get (cls.view rs) = some (code, v) ∧ wrap v = r' := by
  obtain ⟨⟨⟨code', v⟩, rs₁⟩, hget, hr⟩ := Option.bind_eq_some_iff.mp h
  rw [readView, Method.read_bind_apply] at hget
  obtain ⟨v', hv, heq⟩ := Option.map_eq_some_iff.mp hget
  cases heq
  cases hr
  exact ⟨rfl, v, hv, rfl⟩

theorem Lawful.withCell_cases (hl : cls.Lawful) {α : Type} {value value' : α}
    {f : SharedBlock → Option CellUnit → Option (Int32 × α)}
    (hf : ∀ b, f b none = some (eError, value))
    (h : cls.withCell columnIndex value f rs = some ((eOk, value'), rs')) :
    cls.SameView rs rs' ∧ ∃ b cell, cls.block rs = some b ∧
      cls.checkState columnIndex rs = some (eOk, rs') ∧
        (cls.view rs').cellUnit b columnIndex = some (some cell) ∧
          f b (some cell) = some (eOk, value') := by
  rw [withCell, Method.read_bind_apply] at h
  rcases hb : cls.block rs with _ | b
  · rw [hb] at h
    cases h
  rw [hb] at h
  dsimp only at h
  obtain ⟨⟨errorCode, rs₁⟩, hstate, h⟩ := Option.bind_eq_some_iff.mp h
  dsimp only at h
  rw [Method.ite_apply] at h
  split at h
  · rename_i hne
    cases h
    exact absurd rfl hne
  rename_i hok
  rw [not_not.mp hok] at hstate
  rw [Method.read_bind_apply] at h
  obtain ⟨r, hr, heq⟩ := Option.map_eq_some_iff.mp h
  obtain ⟨cell, hcell, hr⟩ := Option.bind_eq_some_iff.mp hr
  cases heq
  cases cell with
  | none =>
    rw [hf] at hr
    cases hr
  | some cell => exact ⟨(hl.checkState_ok hstate).1, b, cell, rfl, hstate, hcell, hr⟩

/-- A getter that succeeds is one of a local result set with the same members and block. -/
theorem Lawful.read_view (hl : cls.Lawful) {r r' : Read}
    (h : cls.read conv columnIndex r rs = some ((eOk, r'), rs')) :
    cls.SameView rs rs' ∧ ∃ v, (cls.view rs').read noBridge conv columnIndex r = some (eOk, r', v) := by
  cases r with
  | string value =>
    obtain ⟨rfl, v, hget, rfl⟩ := readView_cases h
    exact ⟨⟨rfl, rfl, rfl⟩, _, Option.map_eq_some_iff.mpr ⟨_, hget, rfl⟩⟩
  | int value =>
    obtain ⟨rfl, v, hget, rfl⟩ := readView_cases h
    exact ⟨⟨rfl, rfl, rfl⟩, _, Option.map_eq_some_iff.mpr ⟨_, hget, rfl⟩⟩
  | long value =>
    obtain ⟨rfl, v, hget, rfl⟩ := readView_cases h
    exact ⟨⟨rfl, rfl, rfl⟩, _, Option.map_eq_some_iff.mpr ⟨_, hget, rfl⟩⟩
  | blob value =>
    obtain ⟨⟨⟨code, blob⟩, rs₁⟩, hget, hr⟩ := Option.bind_eq_some_iff.mp h
    cases hr
    obtain ⟨hview, b, cell, hb, hstate, hcell, hblob⟩ := hl.withCell_cases (fun _ => rfl) hget
    refine ⟨hview, ?_⟩
    have hstate' := (hl.checkState_ok hstate).2
    have hb' : (localClass noBridge).block (cls.view rs') = some b := hview.block.trans hb
    have hlocal : (localClass noBridge).getBlob columnIndex value (cls.view rs') =
        some ((eOk, blob), cls.view rs') := by
      rw [getBlob, withCell, Method.read_bind_apply, hb']
      dsimp only
      rw [Method.bind_apply, checkState_localClass, hstate', Option.bind_some]
      dsimp only
      rw [Method.ite_apply, if_neg (not_not.mpr rfl), Method.read_bind_apply,
        (alike_view_localClass noBridge (cls.view rs')).cellUnit_eq (.refl b), hcell]
      change Option.map _ (blobOf b value (some cell)) = _
      rw [hblob]
      rfl
    rw [getBlob_localClass] at hlocal
    obtain ⟨⟨code', blob', v⟩, hx, heq⟩ := Option.map_eq_some_iff.mp hlocal
    cases heq
    exact ⟨_, Option.map_eq_some_iff.mpr ⟨_, hx, rfl⟩⟩

/-- What the calls of a client need to keep `P`. -/
structure Keeps (cls : ResultSetClass ρ) (P : ρ → Prop) : Prop where
  names : Method.Keeps P cls.getAllColumnNames
  rowCount : Method.Keeps P cls.getRowCount
  count : ∀ rs n, P rs → P (cls.setMembers { cls.members rs with count := n } rs)
  goToRow : ∀ position, Method.Keeps P (cls.goToRow position)

namespace Keeps

variable {P : ρ → Prop}

theorem goTo (h : cls.Keeps P) (offset : Int32) : Method.Keeps P (cls.goTo offset) :=
  (Method.Keeps.read _).bind fun _ => (Method.Keeps.lift _).bind fun _ => h.goToRow _

theorem move (h : cls.Keeps P) (m : Move) : Method.Keeps P (cls.move m) := by
  cases m with
  | goToRow position => exact h.goToRow position
  | goTo offset => exact h.goTo offset
  | goToFirstRow => exact h.goToRow 0
  | goToLastRow =>
    exact h.rowCount.bind fun _ => .ite (.pure _)
      ((Method.Keeps.lift _).bind fun _ => h.goToRow _)
  | goToNextRow => exact h.goTo 1
  | goToPreviousRow => exact h.goTo (-1)

theorem getColumnCount (h : cls.Keeps P) : Method.Keeps P cls.getColumnCount :=
  (Method.Keeps.read _).bind fun _ => .ite
    (h.names.bind fun _ => .ite (.pure _)
      ((Method.Keeps.update fun rs hrs => h.count rs _ hrs).bind fun _ => .pure _))
    (.pure _)

theorem checkState (h : cls.Keeps P) (columnIndex : Int32) :
    Method.Keeps P (cls.checkState columnIndex) :=
  h.getColumnCount.bind fun _ => (Method.Keeps.read _).bind fun _ =>
    .ite (.pure _) (.ite (.pure _) (.pure _))

theorem withCell (h : cls.Keeps P) {α : Type} (columnIndex : Int32) (value : α)
    (f : SharedBlock → Option CellUnit → Option (Int32 × α)) :
    Method.Keeps P (cls.withCell columnIndex value f) := by
  refine (Method.Keeps.read _).bind fun b => ?_
  cases b with
  | none => exact .pure _
  | some b =>
    exact (h.checkState columnIndex).bind fun _ => .ite (.pure _)
      ((Method.Keeps.read _).bind fun _ => .lift _)

theorem readView {α : Type} (get : DataShareResultSet Unit → Option (Int32 × α)) :
    Method.Keeps P (cls.readView get) :=
  (Method.Keeps.read _).bind fun _ => .lift _

theorem read (h : cls.Keeps P) (conv : Conversions) (columnIndex : Int32) (r : Read) :
    Method.Keeps P (cls.read conv columnIndex r) := by
  cases r with
  | string value => exact (readView _).bind fun _ => .pure _
  | int value => exact (readView _).bind fun _ => .pure _
  | long value => exact (readView _).bind fun _ => .pure _
  | blob value => exact (h.withCell columnIndex _ _).bind fun _ => .pure _

theorem withRowCount (h : cls.Keeps P) (f : CursorMembers → Int32 → Bool) :
    Method.Keeps P (cls.withRowCount f) :=
  h.rowCount.bind fun _ => .ite (.pure _) ((Method.Keeps.read _).bind fun _ => .pure _)

theorem call (h : cls.Keeps P) (conv : Conversions) (c : ClientCall) :
    Method.Keeps P (cls.call conv c) := by
  cases c with
  | move m => exact (h.move m).bind fun _ => .pure _
  | read columnIndex r => exact (h.read conv columnIndex r).bind fun _ => .pure _
  | getRowCount => exact h.rowCount.bind fun _ => .pure _
  | getAllColumnNames => exact h.names.bind fun _ => .pure _
  | getColumnCount => exact h.getColumnCount.bind fun _ => .pure _
  | isColumnNull columnIndex => exact (h.withCell columnIndex _ _).bind fun _ => .pure _
  | isAtLastRow => exact h.withRowCount fun m rowCnt => m.rowPos == rowCnt - 1
  | isEnded => exact h.withRowCount fun m rowCnt => if rowCnt = 0 then true else m.rowPos == rowCnt

theorem answers (h : cls.Keeps P) (conv : Conversions) (calls : List ClientCall) :
    Method.Keeps P (cls.answers conv calls) :=
  .mapM (h.call conv) calls

end Keeps

end ResultSetClass

/-! ## Requests that are lost -/

namespace ISharedResultSetProxy

section Lost

variable {σ : Type} {br : ResultSetBridge σ} {other : Int32 × ResultSetMessage} {conv : Conversions}
  {columnNames : List StdString} {source : ℤ → ℕ → Cell} {rowCount : Int32}
  {p p' : ISharedResultSetProxy σ}

/-- The stub acts or it does not. If there is no error, it has, and this is its answer. -/
theorem sendRequest_cases {code : UInt32} {data : ResultSetMessage} {r : Int32 × ResultSetMessage}
    (h : sendRequest br other code data p = some (r, p')) :
    ∃ stub deliveries, p' = { p with stub := stub, deliveries := deliveries } ∧
      ((r.1 ≠ 0 ∧ stub = p.stub) ∨
        ∃ reply, ISharedResultSetStub.onRemoteRequest br other code data p.stub =
          some (reply, stub) ∧ (r.1 ≠ 0 ∨ r = reply)) := by
  unfold sendRequest at h
  split at h
  · obtain ⟨⟨reply, stub⟩, hreply, heq⟩ := Option.bind_eq_some_iff.mp h
    cases heq
    exact ⟨_, _, rfl, .inr ⟨_, hreply, .inr rfl⟩⟩
  · rename_i errCode _
    cases h
    exact ⟨p.stub, _, rfl, .inl ⟨errCode.2, rfl⟩⟩
  · rename_i errCode _
    obtain ⟨⟨reply, stub⟩, hreply, heq⟩ := Option.bind_eq_some_iff.mp h
    cases heq
    exact ⟨_, _, rfl, .inr ⟨_, hreply, .inl errCode.2⟩⟩

/-- A request that leaves the result set as it is fails, or its answer is read. -/
theorem request_cases {α : Type} {code : UInt32} {value : α}
    {read : ResultSetMessage → Method (ISharedResultSetProxy σ) (Int32 × α)}
    {reply : ResultSetMessage} {r : Int32 × α}
    (hreply : ISharedResultSetStub.onRemoteRequest br other code
      [.interfaceToken ISharedResultSetStub.descriptor] p.stub =
        some ((noError, .int32 eOk :: reply), p.stub))
    (h : request br other code value read p = some (r, p')) :
    ∃ deliveries, (r.2 = value ∧ p' = { p with deliveries := deliveries }) ∨
      read reply { p with deliveries := deliveries } = some (r, p') := by
  obtain ⟨⟨⟨errCode, message⟩, p₁⟩, hsend, h⟩ := Option.bind_eq_some_iff.mp h
  obtain ⟨stub, deliveries, rfl, hcases⟩ := sendRequest_cases hsend
  dsimp only at h hcases
  rw [Method.ite_apply, Method.lift_bind_apply] at h
  obtain rfl : stub = p.stub := by
    rcases hcases with ⟨-, hstub⟩ | ⟨reply', hreply', -⟩
    · exact hstub
    · rw [hreply] at hreply'
      exact (congrArg Prod.snd (Option.some.inj hreply')).symm
  refine ⟨deliveries, ?_⟩
  split at h
  · obtain ⟨code', -, heq⟩ := Option.bind_eq_some_iff.mp h
    cases heq
    exact .inl ⟨rfl, rfl⟩
  · rename_i hok
    obtain ⟨herr, -⟩ | ⟨reply', hreply', hanswer⟩ := hcases
    · exact absurd herr hok
    obtain rfl : reply' = (noError, .int32 eOk :: reply) := by
      rw [hreply] at hreply'
      exact (congrArg Prod.fst (Option.some.inj hreply')).symm
    obtain ⟨-, rfl⟩ := Prod.mk.inj (hanswer.resolve_left hok)
    exact .inr h

theorem onGo_cases {start target : Int32} {r : Option Int32}
    (h : onGo br other start target p = some (r, p')) :
    ∃ stub deliveries, p' = { p with stub := stub, deliveries := deliveries } ∧
      ((r = none ∧ stub = p.stub) ∨
        ∃ r', (localClass br).onGo start target p.stub = some (r', stub) ∧ (r = none ∨ r = r')) := by
  obtain ⟨⟨⟨errCode, message⟩, p₁⟩, hsend, h⟩ := Option.bind_eq_some_iff.mp h
  obtain ⟨stub, deliveries, rfl, hcases⟩ := sendRequest_cases hsend
  dsimp only at h hcases
  rw [Method.ite_apply] at h
  have hr : r = none ∨ errCode = 0 := by
    split at h
    · cases h
      exact .inl rfl
    · rename_i hok
      exact .inr (not_not.mp hok)
  have hp' : p' = { p with stub := stub, deliveries := deliveries } := by
    split at h <;> cases h <;> rfl
  refine ⟨stub, deliveries, hp', ?_⟩
  obtain ⟨herr, hstub⟩ | ⟨reply, hreply, hanswer⟩ := hcases
  · exact .inl ⟨hr.resolve_right herr, hstub⟩
  rw [onRemoteRequest_onGo] at hreply
  obtain ⟨⟨r', rs⟩, hgo, heq⟩ := Option.map_eq_some_iff.mp hreply
  cases heq
  refine .inr ⟨r', hgo, ?_⟩
  rcases hanswer with herr | hanswer
  · exact .inl (hr.resolve_right herr)
  · cases hanswer
    cases h
    exact .inr (decode_onGo hgo)

/-- A load that fails leaves at most as many rows as there are. -/
def Bounded (br : ResultSetBridge σ) (columnNames : List StdString) (rowCount : Int32) : Prop :=
  ∀ s start b result b' s', Prepared (columnNames.length % 2 ^ 32) b →
    0 ≤ start.toInt → start.toInt < rowCount.toInt →
      (br.onGo s start (rowCount - 1)).run b = some (result, b', s') → result < 0 →
        ∃ n : ℕ, b'.rowNum = some n ∧ n ≤ rowCount.toInt

/-- The `n` rows of the block are those of the window. Without a window the cursor is not on a row, or
there are none. -/
def Window (source : ℤ → ℕ → Cell) (rowCount : Int32) (m : CursorMembers) (b : SharedBlock) (n : ℕ) :
    Prop :=
  (0 ≤ m.startRowPos.toInt ∧ m.startRowPos.toInt + n ≤ rowCount.toInt ∧
      HoldsRows source m.startRowPos.toInt n b) ∨
    (m.startRowPos = -1 ∧ m.endRowPos = -1 ∧ (n = 0 ∨ m.rowPos = -1 ∨ m.rowPos = rowCount))

/-- There are no rows before the count is known. -/
structure ProxyInv (source : ℤ → ℕ → Cell) (rowCount : Int32) (p : ISharedResultSetProxy σ) : Prop where
  bridge : p.stub.bridge.isSome
  count : p.rowCount = -1 ∨ p.rowCount = rowCount
  rowPos_ge : -1 ≤ p.members.rowPos.toInt
  rowPos_le : p.members.rowPos.toInt ≤ rowCount.toInt
  block : ∀ b ∈ p.stub.sharedBlock, Writable b ∧ ∃ n : ℕ, b.rowNum = some n ∧ n ≤ rowCount.toInt ∧
    (p.rowCount = rowCount ∨ n = 0) ∧ Window source rowCount p.members b n

theorem stable_of_honours (h : Honours br columnNames source rowCount) :
    Stable br columnNames rowCount where
  nonneg := Int32.le_iff_toInt_le.mpr h.nonneg
  names := h.names
  count := h.count

theorem load_rows (hon : Honours br columnNames source rowCount)
    (hbd : Bounded br columnNames rowCount) {rs : DataShareResultSet σ} {b b' : SharedBlock} {s s' : σ}
    (hs : rs.bridge = some s) (hb : Writable b) {position result : Int32}
    (hge : 0 ≤ position.toInt) (hlt : position.toInt < rowCount.toInt)
    (hload : rs.load br b s position (rowCount - 1) = some (result, b', s')) :
    ∃ n : ℕ, b'.rowNum = some n ∧ n ≤ rowCount.toInt ∧
      (0 ≤ result → position.toInt + n ≤ rowCount.toInt ∧ HoldsRows source position.toInt n b') := by
  have hnames : (rs.getAllColumnNames br).2 = columnNames :=
    congrArg Prod.snd
      ((stable_of_honours hon).getAllColumnNames_eq (Option.isSome_iff_exists.mpr ⟨s, hs⟩))
  obtain ⟨st, b₁, st', b₂, hclear, hset, hprep⟩ :=
    prepare_spec hb (columnNames.length % 2 ^ 32)
  unfold DataShareResultSet.load at hload
  rw [hclear, hnames] at hload
  simp only [Option.bind_eq_bind, Option.bind_some, hset] at hload
  by_cases hok : 0 ≤ result
  · obtain ⟨n, hn, hlast, hend, hrows⟩ := hon.onGo s position b₂ result b' s' hprep hge hlt hload hok
    exact ⟨n, hn, by omega, fun _ => ⟨by omega, hrows⟩⟩
  · obtain ⟨n, hn, hle⟩ := hbd s position b₂ result b' s' hprep hge hlt hload (Int32.not_le.mp hok)
    exact ⟨n, hn, hle, fun h => absurd h hok⟩

theorem ProxyInv.getRowCount (hon : Honours br columnNames source rowCount) :
    Method.Spec (ProxyInv source rowCount) (getRowCount br other) fun r p =>
      ProxyInv source rowCount p ∧
        ((r.2 = rowCount ∧ p.rowCount = rowCount) ∨ (r.2 = 0 ∧ p.rowCount = -1)) := by
  have hnonneg : rowCount ≥ 0 := (stable_of_honours hon).nonneg
  rintro p h ⟨⟨code, n⟩, p'⟩ hr
  unfold ISharedResultSetProxy.getRowCount at hr
  change (Method.read _ >>= _) p = _ at hr
  rw [Method.read_bind_apply, Method.ite_apply] at hr
  split at hr
  · rename_i hge
    cases hr
    have hcount : p.rowCount = rowCount := h.count.resolve_left fun hneg => by
      rw [hneg] at hge
      exact absurd hge (by decide)
    exact ⟨h, .inl ⟨hcount, hcount⟩⟩
  · rename_i hlt
    have hcount : p.rowCount = -1 := h.count.resolve_right fun hcount => by
      rw [hcount] at hlt
      exact hlt hnonneg
    obtain ⟨deliveries, ⟨hvalue, hp⟩ | hread⟩ :=
      request_cases (onRemoteRequest_getRowCount (stable_of_honours hon) h.bridge) hr
    · rw [hp]
      exact ⟨⟨h.bridge, h.count, h.rowPos_ge, h.rowPos_le, h.block⟩, .inr ⟨hvalue, hcount⟩⟩
    · cases hread
      refine ⟨⟨h.bridge, .inr rfl, h.rowPos_ge, h.rowPos_le, fun b hb => ?_⟩, .inl ⟨rfl, rfl⟩⟩
      obtain ⟨hwrite, n, hn, hle, -, hwindow⟩ := h.block b hb
      exact ⟨hwrite, n, hn, hle, .inl rfl, hwindow⟩

theorem ProxyInv.getAllColumnNames (hon : Honours br columnNames source rowCount) :
    Method.Keeps (ProxyInv source rowCount) (getAllColumnNames br other) := by
  rintro p h ⟨⟨code, names⟩, p'⟩ hr
  unfold ISharedResultSetProxy.getAllColumnNames at hr
  change (Method.read _ >>= _) p = _ at hr
  rw [Method.read_bind_apply, Method.ite_apply] at hr
  split at hr
  · cases hr
    exact h
  · obtain ⟨deliveries, ⟨-, hp⟩ | hread⟩ :=
      request_cases (onRemoteRequest_getAllColumnNames (stable_of_honours hon) h.bridge) hr
    · rw [hp]
      exact ⟨h.bridge, h.count, h.rowPos_ge, h.rowPos_le, h.block⟩
    · cases hread
      exact ⟨h.bridge, h.count, h.rowPos_ge, h.rowPos_le, h.block⟩

/-- What a load leaves at the stub, whatever the proxy hears of it. -/
theorem ProxyInv.onGo (hon : Honours br columnNames source rowCount)
    (hbd : Bounded br columnNames rowCount) (h : ProxyInv source rowCount p) {position : Int32}
    (hge : 0 ≤ position.toInt) (hlt : position.toInt < rowCount.toInt) {r : Option Int32}
    (hgo : onGo br other position (rowCount - 1) p = some (r, p')) :
    p'.rowCount = p.rowCount ∧ p'.stub.bridge.isSome ∧
      ∀ b ∈ p'.stub.sharedBlock, Writable b ∧ ∃ n : ℕ, b.rowNum = some n ∧ n ≤ rowCount.toInt ∧
        (r.isSome → position.toInt + n ≤ rowCount.toInt ∧ HoldsRows source position.toInt n b) := by
  obtain ⟨stub, deliveries, rfl, ⟨rfl, rfl⟩ | ⟨r', hload, hr⟩⟩ := onGo_cases hgo
  · refine ⟨rfl, h.bridge, fun b hb => ?_⟩
    obtain ⟨hwrite, n, hn, hle, -⟩ := h.block b hb
    exact ⟨hwrite, n, hn, hle, fun hsome => Bool.noConfusion hsome⟩
  obtain ⟨s, hs⟩ := Option.isSome_iff_exists.mp h.bridge
  rcases hb : p.stub.sharedBlock with _ | b
  · rw [onGo_of_none _ (.inl hb)] at hload
    cases hload
    refine ⟨rfl, h.bridge, fun b hb' => ?_⟩
    change p.stub.sharedBlock = some b at hb'
    rw [hb] at hb'
    cases hb'
  · rw [onGo_of_some _ hb hs] at hload
    obtain ⟨⟨result, b', s'⟩, hrun, heq⟩ := Option.map_eq_some_iff.mp hload
    clear hload
    cases heq
    refine ⟨rfl, rfl, ?_⟩
    rintro b'' ⟨⟩
    have hwrite := (h.block b hb).1
    obtain ⟨n, hn, hle, hrows⟩ := load_rows hon hbd hs hwrite hge hlt hrun
    refine ⟨writable_of_load hwrite hrun, n, hn, hle, fun hsome => hrows ?_⟩
    rcases hr with rfl | rfl
    · cases hsome
    · by_contra hneg
      rw [if_neg hneg] at hsome
      cases hsome

theorem ProxyInv.goToPage (hon : Honours br columnNames source rowCount)
    (hbd : Bounded br columnNames rowCount) {position : Int32} (hge : 0 ≤ position.toInt)
    (hlt : position.toInt < rowCount.toInt) :
    Method.Spec (fun p => ProxyInv source rowCount p ∧ p.rowCount = rowCount)
      ((remoteClass br other).goToPage position rowCount) fun _ => ProxyInv source rowCount := by
  rintro p ⟨h, hcount⟩ r hr
  obtain ⟨⟨endPos, p₁⟩, hgo, hr⟩ := Option.bind_eq_some_iff.mp hr
  obtain ⟨hcount₁, hbridge, hblock⟩ := h.onGo hon hbd hge hlt hgo
  have hcount₁ : p₁.rowCount = rowCount := hcount₁.trans hcount
  have hnonneg := hon.nonneg
  cases endPos with
  | none =>
    cases hr
    refine ⟨hbridge, .inr hcount₁, by change -1 ≤ rowCount.toInt; omega, le_rfl, fun b hb => ?_⟩
    obtain ⟨hwrite, n, hn, hle, -⟩ := hblock b hb
    exact ⟨hwrite, n, hn, hle, .inl hcount₁, .inr ⟨rfl, rfl, .inr (.inr rfl)⟩⟩
  | some endPos =>
    cases hr
    refine ⟨hbridge, .inr hcount₁, by change -1 ≤ position.toInt; omega,
      by change position.toInt ≤ _; omega, fun b hb => ?_⟩
    obtain ⟨hwrite, n, hn, hle, hrows⟩ := hblock b hb
    exact ⟨hwrite, n, hn, hle, .inl hcount₁, .inl ⟨hge, hrows rfl⟩⟩

/-- The cursor moves to a side, or there is a window, or there are no rows. -/
theorem ProxyInv.moveTo (h : ProxyInv source rowCount p) (hnonneg : 0 ≤ rowCount) {position : Int32}
    (hge : -1 ≤ position.toInt) (hle : position.toInt ≤ rowCount.toInt)
    (hside : position = -1 ∨ position = rowCount ∨ p.rowCount = -1 ∨ p.members.endRowPos ≠ -1) :
    ProxyInv source rowCount { p with members := { p.members with rowPos := position } } := by
  refine ⟨h.bridge, h.count, hge, hle, fun b hb => ?_⟩
  obtain ⟨hwrite, n, hn, hrows, hcount, hwindow⟩ := h.block b hb
  refine ⟨hwrite, n, hn, hrows, hcount, hwindow.imp_right ?_⟩
  rintro ⟨hstart, hend, -⟩
  refine ⟨hstart, hend, ?_⟩
  rcases hside with hpos | hpos | hzero | hne
  · exact .inr (.inl hpos)
  · exact .inr (.inr hpos)
  · refine .inl (hcount.resolve_left fun hcount => ?_)
    rw [← hcount, hzero] at hnonneg
    exact absurd hnonneg (by decide)
  · exact absurd hend hne

theorem ProxyInv.goToRowOf (hon : Honours br columnNames source rowCount)
    (hbd : Bounded br columnNames rowCount) (position n : Int32) (h : ProxyInv source rowCount p)
    (hn : (n = rowCount ∧ p.rowCount = rowCount) ∨ (n = 0 ∧ p.rowCount = -1))
    {r : Int32 × ISharedResultSetProxy σ}
    (hr : (remoteClass br other).goToRowOf position n p.members p = some r) :
    ProxyInv source rowCount r.2 := by
  have hnonneg := (stable_of_honours hon).nonneg
  have hnonneg' := hon.nonneg
  have hzero : (0 : Int32).toInt = 0 := rfl
  unfold ResultSetClass.goToRowOf at hr
  rw [Method.ite_apply] at hr
  split at hr
  · cases hr
    rcases hn with ⟨rfl, -⟩ | ⟨rfl, hcount⟩
    · exact h.moveTo hnonneg (by omega) le_rfl (.inr (.inl rfl))
    · exact h.moveTo hnonneg (by omega) (by omega) (.inr (.inr (.inl hcount)))
  rename_i hlt
  rw [Method.ite_apply] at hr
  split at hr
  · cases hr
    exact h.moveTo hnonneg le_rfl (by have : initPos.toInt = -1 := rfl; omega) (.inl rfl)
  rename_i hge
  have hge : 0 ≤ position.toInt := Int32.le_iff_toInt_le.mp (Int32.not_lt.mp hge)
  have hlt : position.toInt < n.toInt := Int32.lt_iff_toInt_lt.mp (Int32.not_le.mp hlt)
  obtain ⟨rfl, hcount⟩ : n = rowCount ∧ p.rowCount = rowCount :=
    hn.resolve_right fun hzero' => by
      rw [hzero'.1] at hlt
      omega
  rw [Method.ite_apply] at hr
  split at hr
  · cases hr
    exact h
  rw [Method.ite_apply] at hr
  split at hr
  · exact ProxyInv.goToPage hon hbd hge hlt p ⟨h, hcount⟩ r hr
  · rename_i hwindow
    cases hr
    refine h.moveTo hnonneg (by omega) hlt.le (.inr (.inr (.inr fun hend => ?_)))
    rw [hend] at hwindow
    have hneg : (-1 : Int32).toInt = -1 := rfl
    exact hwindow (.inl (Int32.lt_iff_toInt_lt.mpr (by omega)))

theorem ProxyInv.goToRow (hon : Honours br columnNames source rowCount)
    (hbd : Bounded br columnNames rowCount) (position : Int32) :
    Method.Keeps (ProxyInv source rowCount) ((remoteClass br other).goToRow position) := by
  refine Method.Keeps.bind (.read _) fun isNone => .ite (.pure _) ?_
  refine Method.Spec.bind (ProxyInv.getRowCount hon) fun count => ?_
  rintro p ⟨h, hcount⟩ r hr
  exact h.goToRowOf hon hbd position count.2 hcount hr

theorem keeps_proxyInv (hon : Honours br columnNames source rowCount)
    (hbd : Bounded br columnNames rowCount) :
    (remoteClass br other).Keeps (ProxyInv source rowCount) where
  names := ProxyInv.getAllColumnNames hon
  rowCount := (ProxyInv.getRowCount hon).mono (fun _ h => h) fun _ _ h => h.1
  count _ _ h := ⟨h.bridge, h.count, h.rowPos_ge, h.rowPos_le, h.block⟩
  goToRow := ProxyInv.goToRow hon hbd

theorem keeps_request {P : ISharedResultSetProxy σ → Prop} {α : Type} {code : UInt32} {value : α}
    {read : ResultSetMessage → Method (ISharedResultSetProxy σ) (Int32 × α)}
    (hsend : Method.Keeps P (sendRequest br other code [.interfaceToken ISharedResultSetStub.descriptor]))
    (hread : ∀ reply, Method.Keeps P (read reply)) :
    Method.Keeps P (request br other code value read) :=
  hsend.bind fun _ => .ite ((Method.Keeps.lift _).bind fun _ => .pure _)
    (.ite (.pure _) (hread _))

theorem onRemoteRequest_names {rs rs' : DataShareResultSet σ} {reply : Int32 × ResultSetMessage}
    (h : ISharedResultSetStub.onRemoteRequest br other ISharedResultSetStub.funcGetAllColumnNames
      [.interfaceToken ISharedResultSetStub.descriptor] rs = some (reply, rs')) : rs' = rs := by
  change ISharedResultSetStub.handleGetAllColumnNamesRequest br rs = _ at h
  unfold ISharedResultSetStub.handleGetAllColumnNamesRequest at h
  change (Method.read (fun rs => rs.getAllColumnNames br) >>= _) rs = _ at h
  rw [Method.read_bind_apply] at h
  cases h
  rfl

/-- Asking for the names moves nothing. -/
theorem lawful_remoteClass : (remoteClass br other).Lawful where
  members_set _ _ := rfl
  block_set _ _ := rfl
  names p r hr := by
    have hkeeps : Method.Keeps (fun q => q.members = p.members ∧ q.mapped = p.mapped ∧ q.stub = p.stub)
        (getAllColumnNames br other) := by
      refine (Method.Keeps.read _).bind fun _ => .ite (.pure _) (keeps_request ?_ fun reply => ?_)
      · rintro q ⟨hmembers, hmapped, hstub⟩ r hr
        obtain ⟨stub, deliveries, hq, ⟨-, rfl⟩ | ⟨reply, hreply, -⟩⟩ := sendRequest_cases hr
        · rw [hq]
          exact ⟨hmembers, hmapped, hstub⟩
        · rw [hq, onRemoteRequest_names hreply]
          exact ⟨hmembers, hmapped, hstub⟩
      · cases reply.readStringVector with
        | none => exact .pure _
        | some columnNames => exact Method.Keeps.bind (.update fun _ hq => hq) fun _ => .pure _
    obtain ⟨hmembers, hmapped, hstub⟩ := hkeeps p ⟨rfl, rfl, rfl⟩ r hr
    refine ⟨hmembers, ?_⟩
    change r.2.block = p.block
    rw [block, block, hmapped, hstub]

/-- The row behind the last one is not in a block of all rows. -/
theorem toNat_sub_neg_one {x : Int32} (h : 0 ≤ x.toInt) :
    ((x - -1).toUInt32.toNat : ℤ) = x.toInt + 1 := by
  have hlt := x.toInt_lt
  have hcond : x.toInt = if 2 * x.toUInt32.toNat < 2 ^ 32 then (x.toUInt32.toNat : ℤ)
      else x.toUInt32.toNat - (2 ^ 32 : ℕ) := BitVec.toInt_eq_toNat_cond x.toBitVec
  have hx := x.toUInt32.toNat_lt
  have hone : (x - -1).toUInt32.toNat = (x.toUInt32.toNat + 1) % 2 ^ 32 := by
    rw [Int32.sub_neg]
    exact UInt32.toNat_add x.toUInt32 1
  split at hcond <;> omega

/-- The row of the cursor is one of the window. -/
theorem ProxyInv.unit_row (h : ProxyInv source rowCount p) {b : SharedBlock}
    (hb : p.stub.sharedBlock = some b) (hpos : 0 ≤ p.members.rowPos.toInt) {col ptr : ℕ}
    (hunit : b.getCellUnit (p.members.rowPos - p.members.startRowPos).toUInt32.toNat col =
      some (some ptr)) :
    p.members.rowPos.toInt < rowCount.toInt ∧
      ∃ x, CellAt b ptr (source p.members.rowPos.toInt col) x := by
  obtain ⟨-, n, hn, hle, -, hwindow⟩ := h.block b hb
  have hlt := row_lt_of_getCellUnit hunit hn
  rcases hwindow with ⟨hstart, hend, hrows⟩ | ⟨hstart, -, hcursor⟩
  · have hcount := rowCount.toInt_lt
    have hint := toInt_eq_toNat (x := p.members.rowPos - p.members.startRowPos) (by omega)
    rw [toInt_sub_of_nonneg h.rowPos_ge hstart] at hint
    obtain ⟨x, hcell⟩ := hrows _ hlt _ ptr hunit
    rw [← hint, show p.members.startRowPos.toInt +
      (p.members.rowPos.toInt - p.members.startRowPos.toInt) = p.members.rowPos.toInt by omega] at hcell
    exact ⟨by omega, x, hcell⟩
  · rw [hstart] at hlt
    have hrow := toNat_sub_neg_one hpos
    rcases hcursor with hzero | hneg | hlast
    · omega
    · rw [hneg] at hpos
      exact absurd hpos (by decide)
    · rw [hlast] at hrow hlt
      omega

theorem CellAt.ofSameReads {b b' : SharedBlock} (hb : SameReads b b') {ptr x : ℕ} {v : Cell}
    (h : CellAt b' ptr v x) : CellAt b ptr v x := by
  refine ⟨?_, h.bound, fun hne => ?_⟩
  · rw [hb.mem]
    exact h.cell
  · rw [hb.ptr, hb.mem]
    exact h.payload hne

/-- The cell that a getter of the proxy finds. -/
theorem ProxyInv.cell_row (h : ProxyInv source rowCount p) {b : SharedBlock}
    (hb : p.block = some b) (hpos : 0 ≤ p.members.rowPos.toInt) {col ptr : ℕ}
    (hunit : b.getCellUnit (p.members.rowPos - p.members.startRowPos).toUInt32.toNat col =
      some (some ptr)) :
    p.members.rowPos.toInt < rowCount.toInt ∧
      ∃ x, CellAt b ptr (source p.members.rowPos.toInt col) x := by
  unfold ISharedResultSetProxy.block at hb
  split at hb
  · obtain ⟨b₀, hb₀, rfl⟩ := Option.map_eq_some_iff.mp hb
    have hsame := sameReads_readOnly (h.block b₀ hb₀).1
    rw [hsame.unit] at hunit
    obtain ⟨hlt, x, hcell⟩ := h.unit_row hb₀ hpos hunit
    exact ⟨hlt, x, CellAt.ofSameReads hsame hcell⟩
  · cases hb

theorem proxyInv_createProxy (hon : Honours br columnNames source rowCount) (bridge : σ)
    (blockSize : ℕ) (region mapped : Bool) (deliveries : List Delivery) :
    ProxyInv source rowCount (createProxy (.new bridge blockSize region) mapped deliveries) := by
  have hnonneg := hon.nonneg
  have hpos : initPos.toInt ≤ 0 := by decide
  refine ⟨rfl, .inl rfl, le_rfl, hpos.trans hnonneg, fun b hb => ?_⟩
  obtain ⟨hwrite, hrows⟩ := block_new hb
  exact ⟨hwrite, 0, hrows, hnonneg, .inr rfl, .inr ⟨rfl, rfl, .inl rfl⟩⟩

/-- Whatever a client calls, and whatever becomes of the requests, a getter that succeeds on a row
returns what the source has there. -/
theorem reads_remote (hon : Honours br columnNames source rowCount)
    (hbd : Bounded br columnNames rowCount) (bridge : σ) (blockSize : ℕ) (region mapped : Bool)
    (deliveries : List Delivery) (calls : List ClientCall) {given : List (Int32 × ClientAnswer)}
    (hrun : (remoteClass br other).answers conv calls
      (createProxy (.new bridge blockSize region) mapped deliveries) = some (given, p))
    {columnIndex : Int32} {r r' : Read}
    (hread : (remoteClass br other).read conv columnIndex r p = some ((eOk, r'), p'))
    (hpos : 0 ≤ p.members.rowPos.toInt) :
    p.members.rowPos.toInt < rowCount.toInt ∧
      (r.Safe (source p.members.rowPos.toInt columnIndex.toUInt32.toNat) →
        (source p.members.rowPos.toInt columnIndex.toUInt32.toNat).get conv r = some r') := by
  have hinv : ProxyInv source rowCount p := (keeps_proxyInv hon hbd).answers conv calls _
    (proxyInv_createProxy hon bridge blockSize region mapped deliveries) _ hrun
  obtain ⟨hview, v, hlocal⟩ := lawful_remoteClass.read_view hread
  have hrow : ((remoteClass br other).view p').rowPos = p.members.rowPos := hview.rowPos
  have hstart : ((remoteClass br other).view p').startRowPos = p.members.startRowPos :=
    hview.startRowPos
  obtain ⟨b, ptr, hb, hunit⟩ := exists_unit_of_read hlocal
  have hcell := hunit
  rw [hrow, hstart] at hcell
  obtain ⟨hlt, x, hcell⟩ := hinv.cell_row (hview.block.symm.trans hb) hpos hcell
  refine ⟨hlt, fun hsafe => hcell.read_eq hb hunit hlocal hsafe⟩

end Lost

theorem rowNums_allocRow_le (t : Table) (st : Rust.Status) :
    (t.step .allocRow st).rowNums ≤ t.rowNums + 1 := by
  cases st <;> first | exact le_rfl | exact Nat.le_succ _

theorem rowNums_put (t : Table) (row col : ℕ) (v : Rust.Cell) (st : Rust.Status) :
    (t.step (.put row col v) st).rowNums = t.rowNums := by
  cases st <;> rfl

/-- A load of the text writes at most one row. -/
theorem bounded_textBridge : Bounded textBridge [[105, 100]] 2 := by
  intro n start b result b' s' hprep _ _ hrun _
  have h : Refines b { Table.empty with columnNums := 1 } := hprep
  have hle : ∀ {b : SharedBlock} {t : Table}, Refines b t → t.rowNums ≤ 1 →
      ∃ n : ℕ, b.rowNum = some n ∧ (n : ℤ) ≤ (2 : Int32).toInt := fun {_ t} h ht =>
    ⟨t.rowNums, h.rowNum_eq, (Int.ofNat_le.mpr ht).trans (by decide)⟩
  obtain ⟨st, b₁, halloc, h₁⟩ := h.apply .allocRow
  have hrows₁ := rowNums_allocRow_le { Table.empty with columnNums := 1 } st
  have hcall : DataShareBlockWriterImpl.call b .allocRow =
      some (DataShareBlockWriterImpl.convertErrorCode st, b₁) := by
    unfold DataShareBlockWriterImpl.call
    rw [(allocRow_eq h Nat.zero_lt_one).trans halloc]
    rfl
  unfold textBridge at hrun
  simp only [Fill.run, Option.bind_eq_bind, hcall, Option.bind_some] at hrun
  split at hrun
  · cases hrun
    exact hle h₁ hrows₁
  rename_i hcode
  obtain rfl : st = .ok := by
    by_contra hst
    rw [DataShareBlockWriterImpl.convertErrorCode, if_neg hst] at hcode
    exact hcode (by decide)
  obtain ⟨st', b₂, hput, h₂⟩ := h₁.apply (.put 0 0 (.string "7"))
  have hcall' : DataShareBlockWriterImpl.call b₁ (.writeString 0 [55, 0]) =
      some (DataShareBlockWriterImpl.convertErrorCode st', b₂) := by
    have hput' : b₁.putString 0 0 [55, 0] = some (st', b₂) := hput
    unfold DataShareBlockWriterImpl.call DataShareBlockWriterImpl.write
      DataShareBlockWriterImpl.getCurrentRowIndex
    rw [h₁.rowNum_eq]
    exact congrArg (Option.bind · _) hput'
  simp only [Fill.run, Option.bind_eq_bind, hcall', Option.bind_some] at hrun
  split at hrun <;> cases hrun <;> exact hle h₂ (rowNums_put _ _ _ _ _).le

/-- The first load is lost. The second one is answered, and the row is that of the source. -/
theorem reads_remote_lost : ∃ given p p',
    (remoteClass textBridge (0, [])).answers digitConversions [.move .goToFirstRow, .move .goToFirstRow]
      (createProxy (.new 0 4096 true) true [.answered, .lost ⟨29189, by decide⟩]) =
        some (given, p) ∧
    (remoteClass textBridge (0, [])).read digitConversions 0 (.string []) p =
      some ((eOk, .string [55]), p') ∧
    p.members.rowPos.toInt < (2 : Int32).toInt ∧
      (textRows p.members.rowPos.toInt 0).get digitConversions (.string []) = some (.string [55]) := by
  have hok : ((remoteClass textBridge (0, [])).answers digitConversions
      [.move .goToFirstRow, .move .goToFirstRow]
      (createProxy (.new 0 4096 true) true [.answered, .lost ⟨29189, by decide⟩])).any fun r =>
        decide (r.2.members.rowPos = 0) &&
          ((remoteClass textBridge (0, [])).read digitConversions 0 (.string []) r.2).any fun x =>
            decide (x.1 = (eOk, .string [55])) := by
    decide +kernel
  simp only [Option.any_eq_true, Bool.and_eq_true, decide_eq_true_iff] at hok
  obtain ⟨⟨given, p⟩, hrun, hpos, ⟨-, p'⟩, hread, rfl⟩ := hok
  have hpos : 0 ≤ p.members.rowPos.toInt := by
    have hpos : p.members.rowPos = 0 := hpos
    rw [hpos]
    decide
  obtain ⟨hlt, hvalue⟩ := reads_remote honours_textBridge bounded_textBridge 0 4096 true true _ _ hrun
    hread hpos
  exact ⟨given, p, p', hrun, hread, hlt, hvalue fun _ => rfl⟩

end ISharedResultSetProxy

end Cpp

end DataShare
