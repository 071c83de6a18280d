import DataShare.GoToRowWindow
import DataShare.RustParcel

/-!
# Arithmetic of the cursor

`go_to` adds the offset before `go_to_row` checks the row, and `on_go` adds the number of rows to
the start before it takes one off. With overflow checks both can stop the process. The functions of
this file compute with these checks, where `none` is the overflow.

A move is sound exactly if the row it asks for is an `i32` and the page it loads ends below the
last one, and a load is sound exactly if, besides, the bridge stores nothing for rows that are out
of range, which `on_go` does not check (`request_sound_iff`). The index into the block does not
overflow, and a negative one is refused there.
-/

namespace DataShare

namespace Rust

open DataShareResultSet

/-! ## Checked arithmetic -/

def checkedAdd (a b : Int32) : Option Int32 :=
  if -2 ^ 31 ≤ a.toInt + b.toInt ∧ a.toInt + b.toInt < 2 ^ 31 then some (a + b) else none

def checkedSub (a b : Int32) : Option Int32 :=
  if -2 ^ 31 ≤ a.toInt - b.toInt ∧ a.toInt - b.toInt < 2 ^ 31 then some (a - b) else none

theorem checkedAdd_eq {a b : Int32} (hlow : -2 ^ 31 ≤ a.toInt + b.toInt)
    (hhigh : a.toInt + b.toInt < 2 ^ 31) : checkedAdd a b = some (a + b) :=
  if_pos ⟨hlow, hhigh⟩

theorem toInt_add_of_fits {a b : Int32} (hlow : -2 ^ 31 ≤ a.toInt + b.toInt)
    (hhigh : a.toInt + b.toInt < 2 ^ 31) : (a + b).toInt = a.toInt + b.toInt := by
  rw [Int32.toInt_add, Int.bmod_eq_of_le (by omega) (by omega)]

theorem toInt_sub_of_fits {a b : Int32} (hlow : -2 ^ 31 ≤ a.toInt - b.toInt)
    (hhigh : a.toInt - b.toInt < 2 ^ 31) : (a - b).toInt = a.toInt - b.toInt := by
  rw [Int32.toInt_sub, Int.bmod_eq_of_le (by omega) (by omega)]

section Checked

variable {σ : Type}

namespace Checked

def onGo (br : ResultSetBridge σ) (region : Bool) (rs : DataShareResultSet σ)
    (startRowIndex targetRowIndex : Int32) :
    Option (Except DataShareError Int32 × DataShareResultSet σ) :=
  match rs.bridge with
  | none => pure (.ok (-1), rs)
  | some s => do
    match ← rs.takeBlock region with
    | .error e => pure (.error e, rs)
    | .ok b => do
      let (res, b, s) ← rs.load br b s startRowIndex targetRowIndex
      let rowCount ← b.rowNum
      match res with
      | .error e =>
        pure (.error e,
          { rs with block := some b, bridge := some s, startRowPos := -1, endRowPos := -1 })
      | .ok _ =>
        if Int32.ofNat rowCount > 0 then do
          let sum ← checkedAdd startRowIndex (Int32.ofNat rowCount)
          let endRowPos ← checkedSub sum 1
          pure (.ok endRowPos,
            { rs with block := some b, bridge := some s, startRowPos := startRowIndex, endRowPos })
        else
          pure (.ok (-1),
            { rs with block := some b, bridge := some s, startRowPos := -1, endRowPos := -1 })

def goToRow (br : ResultSetBridge σ) (region : Bool) (rs : DataShareResultSet σ)
    (position : Int32) : Option (Except DataShareError Bool × DataShareResultSet σ) :=
  if rs.isClosed then pure (.error .invalidOperation, rs)
  else if position < 0 ∨ position ≥ rs.count then pure (.ok false, rs)
  else if rs.bridge.isSome ∧ (position < rs.startRowPos ∨ position > rs.endRowPos) then do
    let target ← checkedSub rs.count 1
    match ← onGo br region rs position target with
    | (.error e, rs) => pure (.error e, rs)
    | (.ok _, rs) => pure (.ok true, { rs with rowPos := position })
  else pure (.ok true, { rs with rowPos := position })

def goTo (br : ResultSetBridge σ) (region : Bool) (rs : DataShareResultSet σ) (offset : Int32) :
    Option (Except DataShareError Bool × DataShareResultSet σ) :=
  if rs.isClosed then pure (.error .invalidOperation, rs)
  else do
    let newPos ← checkedAdd rs.rowPos offset
    goToRow br region rs newPos

def blockRowIndex (rs : DataShareResultSet σ) : Option Int32 :=
  if rs.startRowPos ≥ 0 then checkedSub rs.rowPos rs.startRowPos else pure rs.rowPos

variable {π : Type} [MsgParcel π]

/-- The rows of an `OnGo` message. -/
def readRows (data : π) : Option (Int32 × Int32) :=
  match (MsgParcel.read .i32 : Reader π Int32).run data with
  | (none, _) => none
  | (some oldRow, data) =>
    match (MsgParcel.read .i32 : Reader π Int32).run data with
    | (none, _) => none
    | (some newRow, _) => some (oldRow, newRow)

/-- `handle_on_go`, with what it writes to the reply. -/
def handleOnGo (br : ResultSetBridge σ) (region : Bool) (rs : DataShareResultSet σ) (data : π) :
    Option (Int32 × DataShareResultSet σ) :=
  match readRows data with
  | none => pure (-1, rs)
  | some (oldRow, newRow) => do
    match ← onGo br region rs oldRow newRow with
    | (.ok cachedIndex, rs) => pure (cachedIndex, rs)
    | (.error _, rs) => pure (-1, rs)

end Checked

end Checked

/-! ## Requests -/

/-- A call for a row, by the caller or in a message. -/
inductive RowRequest (π : Type) where
  | goToRow (position : Int32)
  | goTo (offset : Int32)
  | onGo (startRowIndex targetRowIndex : Int32)
  | handleOnGo (data : π)

section Requests

variable {σ π : Type} [MsgParcel π]

/-- A request with whether it reports success : `Ok(true)`, or an index other than -1. -/
def RowRequest.run (br : ResultSetBridge σ) (region : Bool) (rs : DataShareResultSet σ) :
    RowRequest π → Option (Bool × DataShareResultSet σ)
  | .goToRow position =>
    (Checked.goToRow br region rs position).map fun r => (r.1.toOption.getD false, r.2)
  | .goTo offset => (Checked.goTo br region rs offset).map fun r => (r.1.toOption.getD false, r.2)
  | .onGo start target =>
    (Checked.onGo br region rs start target).map fun r => (r.1.toOption.getD (-1) != -1, r.2)
  | .handleOnGo data => (Checked.handleOnGo br region rs data).map fun r => (r.1 != -1, r.2)

/-- The result set has the row. -/
def HasRow (rs : DataShareResultSet σ) (row : ℤ) : Prop :=
  0 ≤ row ∧ row < rs.count.toInt

/-- The request asks for a row that there is not, or for none that can be read. -/
def RowRequest.OutOfRange (rs : DataShareResultSet σ) : RowRequest π → Prop
  | .goToRow position => ¬HasRow rs position.toInt
  | .goTo offset => ¬HasRow rs (rs.rowPos.toInt + offset.toInt)
  | .onGo start target => ¬(HasRow rs start.toInt ∧ HasRow rs target.toInt)
  | .handleOnGo data => ∀ rows, Checked.readRows data = some rows →
    ¬(HasRow rs rows.1.toInt ∧ HasRow rs rows.2.toInt)

/-- A load from `start` that succeeds stores rows below the last row number. -/
def StaysBelow (br : ResultSetBridge σ) (region : Bool) (rs : DataShareResultSet σ)
    (start target : Int32) : Prop :=
  ∀ b' s' n, Loads br region rs start target (.ok ()) b' s' → b'.rowNum = some n → 0 < n →
    start.toInt + n < 2 ^ 31

/-- A move to `position` makes no load that goes beyond. -/
def MovesBelow (br : ResultSetBridge σ) (region : Bool) (rs : DataShareResultSet σ)
    (position : Int32) : Prop :=
  rs.isClosed = false → ¬(position < 0 ∨ position ≥ rs.count) →
    position < rs.startRowPos ∨ position > rs.endRowPos →
    StaysBelow br region rs position (rs.count - 1)

/-- A load stays below, and the bridge stores no rows for a request that is out of range (but for
a page that ends at row -1, which reads as a failure). -/
def LoadsInRange (br : ResultSetBridge σ) (region : Bool) (rs : DataShareResultSet σ)
    (start target : Int32) : Prop :=
  StaysBelow br region rs start target ∧ (¬(HasRow rs start.toInt ∧ HasRow rs target.toInt) →
    ∀ b' s' n, Loads br region rs start target (.ok ()) b' s' → b'.rowNum = some n → 0 < n →
      start.toInt + n = 0)

/-- The condition on a request. -/
def RowRequest.Within (br : ResultSetBridge σ) (region : Bool) (rs : DataShareResultSet σ) :
    RowRequest π → Prop
  | .goToRow position => MovesBelow br region rs position
  | .goTo offset => rs.isClosed = false →
    (-2 ^ 31 ≤ rs.rowPos.toInt + offset.toInt ∧ rs.rowPos.toInt + offset.toInt < 2 ^ 31) ∧
      MovesBelow br region rs (rs.rowPos + offset)
  | .onGo start target => LoadsInRange br region rs start target
  | .handleOnGo data => ∀ rows, Checked.readRows data = some rows →
    LoadsInRange br region rs rows.1 rows.2

/-- The row index into the block does not overflow, and a negative one is refused. -/
def IndexSafe (rs : DataShareResultSet σ) : Prop :=
  ∃ index, Checked.blockRowIndex rs = some index ∧ ∀ b, rs.block = some b → index.toInt < 0 →
    ∀ column, b.getCellValue index.toUInt32.toNat column = some (.error .invalidColumnIndex)

variable {br : ResultSetBridge σ} {rs rs₀ : DataShareResultSet σ} {region : Bool}
  {start target position : Int32}

theorem PageInv.indexSafe (h : PageInv rs) : IndexSafe rs := by
  have hge := h.rowPos_ge
  have hlt := rs.rowPos.toInt_lt
  have hrefused {index : Int32} {b : SharedBlock} (hb : rs.block = some b) (hneg : index.toInt < 0)
      (column : ℕ) :
      b.getCellValue index.toUInt32.toNat column = some (.error .invalidColumnIndex) := by
    obtain ⟨t, ht⟩ := h.refines b hb
    refine ht.getCellValue_eq_error fun hcell => ?_
    have hnonneg := toInt_eq_toNat (hcell.1.trans ht.rows_lt)
    omega
  unfold IndexSafe Checked.blockRowIndex
  split
  · next hstart =>
    rw [ge_iff_le, Int32.le_iff_toInt_le, Int32.toInt_zero] at hstart
    have hstartLt := rs.startRowPos.toInt_lt
    exact ⟨_, if_pos ⟨by omega, by omega⟩, fun b hb hneg column => hrefused hb hneg column⟩
  · exact ⟨_, rfl, fun b hb hneg column => hrefused hb hneg column⟩

/-! ## Loads with checks -/

/-- The end of a page that stays below. -/
theorem checkedEnd_eq {n : ℕ} (hn : n < 2 ^ 31) (hpos : 0 < n) (h : start.toInt + n < 2 ^ 31) :
    ((checkedAdd start (Int32.ofNat n)).bind fun sum => checkedSub sum 1) =
        some (start + Int32.ofNat n - 1) ∧
      (start + Int32.ofNat n - 1).toInt = start.toInt + n - 1 := by
  have hge := start.le_toInt
  have hcount : (Int32.ofNat n).toInt = n := Int32.toInt_ofNat_of_lt hn
  have hsum : (start + Int32.ofNat n).toInt = start.toInt + n := by
    rw [toInt_add_of_fits (by omega) (by omega), hcount]
  have hone : (1 : Int32).toInt = 1 := rfl
  constructor
  · rw [checkedAdd_eq (by omega) (by omega), Option.bind_some, checkedSub,
      if_pos ⟨by omega, by omega⟩]
  · rw [toInt_sub_of_fits (by omega) (by omega), hsum, hone]

/-- The checks of a load change nothing if it stays below, and stop it if it does not. -/
theorem checked_onGo_cases (h : PageInv rs) (br : ResultSetBridge σ) (region : Bool)
    (start target : Int32) :
    (StaysBelow br region rs start target ∧
      Checked.onGo br region rs start target = rs.onGo br region start target) ∨
    (¬StaysBelow br region rs start target ∧ Checked.onGo br region rs start target = none) := by
  unfold Checked.onGo DataShareResultSet.onGo
  cases hbridge : rs.bridge with
  | none =>
    refine .inl ⟨?_, rfl⟩
    rintro b' s' n ⟨s, b, hs, -, -⟩
    exact absurd (hbridge.symm.trans hs) (by simp)
  | some s =>
    obtain ⟨taken, htake, hblock⟩ := takeBlock_spec rs region h.refines
    rcases taken with e | b
    · refine .inl ⟨?_, by simp only [htake, Option.bind_eq_bind, Option.bind_some]⟩
      rintro b' s' n ⟨s, b, -, hb, -⟩
      exact absurd (htake.symm.trans hb) (by simp)
    obtain ⟨t, ht⟩ := hblock b rfl
    obtain ⟨res, b', s', t', hload, ht', -⟩ := load_runs br rs ht s start target
    have hloads : Loads br region rs start target res b' s' := ⟨s, b, hbridge, htake, hload⟩
    simp only [Option.bind_eq_bind, Option.bind_some, htake, hload, ht'.rowNum_eq]
    rcases res with e | _
    · refine .inl ⟨fun b'' s'' n hloads' => ?_, rfl⟩
      exact absurd (hloads.unique hloads').1 (by simp)
    have hbelow_iff : StaysBelow br region rs start target ↔
        (0 < t'.rowNums → start.toInt + t'.rowNums < 2 ^ 31) := by
      constructor
      · exact fun hbelow => hbelow b' s' _ hloads ht'.rowNum_eq
      · intro hfits b'' s'' n hloads' hn
        obtain ⟨-, rfl, rfl⟩ := hloads.unique hloads'
        obtain rfl := Option.some_inj.mp (ht'.rowNum_eq.symm.trans hn)
        exact hfits
    have hcount : (Int32.ofNat t'.rowNums).toInt = t'.rowNums := Int32.toInt_ofNat_of_lt ht'.rows_lt
    have hpos : Int32.ofNat t'.rowNums > 0 ↔ 0 < t'.rowNums := by
      rw [gt_iff_lt, Int32.lt_iff_toInt_lt, hcount, Int32.toInt_zero, Int.natCast_pos]
    rw [hbelow_iff]
    by_cases hrows : Int32.ofNat t'.rowNums > 0
    · simp only [if_pos hrows, imp_iff_right (hpos.mp hrows)]
      by_cases hfits : start.toInt + t'.rowNums < 2 ^ 31
      · have hend := (checkedEnd_eq ht'.rows_lt (hpos.mp hrows) hfits).1
        obtain ⟨sum, hsum, hsub⟩ := Option.bind_eq_some_iff.mp hend
        refine .inl ⟨hfits, ?_⟩
        rw [hsum, Option.bind_some, hsub]
        rfl
      · refine .inr ⟨hfits, ?_⟩
        have hnone : checkedAdd start (Int32.ofNat t'.rowNums) = none :=
          if_neg fun hin => hfits (by rw [← hcount]; exact hin.2)
        rw [hnone]
        rfl
    · exact .inl ⟨fun h0 => absurd (hpos.mpr h0) hrows, by rw [if_neg hrows, if_neg hrows]⟩

theorem le_toInt_count {rs : DataShareResultSet σ} (h : ¬(position < 0 ∨ position ≥ rs.count)) :
    1 ≤ rs.count.toInt := by
  have hpos := le_toInt_of_inRange h
  have hlt := (not_or.mp h).2
  rw [ge_iff_le, Int32.le_iff_toInt_le, not_le] at hlt
  omega

theorem checked_goToRow_cases (h : PageInv rs) (br : ResultSetBridge σ) (region : Bool)
    (position : Int32) :
    (MovesBelow br region rs position ∧
      Checked.goToRow br region rs position = rs.goToRow br region position) ∨
    (¬MovesBelow br region rs position ∧ Checked.goToRow br region rs position = none) := by
  unfold Checked.goToRow DataShareResultSet.goToRow MovesBelow
  by_cases hclosed : rs.isClosed = true
  · refine .inl ⟨fun hopen => absurd (hclosed.symm.trans hopen) (by simp), ?_⟩
    rw [if_pos hclosed, if_pos hclosed]
  rw [if_neg hclosed, if_neg hclosed, imp_iff_right (by simpa using hclosed : rs.isClosed = false)]
  by_cases hrange : position < 0 ∨ position ≥ rs.count
  · exact .inl ⟨fun hin => absurd hrange hin, by rw [if_pos hrange, if_pos hrange]⟩
  rw [if_neg hrange, if_neg hrange, imp_iff_right hrange]
  by_cases hpage : position < rs.startRowPos ∨ position > rs.endRowPos
  · have hboth : rs.bridge.isSome = true ∧ (position < rs.startRowPos ∨ position > rs.endRowPos) :=
      ⟨h.bridge (by simpa using hclosed), hpage⟩
    have hcount := le_toInt_count hrange
    have hmax := rs.count.toInt_lt
    have hone : (1 : Int32).toInt = 1 := rfl
    have htarget : checkedSub rs.count 1 = some (rs.count - 1) := if_pos ⟨by omega, by omega⟩
    rw [if_pos hboth, if_pos hboth, imp_iff_right hpage, htarget]
    simp only [Option.bind_eq_bind, Option.bind_some]
    rcases checked_onGo_cases h br region position (rs.count - 1) with ⟨hbelow, hgo⟩ | ⟨hbelow, hgo⟩
    · refine .inl ⟨hbelow, ?_⟩
      rcases hloaded : rs.onGo br region position (rs.count - 1) with _ | ⟨e | x, rs'⟩
      · simp only [hgo, hloaded, Option.bind_none]
      · simp only [hgo, hloaded, Option.bind_some]
      · simp only [hgo, hloaded, Option.bind_some]
    · exact .inr ⟨hbelow, by rw [hgo]; rfl⟩
  · have hnot : ¬(rs.bridge.isSome = true ∧ (position < rs.startRowPos ∨ position > rs.endRowPos)) :=
      fun hboth => hpage hboth.2
    exact .inl ⟨fun hout => absurd hout hpage, by rw [if_neg hnot, if_neg hnot]⟩

/-- A load reports what it should exactly if it stays below, and the bridge stores nothing for rows
out of range. -/
theorem onGo_sound_iff (h : PageInv rs) (br : ResultSetBridge σ) (region : Bool)
    (start target : Int32) :
    (∃ ok rs', (Checked.onGo br region rs start target).map
        (fun r => (r.1.toOption.getD (-1) != -1, r.2)) = some (ok, rs') ∧
      (¬(HasRow rs start.toInt ∧ HasRow rs target.toInt) → ok = false)) ↔
    LoadsInRange br region rs start target := by
  unfold LoadsInRange
  rcases checked_onGo_cases h br region start target with ⟨hbelow, hgo⟩ | ⟨hbelow, hgo⟩
  · rw [hgo, and_iff_right hbelow]
    rcases onGo_cases h br region start target with ⟨hnone, hrun⟩ | ⟨e, htake, hrun⟩ |
      ⟨loaded, b', s', t', hloads, ht', hcase⟩
    · rw [hrun]
      refine iff_of_true ⟨_, _, rfl, fun _ => rfl⟩ ?_
      rintro - b' s' n ⟨s, b, hs, -, -⟩
      exact absurd (hnone.symm.trans hs) (by simp)
    · rw [hrun]
      refine iff_of_true ⟨_, _, rfl, fun _ => rfl⟩ ?_
      rintro - b' s' n ⟨s, b, -, hb, -⟩
      exact absurd (htake.symm.trans hb) (by simp)
    rcases hcase with ⟨e, rfl, hrun⟩ | ⟨rfl, hzero, hrun⟩ | ⟨rfl, hrows, -, hrun⟩
    · rw [hrun]
      refine iff_of_true ⟨_, _, rfl, fun _ => rfl⟩ fun _ b'' s'' n hloads' => ?_
      exact absurd (hloads.unique hloads').1 (by simp)
    · rw [hrun]
      refine iff_of_true ⟨_, _, rfl, fun _ => rfl⟩ fun _ b'' s'' n hloads' hn hpos => ?_
      obtain ⟨-, rfl, rfl⟩ := hloads.unique hloads'
      obtain rfl := Option.some_inj.mp (ht'.rowNum_eq.symm.trans hn)
      omega
    · have hfits := hbelow b' s' _ hloads ht'.rowNum_eq hrows
      have hend := (checkedEnd_eq ht'.rows_lt hrows hfits).2
      have hminus : start + Int32.ofNat t'.rowNums - 1 = -1 ↔ start.toInt + t'.rowNums = 0 := by
        rw [← Int32.toInt_inj, hend]
        show start.toInt + t'.rowNums - 1 = -1 ↔ _
        omega
      rw [hrun]
      constructor
      · rintro ⟨ok, rs', hok, hfalse⟩ hout b'' s'' n hloads' hn -
        obtain ⟨-, rfl, rfl⟩ := hloads.unique hloads'
        obtain rfl := Option.some_inj.mp (ht'.rowNum_eq.symm.trans hn)
        obtain ⟨rfl, rfl⟩ := Prod.mk.inj (Option.some_inj.mp hok)
        exact hminus.mp (by simpa [Except.toOption] using hfalse hout)
      · intro hstored
        refine ⟨_, _, rfl, fun hout => ?_⟩
        have hzero := hstored hout b' s' _ hloads ht'.rowNum_eq hrows
        simpa [Except.toOption] using hminus.mpr hzero
  · rw [hgo]
    refine iff_of_false ?_ fun hin => hbelow hin.1
    rintro ⟨ok, rs', hnone, -⟩
    exact absurd hnone (by simp)

/-- An `OnGo` message is the load it asks for. -/
theorem handleOnGo_map (br : ResultSetBridge σ) (region : Bool) (rs : DataShareResultSet σ) (data : π) :
    (Checked.handleOnGo br region rs data).map (fun r => (r.1 != -1, r.2)) =
      (Checked.readRows data).elim (some (false, rs)) fun rows =>
        (Checked.onGo br region rs rows.1 rows.2).map
          fun r => (r.1.toOption.getD (-1) != -1, r.2) := by
  unfold Checked.handleOnGo
  cases Checked.readRows data with
  | none => rfl
  | some rows =>
    show Option.map _ ((Checked.onGo br region rs rows.1 rows.2).bind _) = Option.map _ _
    rcases Checked.onGo br region rs rows.1 rows.2 with _ | ⟨e | x, rs'⟩ <;> rfl

/-- A move makes no fault of its own, and fails for a row that there is not. -/
theorem goToRow_runs (h : PageInv rs) (br : ResultSetBridge σ) (region : Bool) (position : Int32) :
    ∃ res rs', rs.goToRow br region position = some (res, rs') ∧
      (¬HasRow rs position.toInt → res.toOption.getD false = false) := by
  have hrow : HasRow rs position.toInt ↔ ¬(position < 0 ∨ position ≥ rs.count) := by
    rw [Int32.lt_iff_toInt_lt, ge_iff_le, Int32.le_iff_toInt_le, Int32.toInt_zero]
    unfold HasRow
    omega
  unfold DataShareResultSet.goToRow
  split
  · exact ⟨_, _, rfl, fun _ => rfl⟩
  split
  · exact ⟨_, _, rfl, fun _ => rfl⟩
  next hrange =>
    have hin := hrow.mpr hrange
    split
    · rcases onGo_cases h br region position (rs.count - 1) with ⟨-, hrun⟩ | ⟨e, -, hrun⟩ |
        ⟨loaded, b', s', t', -, -, ⟨e, -, hrun⟩ | ⟨-, -, hrun⟩ | ⟨-, -, -, hrun⟩⟩
      all_goals
        rw [hrun]
        exact ⟨_, _, rfl, fun hout => absurd hin hout⟩
    · exact ⟨_, _, rfl, fun hout => absurd hin hout⟩

theorem goToRow_sound_iff (h : PageInv rs) (br : ResultSetBridge σ) (region : Bool)
    (position : Int32) :
    (∃ ok rs', (Checked.goToRow br region rs position).map
        (fun r => (r.1.toOption.getD false, r.2)) = some (ok, rs') ∧
      (¬HasRow rs position.toInt → ok = false)) ↔ MovesBelow br region rs position := by
  rcases checked_goToRow_cases h br region position with ⟨hbelow, hgo⟩ | ⟨hbelow, hgo⟩
  · obtain ⟨res, rs', hrun, hfails⟩ := goToRow_runs h br region position
    rw [hgo, hrun]
    exact iff_of_true ⟨_, _, rfl, hfails⟩ hbelow
  · rw [hgo]
    refine iff_of_false ?_ hbelow
    rintro ⟨ok, rs', hnone, -⟩
    exact absurd hnone (by simp)

theorem goTo_sound_iff (h : PageInv rs) (br : ResultSetBridge σ) (region : Bool) (offset : Int32) :
    (∃ ok rs', (Checked.goTo br region rs offset).map
        (fun r => (r.1.toOption.getD false, r.2)) = some (ok, rs') ∧
      (¬HasRow rs (rs.rowPos.toInt + offset.toInt) → ok = false)) ↔
    (rs.isClosed = false →
      (-2 ^ 31 ≤ rs.rowPos.toInt + offset.toInt ∧ rs.rowPos.toInt + offset.toInt < 2 ^ 31) ∧
        MovesBelow br region rs (rs.rowPos + offset)) := by
  unfold Checked.goTo
  by_cases hclosed : rs.isClosed = true
  · rw [if_pos hclosed]
    exact iff_of_true ⟨_, _, rfl, fun _ => rfl⟩ fun hopen => absurd (hclosed.symm.trans hopen) (by simp)
  rw [if_neg hclosed, imp_iff_right (by simpa using hclosed : rs.isClosed = false)]
  by_cases hfits : -2 ^ 31 ≤ rs.rowPos.toInt + offset.toInt ∧ rs.rowPos.toInt + offset.toInt < 2 ^ 31
  · rw [and_iff_right hfits, checkedAdd_eq hfits.1 hfits.2, ← goToRow_sound_iff h,
      toInt_add_of_fits hfits.1 hfits.2]
    rfl
  · have hnone : checkedAdd rs.rowPos offset = none := if_neg hfits
    rw [hnone]
    refine iff_of_false ?_ fun hin => hfits hin.1
    rintro ⟨ok, rs', hrun, -⟩
    exact absurd hrun (by simp)

/-- In every state the calls reach, a request is computed without overflow and fails if it is out
of range, exactly under its condition. -/
theorem request_sound_iff (hinit : Initial rs₀) (hreach : Visited br rs₀ rs) (region : Bool)
    (request : RowRequest π) :
    (IndexSafe rs ∧ ∃ ok rs', request.run br region rs = some (ok, rs') ∧
      (request.OutOfRange rs → ok = false)) ↔ request.Within br region rs := by
  have h := hreach.pageInv hinit
  rw [and_iff_right h.indexSafe]
  cases request with
  | goToRow position => exact goToRow_sound_iff h br region position
  | goTo offset => exact goTo_sound_iff h br region offset
  | onGo start target => exact onGo_sound_iff h br region start target
  | handleOnGo data =>
    unfold RowRequest.run RowRequest.OutOfRange RowRequest.Within
    dsimp only
    rw [handleOnGo_map]
    cases hread : Checked.readRows data with
    | none =>
      exact iff_of_true ⟨_, _, rfl, fun _ => rfl⟩ fun rows hrows => absurd hrows (by simp)
    | some rows =>
      simp only [Option.some_inj, forall_eq', Option.elim_some]
      exact onGo_sound_iff h br region rows.1 rows.2

theorem request_sound_before_first : IndexSafe failingResultSet ∧
    ∃ ok rs', (RowRequest.goTo (-1) : RowRequest FieldQueue).run oneRowBridge true failingResultSet =
      some (ok, rs') ∧
      ((RowRequest.goTo (-1) : RowRequest FieldQueue).OutOfRange failingResultSet → ok = false) := by
  have hinit : Initial failingResultSet := .bridge (.ok ["id"]) (.ok 2) 0
  refine (request_sound_iff hinit (.refl : Visited oneRowBridge _ failingResultSet) true _).mpr ?_
  exact fun _ => ⟨by decide, fun _ hrange => absurd (by decide) hrange⟩

/-- At row 1 of two, a move by the greatest `i32` overflows. -/
theorem goTo_overflows : Initial failingResultSet ∧
    ∃ rs, Visited oneRowBridge failingResultSet rs ∧ ∀ ok rs',
      (RowRequest.goTo 2147483647 : RowRequest FieldQueue).run oneRowBridge true rs ≠ some (ok, rs') := by
  refine ⟨.bridge (.ok ["id"]) (.ok 2) 0, ?_⟩
  have hok : (Call.run oneRowBridge true failingResultSet (.goToRow 1)).any fun r =>
      r.2.isClosed == false && r.2.rowPos == 1 := by decide +kernel
  obtain ⟨⟨res, rs⟩, hrun, hres⟩ := (Option.any_eq_true _ _).mp hok
  rw [Bool.and_eq_true, beq_iff_eq, beq_iff_eq] at hres
  obtain ⟨hopen, hpos⟩ := hres
  dsimp only at hopen hpos
  refine ⟨rs, Visited.refl.call hrun, fun ok rs' => ?_⟩
  have hnone : checkedAdd rs.rowPos 2147483647 = none := by
    rw [hpos]
    decide
  unfold RowRequest.run Checked.goTo
  dsimp only
  rw [if_neg (by simp [hopen]), hnone]
  exact (Option.some_ne_none _).symm

end Requests

end Rust

end DataShare
