import DataShare.CppResultSetReads
import DataShare.ResultSetSoundness

/-!
# The Rust cursor beside the C++ cursor

The same moves on a Rust and on a C++ result set over `n` rows, whose page loads succeed. The
answers of `is_started` never agree at one position : C++ negates what its comment says
(`cursors_differ`). Success and position agree while the moves stay in the rows, or
before the first one (`Event.Kept`). A move past an end takes the C++ cursor there and leaves
the Rust cursor where it is.
-/

namespace DataShare

open Cpp (Move)

/-- The move, by the call of the Rust result set. -/
def Rust.DataShareResultSet.move {σ : Type} (br : Rust.ResultSetBridge σ) (region : Bool)
    (rs : Rust.DataShareResultSet σ) :
    Move → Option (Except Rust.DataShareError Bool × Rust.DataShareResultSet σ)
  | .goToRow position => rs.goToRow br region position
  | .goTo offset => rs.goTo br region offset
  | .goToFirstRow => rs.goToFirstRow br region
  | .goToLastRow => rs.goToLastRow br region
  | .goToNextRow => rs.goToNextRow br region
  | .goToPreviousRow => rs.goToPreviousRow br region

structure Cursors (σ τ : Type) where
  rust : Rust.DataShareResultSet σ
  cpp : Cpp.DataShareResultSet τ

/-- A move on both, with the state before it and what both return. -/
structure Event (σ τ : Type) where
  before : Cursors σ τ
  move : Move
  ok : Bool
  code : Int32

section Runs

variable {σ τ : Type}

/-- The same position, and the same answers. -/
structure Cursors.Agree (cb : Cpp.ResultSetBridge τ) (s : Cursors σ τ) : Prop where
  rowPos : s.rust.rowPos = s.cpp.rowPos
  isStarted : s.rust.isStarted.toOption = s.cpp.isStarted.toOption
  isEnded : s.rust.isEnded.toOption = (s.cpp.isEnded cb).toOption
  isAtFirstRow : s.rust.isAtFirstRow.toOption = s.cpp.isAtFirstRow.toOption
  isAtLastRow : s.rust.isAtLastRow.toOption = (s.cpp.isAtLastRow cb).toOption

/-- The event happens, and no page load fails in it. -/
structure Event.Happens (rb : Rust.ResultSetBridge σ) (region : Bool)
    (cb : Cpp.ResultSetBridge τ) (e : Event σ τ) (after : Cursors σ τ) : Prop where
  rust : e.before.rust.move rb region e.move = some (.ok e.ok, after.rust)
  cpp : e.move.run cb e.before.cpp = some (e.code, after.cpp)
  loaded : ∀ position, e.move.target cb e.before.cpp = some position →
    Cpp.Pages cb e.before.cpp position → ∃ endPos rs,
      e.before.cpp.onGo cb position ((e.before.cpp.getRowCount cb).2 - 1) =
        some (true, endPos, rs)

inductive Runs (rb : Rust.ResultSetBridge σ) (region : Bool) (cb : Cpp.ResultSetBridge τ)
    (s₀ : Cursors σ τ) : List (Event σ τ) → Cursors σ τ → Prop
  | start : Runs rb region cb s₀ [] s₀
  | move {events : List (Event σ τ)} {e : Event σ τ} {after : Cursors σ τ}
      (h : Runs rb region cb s₀ events e.before) (he : e.Happens rb region cb after) :
      Runs rb region cb s₀ (events ++ [e]) after

/-- The move goes to a row, or stays before the first one. -/
def Event.Kept (cb : Cpp.ResultSetBridge τ) (n : Int32) (e : Event σ τ) : Prop :=
  ∃ position, e.move.target cb e.before.cpp = some position ∧
    ((0 ≤ position ∧ position < n) ∨ (position < 0 ∧ e.before.cpp.rowPos = Cpp.initPos))

variable {rb : Rust.ResultSetBridge σ} {region : Bool} {cb : Cpp.ResultSetBridge τ} {n : Int32}
  {s s' : Cursors σ τ} {e : Event σ τ}

theorem not_agree (cb : Cpp.ResultSetBridge τ) (s : Cursors σ τ) : ¬s.Agree cb := by
  intro h
  have hstarted := h.isStarted
  unfold Rust.DataShareResultSet.isStarted Cpp.DataShareResultSet.isStarted at hstarted
  rw [h.rowPos] at hstarted
  split at hstarted
  · cases hstarted
  · have hbool : (s.cpp.rowPos == Rust.initPos) = (s.cpp.rowPos != Cpp.initPos) :=
      Option.some.inj hstarted
    exact absurd hbool.symm (Bool.not_ne_self _)

/-! ## One move -/

/-- There is a block, or nothing has been read yet. -/
def HasBlock (rs : Cpp.DataShareResultSet τ) : Prop :=
  rs.sharedBlock.isSome ∨
    rs.startRowPos = -1 ∧ rs.endRowPos = -1 ∧ rs.rowPos = Cpp.initPos

/-- Both stand at one row, over `n` rows. -/
structure Cursors.Together (n : Int32) (s : Cursors σ τ) : Prop where
  isOpen : s.rust.isClosed = false
  count : s.rust.count = n
  bridge : s.cpp.bridge.isSome
  rowPos : s.rust.rowPos = s.cpp.rowPos
  block : HasBlock s.cpp

theorem addInt_eq {a b c : Int32} (h : Cpp.addInt a b = some c) : a + b = c := by
  unfold Cpp.addInt at h
  split at h
  · exact Option.some.inj h
  · cases h

/-- A load changes neither the row count nor whether the result set is closed. -/
theorem onGo_keeps {rs rs' : Rust.DataShareResultSet σ} {start target : Int32}
    {res : Except Rust.DataShareError Int32}
    (h : rs.onGo rb region start target = some (res, rs')) :
    rs'.isClosed = rs.isClosed ∧ rs'.count = rs.count := by
  unfold Rust.DataShareResultSet.onGo at h
  split at h
  · cases h
    exact ⟨rfl, rfl⟩
  obtain ⟨taken, -, htaken⟩ := Option.bind_eq_some_iff.mp h
  split at htaken
  · cases htaken
    exact ⟨rfl, rfl⟩
  obtain ⟨⟨res', b, s⟩, -, hload⟩ := Option.bind_eq_some_iff.mp htaken
  obtain ⟨rowCount, -, hrows⟩ := Option.bind_eq_some_iff.mp hload
  split at hrows
  · cases hrows
    exact ⟨rfl, rfl⟩
  · split at hrows
    · cases hrows
      exact ⟨rfl, rfl⟩
    · cases hrows
      exact ⟨rfl, rfl⟩

/-- What `go_to_row` returns without an error. -/
theorem goToRow_ok {rs rs' : Rust.DataShareResultSet σ} {position : Int32} {ok : Bool}
    (h : rs.goToRow rb region position = some (.ok ok, rs')) :
    rs'.isClosed = rs.isClosed ∧ rs'.count = rs.count ∧
      (if position < 0 ∨ position ≥ rs.count then ok = false ∧ rs'.rowPos = rs.rowPos
        else ok = true ∧ rs'.rowPos = position) := by
  unfold Rust.DataShareResultSet.goToRow at h
  split at h
  · cases h
  split at h
  · rename_i hrange
    cases h
    rw [if_pos hrange]
    exact ⟨rfl, rfl, rfl, rfl⟩
  rename_i hrange
  rw [if_neg hrange]
  split at h
  · obtain ⟨⟨res, rs₁⟩, hgo, hres⟩ := Option.bind_eq_some_iff.mp h
    obtain ⟨hclosed, hcount⟩ := onGo_keeps hgo
    rcases res with err | x
    · cases hres
    · cases hres
      exact ⟨hclosed, hcount, rfl, rfl⟩
  · cases h
    exact ⟨rfl, rfl, rfl, rfl⟩

theorem onGo_true {rs rs' : Cpp.DataShareResultSet τ} {start target endPos : Int32}
    (h : rs.onGo cb start target = some (true, endPos, rs')) :
    rs.sharedBlock.isSome ∧ rs'.bridge.isSome ∧ rs'.sharedBlock.isSome := by
  unfold Cpp.DataShareResultSet.onGo at h
  split at h
  · rename_i hblock hbridge
    obtain ⟨⟨result, b, s⟩, -, hres⟩ := Option.bind_eq_some_iff.mp h
    obtain ⟨-, htail⟩ := Prod.mk.inj (Option.some.inj hres)
    rw [← (Prod.mk.inj htail).2, hblock]
    exact ⟨rfl, rfl, rfl⟩
  · have hfalse := (Prod.mk.inj (Option.some.inj h)).1
    exact absurd hfalse Bool.false_ne_true

/-- What `GoToRow` does in a row. Without a block the row would have to be loaded, which
fails. -/
theorem goToRow_in_rows {rs rs' : Cpp.DataShareResultSet τ}
    (hcount : (rs.getRowCount cb).2 = n) (hbridge : rs.bridge.isSome) (hblock : HasBlock rs)
    {position code : Int32} (hge : 0 ≤ position) (hlt : position < n)
    (hloaded : Cpp.Pages cb rs position → ∃ endPos rs₁,
      rs.onGo cb position (n - 1) = some (true, endPos, rs₁))
    (h : rs.goToRow cb position = some (code, rs')) :
    rs'.bridge.isSome ∧ HasBlock rs' ∧ code = Cpp.eOk ∧ rs'.rowPos = position := by
  have hsome : rs.sharedBlock.isSome := by
    rcases hblock with hsome | ⟨-, hend, hpos⟩
    · exact hsome
    have hpages : Cpp.Pages cb rs position := by
      refine ⟨⟨hge, by rwa [hcount]⟩, fun heq => ?_, .inl ?_⟩
      · rw [heq, hpos] at hge
        exact absurd hge (by decide)
      · rw [hend]
        exact Int32.lt_of_lt_of_le (by decide) hge
    obtain ⟨endPos, rs₁, honGo⟩ := hloaded hpages
    exact (onGo_true honGo).1
  obtain ⟨b, hb⟩ := Option.isSome_iff_exists.mp hsome
  unfold Cpp.DataShareResultSet.goToRow at h
  dsimp only at h
  rw [hcount, if_neg (by rw [hb]; exact Bool.false_ne_true), if_neg (Int32.not_le.mpr hlt),
    if_neg (Int32.not_lt.mpr hge)] at h
  by_cases hsame : position = rs.rowPos
  · rw [if_pos hsame] at h
    cases h
    exact ⟨hbridge, .inl hsome, rfl, hsame.symm⟩
  rw [if_neg hsame] at h
  by_cases hpage : position > rs.endRowPos ∨ position < rs.startRowPos
  · obtain ⟨endPos, rs₁, honGo⟩ := hloaded ⟨⟨hge, by rwa [hcount]⟩, hsame, hpage⟩
    obtain ⟨-, hbridge₁, hblock₁⟩ := onGo_true honGo
    rw [if_pos hpage, honGo] at h
    cases h
    exact ⟨hbridge₁, .inl hblock₁, rfl, rfl⟩
  · rw [if_neg hpage] at h
    cases h
    exact ⟨hbridge, .inl hsome, rfl, rfl⟩

/-- What `GoToRow` does before the first row. -/
theorem goToRow_before_first (hn : 0 ≤ n) {rs rs' : Cpp.DataShareResultSet τ}
    (hcount : (rs.getRowCount cb).2 = n) (hbridge : rs.bridge.isSome) (hblock : HasBlock rs)
    {position code : Int32} (hneg : position < 0) (hpos : rs.rowPos = Cpp.initPos)
    (h : rs.goToRow cb position = some (code, rs')) :
    rs'.bridge.isSome ∧ HasBlock rs' ∧ code = Cpp.eError ∧ rs'.rowPos = Cpp.initPos := by
  have hlt : ¬position ≥ n := Int32.not_le.mpr (Int32.lt_of_lt_of_le hneg hn)
  unfold Cpp.DataShareResultSet.goToRow at h
  dsimp only at h
  rw [hcount, if_neg hlt, if_pos hneg] at h
  split at h
  · cases h
    exact ⟨hbridge, hblock, rfl, hpos⟩
  · cases h
    exact ⟨hbridge, hblock.imp_right fun hw => ⟨hw.1, hw.2.1, rfl⟩, rfl, rfl⟩

theorem Cursors.Together.getRowCount (h : s.Together n)
    (hcb : ∀ b, cb.getRowCount b = (Cpp.eOk, n)) : s.cpp.getRowCount cb = (Cpp.eOk, n) := by
  obtain ⟨b, hb⟩ := Option.isSome_iff_exists.mp h.bridge
  unfold Cpp.DataShareResultSet.getRowCount
  rw [hb]
  exact hcb b

/-- A C++ move is a `GoToRow` of its target. -/
theorem Cursors.Together.cpp_run (h : s.Together n) (hcb : ∀ b, cb.getRowCount b = (Cpp.eOk, n))
    {m : Move} {position : Int32} (htarget : m.target cb s.cpp = some position) :
    m.run cb s.cpp = s.cpp.goToRow cb position := by
  cases m with
  | goToRow target =>
    obtain rfl := Option.some.inj htarget
    rfl
  | goToFirstRow =>
    obtain rfl := Option.some.inj htarget
    rfl
  | goToLastRow =>
    have hlast : Cpp.addInt (s.cpp.getRowCount cb).2 (-1) = some position := htarget
    show s.cpp.goToLastRow cb = _
    unfold Cpp.DataShareResultSet.goToLastRow
    rw [h.getRowCount hcb] at hlast ⊢
    dsimp only at hlast ⊢
    rw [if_neg (not_not_intro rfl), hlast]
    rfl
  | goTo offset => exact congrArg (Option.bind · (s.cpp.goToRow cb)) htarget
  | goToNextRow => exact congrArg (Option.bind · (s.cpp.goToRow cb)) htarget
  | goToPreviousRow => exact congrArg (Option.bind · (s.cpp.goToRow cb)) htarget

theorem goTo_eq (hopen : s.rust.isClosed = false) (hpos : s.rust.rowPos = s.cpp.rowPos)
    {offset position : Int32} (htarget : Cpp.addInt s.cpp.rowPos offset = some position) :
    s.rust.goTo rb region offset = s.rust.goToRow rb region position := by
  unfold Rust.DataShareResultSet.goTo
  rw [if_neg (by rw [hopen]; exact Bool.false_ne_true), hpos, addInt_eq htarget]

/-- A Rust move is a `go_to_row` of the same row. -/
theorem Cursors.Together.rust_move (h : s.Together n) (hn : 0 ≤ n)
    (hcb : ∀ b, cb.getRowCount b = (Cpp.eOk, n)) {m : Move} {position : Int32}
    (htarget : m.target cb s.cpp = some position) :
    s.rust.move rb region m = s.rust.goToRow rb region position := by
  cases m with
  | goToRow target =>
    obtain rfl := Option.some.inj htarget
    rfl
  | goToFirstRow =>
    obtain rfl := Option.some.inj htarget
    rfl
  | goToLastRow =>
    have hlast : Cpp.addInt (s.cpp.getRowCount cb).2 (-1) = some position := htarget
    rw [h.getRowCount hcb] at hlast
    have hposition : n - 1 = position := by
      rw [← addInt_eq hlast]
      exact Int32.sub_eq_add_neg n 1
    show s.rust.goToLastRow rb region = _
    unfold Rust.DataShareResultSet.goToLastRow
    rw [h.count, hposition]
    split
    · -- There is no row, and the row before the first one is refused too.
      rename_i hle
      have hzero : n = 0 := Int32.le_antisymm hle hn
      have hneg : position < 0 := by
        rw [← hposition, hzero]
        decide
      unfold Rust.DataShareResultSet.goToRow
      rw [if_neg (by rw [h.isOpen]; exact Bool.false_ne_true), if_pos (.inl hneg)]
    · rfl
  | goTo offset => exact goTo_eq h.isOpen h.rowPos htarget
  | goToNextRow => exact goTo_eq h.isOpen h.rowPos htarget
  | goToPreviousRow => exact goTo_eq h.isOpen h.rowPos htarget

/-- One move that is kept. -/
theorem Cursors.Together.move (h : e.before.Together n)
    (hcb : ∀ b, cb.getRowCount b = (Cpp.eOk, n)) (hn : 0 ≤ n)
    (he : e.Happens rb region cb s) (hkept : e.Kept cb n) :
    e.ok = (e.code == Cpp.eOk) ∧ s.Together n := by
  obtain ⟨position, htarget, hrange⟩ := hkept
  have hcpp : e.before.cpp.goToRow cb position = some (e.code, s.cpp) :=
    (h.cpp_run hcb htarget).symm.trans he.cpp
  have hrust : e.before.rust.goToRow rb region position = some (.ok e.ok, s.rust) :=
    (h.rust_move hn hcb htarget).symm.trans he.rust
  have hcount : (e.before.cpp.getRowCount cb).2 = n := by rw [h.getRowCount hcb]
  have hloaded := he.loaded position htarget
  rw [hcount] at hloaded
  obtain ⟨hclosed, hsame, hok⟩ := goToRow_ok hrust
  rw [h.count] at hok hsame
  rcases hrange with ⟨hge, hlt⟩ | ⟨hneg, hpos⟩
  · obtain ⟨hbridge, hblock, hcode, hrow⟩ :=
      goToRow_in_rows hcount h.bridge h.block hge hlt hloaded hcpp
    rw [if_neg (not_or.mpr ⟨Int32.not_lt.mpr hge, Int32.not_le.mpr hlt⟩)] at hok
    refine ⟨by rw [hok.1, hcode]; rfl, hclosed.trans h.isOpen, hsame, hbridge, ?_, hblock⟩
    rw [hok.2, hrow]
  · obtain ⟨hbridge, hblock, hcode, hrow⟩ :=
      goToRow_before_first hn hcount h.bridge h.block hneg hpos hcpp
    rw [if_pos (.inl hneg)] at hok
    refine ⟨by rw [hok.1, hcode]; rfl, hclosed.trans h.isOpen, hsame, hbridge, ?_, hblock⟩
    rw [hok.2, h.rowPos, hpos, hrow]

/-- In no state of a run do the answers agree. While the moves are kept, success and
position do. -/
theorem cursors_differ (hn : 0 ≤ n) (hcb : ∀ b, cb.getRowCount b = (Cpp.eOk, n))
    {names : Except Rust.DataShareError (List String)} {bridge : σ} {bridge' : τ} {blockSize : ℕ}
    {mapped : Bool} {events : List (Event σ τ)}
    (hrun : Runs rb region cb ⟨({} : Rust.DataShareResultSet σ).withBridge names (.ok n) bridge,
      .new bridge' blockSize mapped⟩ events s) :
    ¬s.Agree cb ∧ ((∀ e ∈ events, e.Kept cb n) →
      (∀ e ∈ events, e.ok = (e.code == Cpp.eOk)) ∧ s.rust.rowPos = s.cpp.rowPos) := by
  refine ⟨not_agree cb s, fun hkept => ?_⟩
  suffices h : (∀ e ∈ events, e.ok = (e.code == Cpp.eOk)) ∧ s.Together n from ⟨h.1, h.2.rowPos⟩
  induction hrun with
  | start =>
    exact ⟨fun e he => absurd he List.not_mem_nil, rfl, rfl, rfl, rfl, .inr ⟨rfl, rfl, rfl⟩⟩
  | move _ he ih =>
    obtain ⟨hcodes, htogether⟩ := ih fun e' he' => hkept e' (List.mem_append_left _ he')
    obtain ⟨hcode, hafter⟩ := htogether.move hcb hn he (hkept _ (by simp))
    refine ⟨fun e' he' => ?_, hafter⟩
    rcases List.mem_append.mp he' with he' | he'
    · exact hcodes e' he'
    · obtain rfl := List.mem_singleton.mp he'
      exact hcode

end Runs

/-- A Rust and a C++ result set over two rows, each with a bridge that loads one row. -/
def rowCursors : Cursors ℕ ℕ :=
  ⟨({} : Rust.DataShareResultSet ℕ).withBridge (.ok ["id"]) (.ok 2) 0, .new 0 4096 true⟩

theorem cursors_at_first_row : ∃ events s,
    Runs Rust.failingBridge true Cpp.textBridge rowCursors events s ∧ s.rust.rowPos = 0 ∧
      ¬s.Agree Cpp.textBridge ∧ (∀ e ∈ events, e.ok = (e.code == Cpp.eOk)) ∧
        s.rust.rowPos = s.cpp.rowPos := by
  have hrust : (rowCursors.rust.move Rust.failingBridge true .goToFirstRow).any fun r =>
      r.1.toOption == some true && r.2.rowPos == 0 := by decide +kernel
  have hload : (rowCursors.cpp.onGo Cpp.textBridge 0 1).any fun r => r.1 := by decide +kernel
  have hcpp : (Move.run Cpp.textBridge rowCursors.cpp .goToFirstRow).isSome := by decide +kernel
  obtain ⟨⟨res, rust⟩, hmove, hres⟩ := (Option.any_eq_true _ _).mp hrust
  obtain ⟨⟨code, cpp⟩, hrun⟩ := Option.isSome_iff_exists.mp hcpp
  obtain ⟨⟨_, endPos, rs⟩, honGo, rfl⟩ := (Option.any_eq_true _ _).mp hload
  rw [Bool.and_eq_true, beq_iff_eq, beq_iff_eq] at hres
  obtain ⟨hok, hpos⟩ := hres
  rcases res with err | ok
  · cases hok
  let e : Event ℕ ℕ := ⟨rowCursors, .goToFirstRow, ok, code⟩
  have he : e.Happens Rust.failingBridge true Cpp.textBridge ⟨rust, cpp⟩ := by
    refine ⟨hmove, hrun, fun position htarget _ => ⟨endPos, rs, ?_⟩⟩
    obtain rfl : 0 = position := Option.some.inj htarget
    exact honGo
  have hkept : e.Kept Cpp.textBridge 2 := ⟨0, rfl, .inl ⟨by decide, by decide⟩⟩
  have hruns := Runs.start.move he
  have h := cursors_differ (by decide) (fun _ => rfl) hruns
  have hevents : ∀ e' ∈ [] ++ [e], e'.Kept Cpp.textBridge 2 := fun e' he' => by
    obtain rfl : e' = e := List.mem_singleton.mp he'
    exact hkept
  exact ⟨_, _, hruns, hpos, h.1, h.2 hevents⟩

/-- The answers of `is_started` differ at the start, and a move past the end takes only the C++
cursor there. -/
theorem cursors_past_end : rowCursors.rust.rowPos = -1 ∧ rowCursors.cpp.rowPos = -1 ∧
    rowCursors.rust.isStarted.toOption = some true ∧
    rowCursors.cpp.isStarted.toOption = some false ∧ ∃ events s,
      Runs Rust.failingBridge true Cpp.textBridge rowCursors events s ∧
        events.map Event.move = [.goToRow 5] ∧ s.rust.rowPos = -1 ∧ s.cpp.rowPos = 2 ∧
        s.rust.isEnded.toOption = some false ∧
        (s.cpp.isEnded Cpp.textBridge).toOption = some true := by
  let e : Event ℕ ℕ := ⟨rowCursors, .goToRow 5, false, Cpp.eError⟩
  have he : e.Happens Rust.failingBridge true Cpp.textBridge
      ⟨rowCursors.rust, { rowCursors.cpp with rowPos := 2 }⟩ := by
    refine ⟨rfl, rfl, fun position htarget hpages => ?_⟩
    obtain rfl : 5 = position := Option.some.inj htarget
    exact absurd hpages.1.2 (by decide)
  exact ⟨rfl, rfl, rfl, rfl, _, _, Runs.start.move he, rfl, rfl, rfl, rfl, rfl⟩

end DataShare
