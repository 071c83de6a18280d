import DataShare.SharedBlockRows

/-!
# The shared block refines the table

Each call on a block below 2 GiB keeps `Inv` for the table after the call (`Refines.apply`), so
the block reads as the table of the calls on it (`runsAsTable_of_create`). A put first hands out
the bytes of its payload, then writes over its own cell (`Inv.write_cell`).

From 4 GiB on, the region is smaller than the size the block goes by
(`runsAsTable_create_large`).
-/

namespace DataShare

namespace Rust

open Arena

/-! ## Puts -/

section Puts

variable {A : Arena Region} {L : Layout} {t : Table} {row col : ℕ} {v : Cell}

theorem CellAt.bound_encode {r c d p : ℕ} {old : Cell} (h : CellAt A L r c old d p) (v : Cell)
    (p' : ℕ) : d + c * sizeOfCellUnit + (v.encode p').length ≤ A.mem.size := by
  have hbound := h.cell.holds.bound
  rwa [Cell.length_encode] at hbound ⊢

/-- Write a cell whose payload is there. -/
theorem Inv.write_cell {d p p' : ℕ} {old : Cell} (h : Inv A L t)
    (hold : CellAt A L row col old d p') (hpay : A.PointsTo p (.payload row col) v.payload)
    (hlt : p + v.payload.length < A.mem.size) :
    Inv (A.write (d + col * sizeOfCellUnit) (v.encode p)) L (t.put row col v) := by
  have howned : A.Owned (d + col * sizeOfCellUnit) (v.encode p).length (.cell row col) := by
    have := hold.cell.owned
    rwa [Cell.length_encode] at this ⊢
  have hframe := frame_write howned
  refine ⟨h.base.frame hframe (by simp) (by simp) rfl, fun r hr c hc => ?_⟩
  by_cases hrc : r = row ∧ c = col
  · obtain ⟨rfl, rfl⟩ := hrc
    have hcell : (t.put r c v).cell r c = v := if_pos ⟨rfl, rfl⟩
    rw [hcell]
    exact ⟨d, p, hframe.pointsTo (by simp) hold.slot, hold.bound,
      .write_self howned (hold.bound_encode v p), hframe.pointsTo (by simp) hpay, hlt⟩
  · obtain ⟨d', q, hother⟩ := h.cell r hr c hc
    have hcell : (t.put row col v).cell r c = t.cell r c := if_neg hrc
    rw [hcell]
    exact ⟨d', q, hother.frame hframe (by simp) (by simpa using hrc) (by simp) rfl⟩

/-- What a put does to the block. -/
def PutSpec (t : Table) (row col : ℕ) (v : Cell)
    (res : Option (Status × SharedBlock)) : Prop :=
  ∃ st A' L', res = some (st, ofArena A') ∧ Inv A' L' (t.step (.put row col v) st)

theorem Inv.putCell (h : Inv A L t) (hpay : v.payload = []) :
    PutSpec t row col v ((ofArena A).putCell row col v.kind (v.value 0)) := by
  by_cases hrc : row < t.rowNums ∧ col < t.columnNums
  · obtain ⟨d, p, hcell⟩ := h.cell row hrc.1 col hrc.2
    have hlt := hcell.bound
    refine ⟨.ok, _, L, ?_, h.write_cell hcell (p := 0) (v := v) ?_ ?_⟩
    · unfold SharedBlock.putCell
      rw [if_neg (by simp [ofArena]), h.getCellUnit_eq hcell hrc.1 hrc.2]
      simp only [Option.bind_eq_bind, Option.bind_some]
      rw [← Cell.encode, store_ofArena (hcell.bound_encode v 0)]
      rfl
    · rw [hpay]
      exact pointsTo_nil _ _
    · rw [hpay]
      exact Nat.zero_lt_of_lt hlt
  · refine ⟨.badValue, A, L, ?_, h⟩
    unfold SharedBlock.putCell
    rw [if_neg (by simp [ofArena]), h.base.getCellUnit_eq_none hrc]
    rfl

/-- A put of bytes finds no room, or reserves them, writes them and then its cell at `cell`. -/
theorem Base.putBlobOrString_spec {rows cols cell : ℕ} (h : Base A L rows cols)
    (hpos : 0 < L.groups) (hunit : (ofArena A).getCellUnit row col = some (some cell))
    (hcell : cell + sizeOfCellUnit ≤ A.mem.size) (data : List UInt8) (kind : ℕ) :
    (ofArena A).putBlobOrString row col data kind = some (.noMemory, ofArena A) ∨
      ∃ a A₁, ∃ hres : Reserved A a data.length A₁,
        (ofArena A).putBlobOrString row col data kind = some (.ok, ofArena
          ((Rust.fill A₁ a data.length data (fun _ => .payload row col) hres.brk_le).write cell
            (leBytes 4 kind ++ (leBytes 4 a ++ leBytes 4 data.length)))) := by
  have hsize := h.size_lt
  rcases alloc_spec hsize h.unused (h.room hpos) (h.brk_pos hpos) data.length false with
    halloc | ⟨a, A₁, hres, halloc⟩
  · refine .inl ?_
    unfold SharedBlock.putBlobOrString
    rw [if_neg (by simp [ofArena]), hunit]
    simp only [Option.bind_eq_bind, Option.bind_some, halloc, if_true]
    rfl
  · refine .inr ⟨a, A₁, hres, ?_⟩
    have hlt := hres.lt
    rw [← hres.frame.size] at hsize hlt hcell
    have hmod : data.length % 2 ^ 32 = data.length := Nat.mod_eq_of_lt (by omega)
    have hcopy : ∀ k : SharedBlock → Option (Status × SharedBlock),
        (if data.length ≠ 0 then ((ofArena A₁).store a data).bind k
          else (pure (ofArena A₁) : Option SharedBlock).bind k) =
            k (ofArena (A₁.write a data)) := by
      intro k
      split
      · rw [store_ofArena hlt.le, Option.bind_some]
      · rename_i hnil
        rw [List.eq_nil_of_length_eq_zero (not_not.mp hnil), Arena.write, Memory.write_nil]
        rfl
    have hbound : cell + (leBytes 4 kind ++ (leBytes 4 a ++ leBytes 4 data.length)).length ≤
        (A₁.write a data).mem.size := by
      simp only [List.length_append, length_leBytes]
      exact hcell
    unfold SharedBlock.putBlobOrString
    rw [if_neg (by simp [ofArena]), hunit]
    simp only [Option.bind_eq_bind, Option.bind_some, halloc, if_neg hres.pos.ne', hmod,
      offsetToPtr_ofArena hsize hlt]
    refine (hcopy _).trans ?_
    rw [store_ofArena hbound]
    rfl

theorem Inv.putBlobOrString (h : Inv A L t)
    (hvalue : ∀ p, v.value p = leBytes 4 p ++ leBytes 4 v.payload.length) :
    PutSpec t row col v ((ofArena A).putBlobOrString row col v.payload v.kind) := by
  by_cases hrc : row < t.rowNums ∧ col < t.columnNums
  · obtain ⟨d, p, hcell⟩ := h.cell row hrc.1 col hrc.2
    have hbound := hcell.bound_encode .null 0
    rw [Cell.length_encode] at hbound
    rcases h.base.putBlobOrString_spec (h.base.groups_pos_of_lt hrc.1)
      (h.getCellUnit_eq hcell hrc.1 hrc.2) hbound v.payload v.kind with hput | ⟨a, A₁, hres, hput⟩
    · exact ⟨.noMemory, A, L, hput, h⟩
    · -- The new payload has an owner before the cell points to it.
      have hlt := hres.lt
      have hframe := hres.frame_fill v.payload fun _ => .payload row col
      have hfill : Inv (fill A₁ a v.payload.length v.payload (fun _ => .payload row col)
          hres.brk_le) L t := by
        refine ⟨h.base.fill hres _ _, fun r hr c hc => ?_⟩
        obtain ⟨d', p', hother⟩ := h.cell r hr c hc
        exact ⟨d', p', hother.frame hframe (by simp) (by simp) (by simp) rfl⟩
      have hcell' := hcell.frame hframe (by simp) (by simp) (by simp) (rfl : L.slot row = _)
      rw [← hres.frame.size] at hlt
      have hpay := pointsTo_fill (o := .payload row col) hres.brk_le hlt
      refine ⟨.ok, _, L, hput, ?_⟩
      rw [← hvalue, ← Cell.encode]
      exact hfill.write_cell hcell' hpay hlt
  · refine ⟨.badValue, A, L, ?_, h⟩
    unfold SharedBlock.putBlobOrString
    rw [if_neg (by simp [ofArena]), h.base.getCellUnit_eq_none hrc]
    rfl

theorem Inv.put (h : Inv A L t) (row col : ℕ) (v : Cell) :
    PutSpec t row col v ((ofArena A).put row col v) := by
  cases v with
  | null => exact h.putCell rfl
  | long v => exact h.putCell rfl
  | double v => exact h.putCell rfl
  | string s => exact h.putBlobOrString fun _ => rfl
  | blob bs => exact h.putBlobOrString fun _ => rfl

end Puts

/-! ## Runs -/

/-- `b` stands for `t`. -/
def Refines (b : SharedBlock) (t : Table) : Prop :=
  ∃ A L, b = ofArena A ∧ Inv A L t

theorem refines_create {size : ℕ} {b : SharedBlock} (hsize : size < 2 ^ 31)
    (hb : SharedBlock.create size = some (.ok b)) : Refines b .empty := by
  rcases Nat.lt_or_ge size sizeOfHeader with hlt | hge
  · rw [create_eq_error hlt] at hb
    cases hb
  · obtain ⟨A, L, hcreate, hinv⟩ := create_spec hge hsize
    rw [hcreate] at hb
    cases hb
    exact ⟨A, L, rfl, hinv⟩

namespace Refines

variable {b : SharedBlock} {t : Table}

/-- One call. -/
theorem apply (h : Refines b t) (op : Op) :
    ∃ st b', b.apply op = some (st, b') ∧ Refines b' (t.step op st) := by
  obtain ⟨A, L, rfl, hinv⟩ := h
  have hop : ∃ st A' L', (ofArena A).apply op = some (st, ofArena A') ∧
      Inv A' L' (t.step op st) := by
    cases op with
    | clear => exact hinv.clear
    | setColumnNum n => exact hinv.setColumnNum n
    | allocRow => exact hinv.allocRow
    | freeLastRow => exact hinv.freeLastRow
    | put row col v => exact hinv.put row col v
  obtain ⟨st, A', L', happly, hinv'⟩ := hop
  exact ⟨st, _, happly, A', L', rfl, hinv'⟩

theorem run : ∀ {b : SharedBlock} {t : Table} (ops : List Op), Refines b t →
    ∃ sts b', b.run ops = some (sts, b') ∧ sts.length = ops.length ∧ Refines b' (t.run ops sts)
  | b, t, [], h => ⟨[], b, rfl, rfl, h⟩
  | b, t, op :: ops, h => by
    obtain ⟨st, b₁, happly, h₁⟩ := h.apply op
    obtain ⟨sts, b₂, hrun, hlen, h₂⟩ := run ops h₁
    refine ⟨st :: sts, b₂, ?_, congrArg _ hlen, h₂⟩
    rw [SharedBlock.run, happly]
    simp only [Option.bind_eq_bind, Option.bind_some, hrun]
    rfl

theorem rowNum_eq (h : Refines b t) : b.rowNum = some t.rowNums := by
  obtain ⟨A, L, rfl, hinv⟩ := h
  exact header_ofArena hinv.base.rowNums (hinv.base.rows_lt.trans (by decide))

theorem columnNum_eq (h : Refines b t) : b.columnNum = some t.columnNums := by
  obtain ⟨A, L, rfl, hinv⟩ := h
  exact header_ofArena hinv.base.columnNums (hinv.base.cols_le.trans_lt (by decide))

theorem readCell_eq (h : Refines b t) {r c : ℕ} (hr : r < t.rowNums) (hc : c < t.columnNums) :
    b.readCell r c = some (.ok (t.cell r c).read) := by
  obtain ⟨A, L, rfl, hinv⟩ := h
  exact hinv.readCell_eq hr hc

end Refines

/-! ## Strings without NUL -/

def Cell.NulFree : Cell → Prop
  | .string s => '\x00' ∉ s.toList
  | _ => True

def Op.NulFree : Op → Prop
  | .put _ _ v => v.NulFree
  | _ => True

theorem Cell.read_eq_self : ∀ {v : Cell}, v.NulFree → v.read = v
  | .string _, h => congrArg string (cString_of_notMem h)
  | .null, _ | .long _, _ | .double _, _ | .blob _, _ => rfl

theorem Table.nulFree_step {t : Table} (ht : ∀ r c, (t.cell r c).NulFree) {op : Op}
    (hop : op.NulFree) (st : Status) (r c : ℕ) : ((t.step op st).cell r c).NulFree := by
  unfold Table.step
  split
  · trivial
  · exact ht r c
  · unfold Table.allocRow
    dsimp only
    split
    · trivial
    · exact ht r c
  · unfold Table.allocRow
    dsimp only
    split
    · trivial
    · exact ht r c
  · exact ht r c
  · unfold Table.put
    dsimp only
    split
    · exact hop
    · exact ht r c
  · exact ht r c

theorem Table.nulFree_run : ∀ {t : Table} {ops : List Op} (sts : List Status),
    (∀ r c, (t.cell r c).NulFree) → (∀ op ∈ ops, op.NulFree) →
      ∀ r c, ((t.run ops sts).cell r c).NulFree
  | _, [], _, ht, _ => ht
  | _, _ :: _, [], ht, _ => ht
  | _, op :: _, st :: sts, ht, hops =>
    nulFree_run sts (nulFree_step ht (hops op (List.mem_cons_self)) st) fun op' hop' =>
      hops op' (List.mem_cons_of_mem _ hop')

/-- The getters of `b` read the table `t`, and a put changes what its own cell reads only. -/
structure ReadsAs (b : SharedBlock) (t : Table) : Prop where
  rowNum : b.rowNum = some t.rowNums
  columnNum : b.columnNum = some t.columnNums
  readCell : ∀ r < t.rowNums, ∀ c < t.columnNums, b.readCell r c = some (.ok (t.cell r c))
  put : ∀ row col v, ∃ st b', b.put row col v = some (st, b') ∧ ∀ r < t.rowNums,
    ∀ c < t.columnNums, ¬(r = row ∧ c = col) → b'.readCell r c = b.readCell r c

/-- Whatever is called on `b`, it reads as the table of these calls. -/
def RunsAsTable (b : SharedBlock) : Prop :=
  ∀ ops : List Op, (∀ op ∈ ops, op.NulFree) → ∃ sts b', b.run ops = some (sts, b') ∧
    sts.length = ops.length ∧ ReadsAs b' (Table.empty.run ops sts)

/-- A put, whatever it returns, keeps the other cells. -/
theorem Table.cell_step_put {t : Table} {row col r c : ℕ} (v : Cell) (st : Status)
    (hrc : ¬(r = row ∧ c = col)) : (t.step (.put row col v) st).cell r c = t.cell r c := by
  cases st <;> first | rfl | exact if_neg hrc

theorem Table.size_step_put (t : Table) (row col : ℕ) (v : Cell) (st : Status) :
    (t.step (.put row col v) st).rowNums = t.rowNums ∧
      (t.step (.put row col v) st).columnNums = t.columnNums := by
  cases st <;> exact ⟨rfl, rfl⟩

theorem Refines.readsAs {b : SharedBlock} {t : Table} (h : Refines b t)
    (ht : ∀ r c, (t.cell r c).NulFree) : ReadsAs b t where
  rowNum := h.rowNum_eq
  columnNum := h.columnNum_eq
  readCell r hr c hc := by rw [h.readCell_eq hr hc, Cell.read_eq_self (ht r c)]
  put row col v := by
    obtain ⟨st, b', hput, h'⟩ := h.apply (.put row col v)
    obtain ⟨hrows, hcols⟩ := t.size_step_put row col v st
    refine ⟨st, b', hput, fun r hr c hc hrc => ?_⟩
    rw [h'.readCell_eq (hrows ▸ hr) (hcols ▸ hc), h.readCell_eq hr hc,
      Table.cell_step_put v st hrc]

/-- A block below 2 GiB reads as the table of the calls on it. -/
theorem runsAsTable_of_create {size : ℕ} {b : SharedBlock} (hsize : size < 2 ^ 31)
    (hb : SharedBlock.create size = some (.ok b)) : RunsAsTable b := by
  intro ops hops
  obtain ⟨sts, b', hrun, hlen, h⟩ := (refines_create hsize hb).run ops
  exact ⟨sts, b', hrun, hlen, h.readsAs (Table.nulFree_run sts (fun _ _ => trivial) hops)⟩

theorem runsAsTable_of_create_4096 :
    ∃ b, SharedBlock.create 4096 = some (.ok b) ∧ RunsAsTable b := by
  have hok : ((SharedBlock.create 4096).bind Except.toOption).isSome := by decide +kernel
  obtain ⟨b, hb⟩ := Option.isSome_iff_exists.mp hok
  obtain ⟨- | b, hcreate, ⟨⟩⟩ := Option.bind_eq_some_iff.mp hb
  exact ⟨b, hcreate, runsAsTable_of_create (by decide) hcreate⟩

/-- The calls that write past a region of 512 bytes, and past the page of at most 64 KiB it is
mapped by. -/
def overrun : List Op :=
  [.setColumnNum 1, .allocRow, .put 0 0 (.blob (List.replicate 65536 0))]

/-- A block of `2 ^ 32 + 512` bytes has a region of 512. -/
theorem runsAsTable_create_large :
    ∃ b, SharedBlock.create (2 ^ 32 + 512) = some (.ok b) ∧ ¬RunsAsTable b := by
  have hfault : ((SharedBlock.create (2 ^ 32 + 512)).bind Except.toOption).any fun b =>
      (b.run overrun).isNone := by decide +kernel
  obtain ⟨b, hb, hnone⟩ := (Option.any_eq_true _ _).mp hfault
  obtain ⟨- | b, hcreate, ⟨⟩⟩ := Option.bind_eq_some_iff.mp hb
  refine ⟨b, hcreate, fun h => ?_⟩
  obtain ⟨sts, b', hrun, -⟩ := h overrun
    (by simp [overrun, Op.NulFree, Cell.NulFree, -List.reduceReplicate])
  rw [hrun] at hnone
  cases hnone

end Rust

end DataShare
