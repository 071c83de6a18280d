import DataShare.SharedBlockRefinement

/-!
# A new row, or none

`alloc_row` counts the row, then allocates the directory of its cells, and takes the row back off
the count if there is no room for it. A directory of no columns has no bytes, so there is room
for it up to the end of the block, but the pointer to it is checked for one cell. Where that check
fails the row stays counted, while the call returns `BAD_VALUE`.

So `alloc_row` does all or nothing on a block exactly if the next directory is not within one cell
of the end with no columns (`atomic_allocRow_iff`).
-/

namespace DataShare

namespace Rust

open Arena

/-! ## The end of the block -/

namespace SharedBlock

/-- What stands in the link that leads to group `k`, 0 after the last group. -/
def groupAt (b : SharedBlock) : ℕ → Option ℕ
  | 0 => b.header .firstRowGroupOffset
  | k + 1 => do
    let group ← b.groupAt k
    b.mem.loadU32 (group + nextGroupField)

/-- All row groups are full, so the next row begins a new one. -/
def GroupsFull (b : SharedBlock) (rows : ℕ) : Prop :=
  0 < rows ∧ rows % rowOffsetsNum = 0 ∧ b.groupAt (rows / rowOffsetsNum) = some 0

instance (b : SharedBlock) (rows : ℕ) : Decidable (b.GroupsFull rows) :=
  inferInstanceAs (Decidable (_ ∧ _ ∧ _))

/-- Where the directory of the next row would be. -/
def nextDirectory (b : SharedBlock) (rows unused : ℕ) : ℕ :=
  alignUp (if b.GroupsFull rows then alignUp unused + sizeOfRowGroup else unused)

/-- A writable block with a row group and no columns, where the next directory is in the block but
one cell there is not. -/
def Cramped (b : SharedBlock) : Prop :=
  b.readOnly = false ∧ sizeOfHeader + sizeOfRowGroup < b.size ∧ b.columnNum = some 0 ∧
    ∃ rows, b.rowNum = some rows ∧ ∃ unused, b.header .unusedOffset = some unused ∧
      b.nextDirectory rows unused < b.size ∧
        b.size ≤ b.nextDirectory rows unused + sizeOfCellUnit

/-- `alloc_row` returns, with one more row of null cells or with the same rows, columns and cells
as before. -/
def AtomicAllocRow (b : SharedBlock) : Prop :=
  ∃ rows cols st b', b.rowNum = some rows ∧ b.columnNum = some cols ∧
    b.allocRow = some (st, b') ∧
    (st = .ok → b'.rowNum = some (rows + 1) ∧
      ∀ c < cols, b'.readCell rows c = some (.ok .null)) ∧
    (st ≠ .ok → b'.rowNum = some rows ∧ b'.columnNum = some cols ∧
      ∀ r < rows, ∀ c < cols, b'.readCell r c = b.readCell r c)

/-! ## The status -/

section Status

variable {b b₁ b₂ : SharedBlock} {st : Status} {b' : SharedBlock}

/-- Without a row offset there is no memory. -/
theorem allocRow_of_none (hwritable : b.readOnly = false) (hoff : b.allocRowOffset = some (none, b₁))
    (h : b.allocRow = some (st, b')) : st = .noMemory := by
  unfold allocRow at h
  rw [if_neg (by simp [hwritable]), hoff] at h
  exact (Prod.mk.inj (Option.some.inj h)).1.symm

/-- With one, the value is bad exactly if the directory fits and one cell does not. -/
theorem allocRow_eq_badValue_iff (hwritable : b.readOnly = false) {ptr cols a : ℕ}
    (hoff : b.allocRowOffset = some (some ptr, b₁)) (hcols : b₁.header .columnNums = some cols)
    (halloc : b₁.alloc (cols * sizeOfCellUnit) true = some (a, b₂))
    (h : b.allocRow = some (st, b')) :
    st = .badValue ↔ a ≠ 0 ∧ b₂.offsetToPtr a sizeOfCellUnit = none := by
  unfold allocRow at h
  rw [if_neg (by simp [hwritable]), hoff] at h
  simp only [Option.bind_eq_bind, Option.bind_some, hcols, halloc] at h
  by_cases ha : a = 0
  · rw [if_pos ha] at h
    obtain ⟨b₃, -, hpure⟩ := Option.bind_eq_some_iff.mp h
    rw [← (Prod.mk.inj (Option.some.inj hpure)).1]
    simp [ha]
  · rw [if_neg ha] at h
    cases hptr : b₂.offsetToPtr a sizeOfCellUnit with
    | none =>
      rw [hptr] at h
      rw [← (Prod.mk.inj (Option.some.inj h)).1]
      simp [ha]
    | some dir =>
      rw [hptr] at h
      obtain ⟨b₃, -, hstore⟩ := Option.bind_eq_some_iff.mp h
      obtain ⟨b₄, -, hpure⟩ := Option.bind_eq_some_iff.mp hstore
      rw [← (Prod.mk.inj (Option.some.inj hpure)).1]
      simp

end Status

end SharedBlock

theorem offsetToPtr_eq_none_iff {b : SharedBlock} {a n : ℕ} (h : a + n < 2 ^ 32) :
    b.offsetToPtr a n = none ↔ b.size ≤ a + n := by
  unfold SharedBlock.offsetToPtr
  by_cases hend : a + n ≥ b.size
  · simp [hend]
  · rw [if_neg (by omega), if_neg (by omega), if_neg hend]
    exact ⟨fun hptr => absurd hptr (by simp), fun hle => absurd hle hend⟩

/-! ## The row groups of the arena -/

section Groups

variable {A : Arena Region} {L : Layout} {rows cols : ℕ}

theorem Base.groupAt_eq (h : Base A L rows cols) :
    ∀ k < L.groups, (ofArena A).groupAt k = some (L.group k)
  | 0, _ => by
    rw [h.group_zero]
    exact header_ofArena h.first (by decide)
  | k + 1, hk => by
    have hgroup := h.group_lt hk
    have hsize := h.size_lt
    have hlink : L.link k = L.group (k + 1) := if_pos hk
    rw [SharedBlock.groupAt, h.groupAt_eq k (Nat.lt_of_succ_lt hk), ← hlink]
    exact (h.links k (Nat.lt_of_succ_lt hk)).loadU32 (by omega)

/-- The link of the last group is 0. -/
theorem Base.groupAt_groups (h : Base A L rows cols) (hpos : 0 < L.groups) :
    (ofArena A).groupAt L.groups = some 0 := by
  obtain ⟨k, hk⟩ := Nat.exists_eq_add_of_lt hpos
  have hlast : L.groups = k + 1 := by omega
  have hlink : L.link k = 0 := if_neg (by omega)
  rw [hlast, SharedBlock.groupAt, h.groupAt_eq k (by omega), ← hlink]
  exact (h.links k (by omega)).loadU32 (by omega)

/-- The next row begins a new group exactly if it is the first behind those there are. -/
theorem Base.groupsFull_iff (h : Base A L rows cols) (hpos : 0 < L.groups) :
    (ofArena A).GroupsFull rows ↔ rows = rowOffsetsNum * L.groups := by
  constructor
  · rintro ⟨-, hmod, hlink⟩
    have hle := h.rows_le
    have hk : rows / rowOffsetsNum ≤ L.groups := Nat.div_le_of_le_mul hle
    rcases Nat.lt_or_eq_of_le hk with hlt | heq
    · rw [h.groupAt_eq _ hlt] at hlink
      have hge := h.group_ge _ hlt
      rw [Option.some.inj hlink] at hge
      unfold sizeOfHeader at hge
      omega
    · rw [← heq]
      exact (Nat.mul_div_cancel' (Nat.dvd_of_mod_eq_zero hmod)).symm
  · rintro rfl
    refine ⟨Nat.mul_pos (by decide) hpos, Nat.mul_mod_right _ _, ?_⟩
    rw [Nat.mul_div_cancel_left _ (by decide)]
    exact h.groupAt_groups hpos

theorem Base.nextDirectory_eq (h : Base A L rows cols) (hpos : 0 < L.groups) :
    (ofArena A).nextDirectory rows A.brk = SharedBlock.alignUp (rowTop A L rows) := by
  rw [SharedBlock.nextDirectory, rowTop]
  by_cases hfull : rows = rowOffsetsNum * L.groups
  · rw [if_pos hfull, if_pos ((h.groupsFull_iff hpos).mpr hfull)]
  · rw [if_neg hfull, if_neg fun hmem => hfull ((h.groupsFull_iff hpos).mp hmem)]

theorem Base.groups_pos_iff (h : Base A L rows cols) :
    0 < L.groups ↔ sizeOfHeader + sizeOfRowGroup < A.mem.size := by
  constructor
  · intro hpos
    have hgroup := h.group_lt hpos
    rwa [h.group_zero] at hgroup
  · exact h.groups_pos

end Groups

/-! ## All or nothing -/

section Atomic

variable {A : Arena Region} {L : Layout} {t : Table}

theorem le_alignUp (u : ℕ) : u ≤ SharedBlock.alignUp u :=
  Nat.le_add_right _ _

/-- Exactly when a call returns `BAD_VALUE`. -/
theorem Inv.allocRow_badValue_iff (h : Inv A L t) {st : Status} {b' : SharedBlock}
    (hcall : (ofArena A).allocRow = some (st, b')) :
    st = .badValue ↔ (ofArena A).Cramped := by
  have hsize := h.base.size_lt
  have hrows := h.base.rows_lt
  have hcols := h.base.cols_le
  have hwritable : (ofArena A).readOnly = false := rfl
  have hrowNum : (ofArena A).rowNum = some t.rowNums :=
    header_ofArena h.base.rowNums (by omega)
  have hcolumnNum : (ofArena A).columnNum = some t.columnNums :=
    header_ofArena h.base.columnNums (hcols.trans_lt (by decide))
  have hunused : (ofArena A).header .unusedOffset = some A.brk :=
    header_ofArena h.base.unused (h.base.brk_lt.trans (by decide))
  -- the condition, over the arena
  have hcramped : (ofArena A).Cramped ↔ 0 < L.groups ∧ t.columnNums = 0 ∧
      SharedBlock.alignUp (rowTop A L t.rowNums) < A.mem.size ∧
        A.mem.size ≤ SharedBlock.alignUp (rowTop A L t.rowNums) + sizeOfCellUnit := by
    rw [SharedBlock.Cramped, hrowNum, hcolumnNum, hunused, h.base.groups_pos_iff]
    constructor
    · rintro ⟨-, hpos, hzero, rows, hr, unused, hu, hlt, hle⟩
      obtain rfl := Option.some.inj hr
      obtain rfl := Option.some.inj hu
      rw [h.base.nextDirectory_eq (h.base.groups_pos hpos)] at hlt hle
      exact ⟨hpos, Option.some.inj hzero, hlt, hle⟩
    · rintro ⟨hpos, hzero, hlt, hle⟩
      refine ⟨rfl, hpos, congrArg some hzero, _, rfl, _, rfl, ?_⟩
      rw [h.base.nextDirectory_eq (h.base.groups_pos hpos)]
      exact ⟨hlt, hle⟩
  rw [hcramped]
  obtain ⟨A₁, L₁, hgrows, ⟨hoff, -, hnone⟩ | ⟨hoff, hbase, hbrk⟩⟩ := h.base.allocRowOffset_exact
  · rw [SharedBlock.allocRow_of_none hwritable hoff hcall]
    constructor
    · exact fun heq => Status.noConfusion heq
    · rintro ⟨hpos, -, hlt, -⟩
      exact absurd ⟨hpos, (le_alignUp _).trans_lt hlt⟩ hnone
  have hpos₁ : 0 < L₁.groups := hbase.groups_pos_of_lt (Nat.lt_succ_self _)
  have hsame : A₁.mem.size = A.mem.size := hgrows.frame.size
  have hpos : 0 < L.groups := by
    rw [h.base.groups_pos_iff, ← hsame]
    exact hbase.groups_pos_iff.mp hpos₁
  have hcols₁ := header_ofArena hbase.columnNums (hbase.cols_le.trans_lt (by decide))
  have hunused₁ := header_ofArena hbase.unused (hbase.brk_lt.trans (by decide))
  obtain ⟨a, b₂, halloc⟩ : ∃ a b₂,
      (ofArena A₁).alloc (t.columnNums * sizeOfCellUnit) true = some (a, b₂) ∧
        b₂.size = A.mem.size := by
    rcases alloc_spec hbase.size_lt hbase.unused (hbase.room hpos₁) (hbase.brk_pos hpos₁)
      (t.columnNums * sizeOfCellUnit) true with halloc | ⟨a, A₂, hres, halloc⟩
    · exact ⟨0, _, halloc, hsame⟩
    · exact ⟨a, _, halloc, hres.frame.size.trans hsame⟩
  obtain ⟨halloc, hsize₂⟩ := halloc
  rw [SharedBlock.allocRow_eq_badValue_iff hwritable hoff hcols₁ halloc hcall]
  have ha := alloc_aligned_fst hunused₁ hbase.brk_lt halloc
  rw [hbrk, show (ofArena A₁).size = A.mem.size from hsame] at ha
  have hbrkpos : 0 < SharedBlock.alignUp (rowTop A L t.rowNums) := by
    rw [← hbrk]
    exact (hbase.brk_pos hpos₁).trans_le (le_alignUp _)
  constructor
  · rintro ⟨hne, hptr⟩
    split at ha
    · exact absurd ha hne
    · next hroom =>
      subst ha
      rw [offsetToPtr_eq_none_iff (by unfold sizeOfCellUnit; omega), hsize₂] at hptr
      have hzero : t.columnNums = 0 := by
        rcases Nat.eq_zero_or_pos t.columnNums with h0 | h0
        · exact h0
        · have := Nat.le_mul_of_pos_left sizeOfCellUnit h0
          omega
      refine ⟨hpos, hzero, ?_, hptr⟩
      rw [hzero, Nat.zero_mul, Nat.add_zero] at hroom
      exact not_le.mp hroom
  · rintro ⟨-, hzero, hlt, hle⟩
    rw [hzero, Nat.zero_mul, Nat.add_zero, if_neg (not_le.mpr hlt)] at ha
    subst ha
    refine ⟨hbrkpos.ne', ?_⟩
    rw [offsetToPtr_eq_none_iff (by unfold sizeOfCellUnit; omega), hsize₂]
    exact hle

/-- A block that stands for a table does all or nothing exactly if it is not cramped. -/
theorem Refines.atomicAllocRow_iff {b : SharedBlock} (h : Refines b t) :
    b.AtomicAllocRow ↔ ¬b.Cramped := by
  obtain ⟨st, b', hcall, h'⟩ := h.apply .allocRow
  have hcall : b.allocRow = some (st, b') := hcall
  have hbad : st = .badValue ↔ b.Cramped := by
    obtain ⟨A, L, rfl, hinv⟩ := h
    exact hinv.allocRow_badValue_iff hcall
  have hrow := h'.rowNum_eq
  have hcol := h'.columnNum_eq
  rw [← hbad]
  constructor
  · rintro ⟨rows, cols, st', b'', hrows, -, hcall', -, hfail⟩ rfl
    obtain ⟨rfl, rfl⟩ := Prod.mk.inj (Option.some.inj (hcall.symm.trans hcall'))
    obtain rfl := Option.some.inj (h.rowNum_eq.symm.trans hrows)
    have hgrown := Option.some.inj (hrow.symm.trans (hfail (by decide)).1)
    exact absurd hgrown (Nat.succ_ne_self _)
  · intro hgood
    refine ⟨t.rowNums, t.columnNums, st, b', h.rowNum_eq, h.columnNum_eq, hcall, ?_, ?_⟩
    · rintro rfl
      refine ⟨hrow, fun c hc => ?_⟩
      rw [h'.readCell_eq (Nat.lt_succ_self _) hc]
      exact congrArg (fun v : Cell => some (Except.ok v.read)) (if_pos rfl)
    · intro hfail
      have hstep : t.step .allocRow st = t := by
        cases st with
        | ok => exact absurd rfl hfail
        | badValue => exact absurd rfl hgood
        | noMemory => rfl
        | invalidOperation => rfl
        | ashmemError => rfl
        | setPortError => rfl
      rw [hstep] at h' hrow hcol
      refine ⟨hrow, hcol, fun r hr c hc => ?_⟩
      rw [h'.readCell_eq hr hc, h.readCell_eq hr hc]

/-- A block that is mapped read-only stays as it is. -/
theorem Refines.atomicAllocRow_readOnly {b : SharedBlock} (h : Refines b t) :
    ({ b with readOnly := true } : SharedBlock).AtomicAllocRow :=
  ⟨t.rowNums, t.columnNums, .invalidOperation, { b with readOnly := true }, h.rowNum_eq,
    h.columnNum_eq, rfl, fun hok => Status.noConfusion hok,
    fun _ => ⟨h.rowNum_eq, h.columnNum_eq, fun _ _ _ _ => rfl⟩⟩

/-- Exactly when a call does all or nothing, on a block after any calls, whether the block is
writable or was mapped read-only then. -/
theorem atomic_allocRow_iff {size : ℕ} {b₀ b : SharedBlock} {ops : List Op} {sts : List Status}
    (hsize : size < 2 ^ 31) (hcreate : SharedBlock.create size = some (.ok b₀))
    (hrun : b₀.run ops = some (sts, b)) (readOnly : Bool) :
    ({ b with readOnly } : SharedBlock).AtomicAllocRow ↔
      ¬({ b with readOnly } : SharedBlock).Cramped := by
  obtain ⟨sts', b', hrun', -, h⟩ := (refines_create hsize hcreate).run ops
  obtain ⟨rfl, rfl⟩ := Prod.mk.inj (Option.some.inj (hrun.symm.trans hrun'))
  cases readOnly with
  | true => exact ⟨fun _ hcramped => Bool.noConfusion hcramped.1, fun _ => h.atomicAllocRow_readOnly⟩
  | false =>
    have hwritable : ({ b with readOnly := false } : SharedBlock) = b := by
      obtain ⟨A, L, rfl, -⟩ := h
      rfl
    rw [hwritable]
    exact h.atomicAllocRow_iff

end Atomic

theorem atomic_allocRow_4096 :
    ∃ b₀ sts b, SharedBlock.create 4096 = some (.ok b₀) ∧
      b₀.run [.setColumnNum 2, .allocRow] = some (sts, b) ∧
      (({ b with readOnly := false } : SharedBlock).AtomicAllocRow ↔
        ¬({ b with readOnly := false } : SharedBlock).Cramped) := by
  have hok : ((SharedBlock.create 4096).bind Except.toOption).isSome := by decide +kernel
  obtain ⟨b₀, hb₀⟩ := Option.isSome_iff_exists.mp hok
  obtain ⟨- | b₁, hcreate, ⟨⟩⟩ := Option.bind_eq_some_iff.mp hb₀
  obtain ⟨sts, b, hrun, -, -⟩ :=
    (refines_create (by decide) hcreate).run [.setColumnNum 2, .allocRow]
  exact ⟨b₀, sts, b, hcreate, hrun, atomic_allocRow_iff (by decide) hcreate hrun false⟩

/-- A new block of 440 bytes counts a row and returns `BAD_VALUE`. -/
theorem not_atomic_allocRow :
    ¬∀ (size : ℕ) (b₀ b : SharedBlock) (ops : List Op) (sts : List Status),
      SharedBlock.create size = some (.ok b₀) → b₀.run ops = some (sts, b) →
        b.AtomicAllocRow := by
  intro h
  have hok : ((SharedBlock.create 440).bind Except.toOption).any fun b =>
      b.allocRow.any fun r => r.1 = .badValue ∧ b.rowNum = some 0 ∧ r.2.rowNum = some 1 := by
    decide +kernel
  obtain ⟨b, hb, hcall⟩ := (Option.any_eq_true _ _).mp hok
  obtain ⟨- | b₁, hcreate, ⟨⟩⟩ := Option.bind_eq_some_iff.mp hb
  obtain ⟨r, hr, hbad⟩ := (Option.any_eq_true _ _).mp hcall
  obtain ⟨hstatus, hbefore, hafter⟩ := of_decide_eq_true hbad
  obtain ⟨rows, cols, st, b', hrows, -, hcall', -, hfail⟩ := h 440 b b [] [] hcreate rfl
  obtain rfl := Option.some.inj (hr.symm.trans hcall')
  obtain rfl := Option.some.inj (hrows.symm.trans hbefore)
  have hfailed : st ≠ .ok := fun heq => Status.noConfusion (heq.symm.trans hstatus)
  have hsame := (hfail hfailed).1
  exact absurd (Option.some.inj (hafter.symm.trans hsame)) (by decide)

end Rust

end DataShare
