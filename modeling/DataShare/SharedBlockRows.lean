import DataShare.SharedBlockTable

/-!
# Rows of the shared block

`alloc_row`, `free_last_row`, `set_column_num`, `clear` and `create` keep `Inv` on a block
below 2 GiB. `alloc_row_offset` appends a group to the chain (`Chain.extend`), or reuses one
that `free_last_row` has left behind and cuts the chain after it (`Chain.truncate`), and
neither moves the row offset of an earlier row (`Grows`). `clear` and `create` start over with
an `EmptyHeader`.
-/

namespace DataShare

namespace Rust

open Arena

/-! ## Handing out bytes -/

theorem alignPadding_le (u : ℕ) : SharedBlock.alignPadding u ≤ 3 :=
  Nat.le_of_lt_succ (Nat.mod_lt _ (by decide))

/-- The next multiple of 4. -/
def SharedBlock.alignUp (u : ℕ) : ℕ :=
  u + alignPadding u

/-- The `n` bytes at `a` above the break are reserved in `A'`. -/
structure Reserved (A : Arena Region) (a n : ℕ) (A' : Arena Region) : Prop where
  pos : 0 < a
  lt : a + n < A.mem.size
  brk_eq : A'.brk = A.brk
  brk_le : A'.brk ≤ a
  frame : Frame A A' (· = .header .unusedOffset)
  unused : Header A' .unusedOffset (a + n)

/-- `alloc` gives 0, or reserves `n` bytes. -/
theorem alloc_spec {A : Arena Region} (hsize : A.mem.size < 2 ^ 31)
    (hunused : Header A .unusedOffset A.brk) (hroom : A.brk < A.mem.size) (hpos : 0 < A.brk)
    (n : ℕ) (aligned : Bool) :
    (ofArena A).alloc n aligned = some (0, ofArena A) ∨
      ∃ a A', Reserved A a n A' ∧ (ofArena A).alloc n aligned = some (a, ofArena A') := by
  have hpad := alignPadding_le A.brk
  have hsz : (ofArena A).size = A.mem.size := rfl
  obtain ⟨a, ha, hle, hlt⟩ : ∃ a,
      (A.brk + if aligned then SharedBlock.alignPadding A.brk else 0) % 2 ^ 32 = a ∧
        A.brk ≤ a ∧ a < 2 ^ 32 := by
    refine ⟨_, rfl, ?_, Nat.mod_lt _ (by decide)⟩
    split <;> omega
  have halloc : (ofArena A).alloc n aligned =
      if a + n ≥ (ofArena A).size then some (0, ofArena A)
      else some (a, ofArena (A.write HeaderField.unusedOffset.offset
        (leBytes 4 ((a + n % 2 ^ 32) % 2 ^ 32)))) := by
    unfold SharedBlock.alloc
    rw [header_ofArena hunused (by omega)]
    simp only [Option.bind_eq_bind, Option.bind_some, ha, setHeader_ofArena hunused]
    rfl
  by_cases hn : a + n ≥ (ofArena A).size
  · exact .inl (halloc.trans (if_pos hn))
  · rw [if_neg hn, show (a + n % 2 ^ 32) % 2 ^ 32 = a + n by omega] at halloc
    exact .inr ⟨a, A.write HeaderField.unusedOffset.offset (leBytes 4 (a + n)),
      ⟨by omega, by omega, rfl, hle, hunused.frame_write _, hunused.write _⟩, halloc⟩

/-- The offset that an aligned `alloc` gives. -/
theorem alloc_aligned_fst {b b' : SharedBlock} {u n a : ℕ} (hu : b.header .unusedOffset = some u)
    (hlt : u < 2 ^ 31) (h : b.alloc n true = some (a, b')) :
    a = if SharedBlock.alignUp u + n ≥ b.size then 0 else SharedBlock.alignUp u := by
  have hpad := alignPadding_le u
  have hmod : (u + SharedBlock.alignPadding u) % 2 ^ 32 = SharedBlock.alignUp u :=
    Nat.mod_eq_of_lt (by omega)
  unfold SharedBlock.alloc at h
  simp only [hu, Option.bind_eq_bind, Option.bind_some, if_true, hmod] at h
  split at h
  · next hfull =>
    rw [if_pos hfull]
    exact (Prod.mk.inj (Option.some.inj h)).1.symm
  · next hroom =>
    rw [if_neg hroom]
    obtain ⟨b₁, -, hpure⟩ := Option.bind_eq_some_iff.mp h
    exact (Prod.mk.inj (Option.some.inj hpure)).1.symm

/-! ## Row groups -/

def Region.IsMeta : Region → Prop
  | header _ | next _ => True
  | _ => False

/-- What a new row offset leaves as it is. -/
structure Grows (A : Arena Region) (L : Layout) (rows : ℕ) (A' : Arena Region) (L' : Layout) :
    Prop where
  frame : Frame A A' Region.IsMeta
  slot : ∀ r < rows, L'.slot r = L.slot r

theorem Grows.refl (A : Arena Region) (L : Layout) (rows : ℕ) : Grows A L rows A L :=
  ⟨⟨rfl, fun h => h, fun _ h => h⟩, fun _ _ => rfl⟩

theorem Grows.trans {A A' A'' : Arena Region} {L L' L'' : Layout} {rows : ℕ}
    (h : Grows A L rows A' L') (h' : Grows A' L' rows A'' L'') : Grows A L rows A'' L'' :=
  ⟨(h.frame.trans h'.frame).mono fun _ hP => hP.elim id id,
    fun r hr => (h'.slot r hr).trans (h.slot r hr)⟩

/-- The cells of the rows so far. -/
theorem Inv.cell_of_grows {A A' : Arena Region} {L L' : Layout} {t : Table} (h : Inv A L t)
    (hgrows : Grows A L t.rowNums A' L') :
    ∀ r < t.rowNums, ∀ c < t.columnNums, ∃ d p, CellAt A' L' r c (t.cell r c) d p := by
  intro r hr c hc
  obtain ⟨d, p, hcell⟩ := h.cell r hr c hc
  exact ⟨d, p, hcell.frame hgrows.frame id id id (hgrows.slot r hr)⟩

namespace Layout

/-- Groups up to `k` only. -/
def truncate (L : Layout) (k : ℕ) : Layout :=
  { L with groups := k + 1 }

/-- One more group, at `a`. -/
def extend (L : Layout) (a : ℕ) : Layout where
  groups := L.groups + 1
  group := Function.update L.group L.groups a

theorem link_truncate_of_lt {L : Layout} {i k : ℕ} (hi : i < k) (hk : k < L.groups) :
    (L.truncate k).link i = L.link i := by
  have hlt : i + 1 < (L.truncate k).groups := Nat.succ_lt_succ hi
  rw [link, link, if_pos hlt, if_pos (by omega)]
  rfl

theorem link_truncate_self (L : Layout) (k : ℕ) : (L.truncate k).link k = 0 :=
  if_neg (Nat.lt_irrefl _)

theorem group_extend_of_lt {L : Layout} {a i : ℕ} (hi : i < L.groups) :
    (L.extend a).group i = L.group i :=
  Function.update_of_ne hi.ne _ _

theorem group_extend_self (L : Layout) (a : ℕ) : (L.extend a).group L.groups = a :=
  Function.update_self _ _ _

theorem link_extend_of_lt {L : Layout} {a i : ℕ} (hi : i + 1 < L.groups) :
    (L.extend a).link i = L.link i := by
  have hlt : i + 1 < (L.extend a).groups := Nat.lt_succ_of_lt hi
  rw [link, link, if_pos hlt, if_pos hi, group_extend_of_lt hi]

theorem link_extend_last {L : Layout} {a k : ℕ} (hk : k + 1 = L.groups) :
    (L.extend a).link k = a := by
  have hlt : k + 1 < (L.extend a).groups := hk ▸ Nat.lt_succ_self _
  rw [link, if_pos hlt, hk, group_extend_self]

theorem link_extend_self (L : Layout) (a : ℕ) : (L.extend a).link L.groups = 0 :=
  if_neg (Nat.lt_irrefl _)

theorem slot_extend {L : Layout} {a r : ℕ} (hr : r < rowOffsetsNum * L.groups) :
    (L.extend a).slot r = L.slot r := by
  rw [slot, slot, group_extend_of_lt (Nat.div_lt_of_lt_mul hr)]

end Layout

/-- Cut the chain after group `k`. -/
theorem Chain.truncate {A : Arena Region} {L : Layout} (h : Chain A L) {k : ℕ}
    (hk : k < L.groups) :
    Chain (A.write (L.group k + nextGroupField) (leBytes 4 0)) (L.truncate k) where
  size_ge := h.size_ge
  size_lt := h.size_lt
  brk_lt := h.brk_lt
  room _ := h.room (Nat.zero_lt_of_lt hk)
  groups_pos _ := Nat.succ_pos k
  group_zero := h.group_zero
  group_ge i hi := h.group_ge i (Nat.lt_of_lt_of_le hi hk)
  group_le i hi := h.group_le i (Nat.lt_of_lt_of_le hi hk)
  slots i hi := h.slots i (Nat.lt_of_lt_of_le hi hk)
  links i hi := by
    have hword := h.links i (Nat.lt_of_lt_of_le hi hk)
    rcases Nat.lt_succ_iff_lt_or_eq.mp hi with hlt | rfl
    · rw [L.link_truncate_of_lt hlt hk]
      exact ((h.links k hk).frame_write 0).pointsTo (by simp; omega) hword
    · rw [L.link_truncate_self]
      exact hword.write 0

/-- The owners of the bytes of group `k`. -/
def groupRegion (k j : ℕ) : Region :=
  if j < nextGroupField then .slot (rowOffsetsNum * k + j / 4) else .next k

theorem owned_groupRegion_slot {A : Arena Region} {a k j : ℕ} (hf : A.brk ≤ a)
    (hj : j < rowOffsetsNum) :
    (A.claim a sizeOfRowGroup (groupRegion k) hf).Owned (a + 4 * j) 4
      (.slot (rowOffsetsNum * k + j)) := by
  unfold rowOffsetsNum at hj
  refine owned_claim hf (by unfold sizeOfRowGroup; omega) fun i hi => ?_
  rw [groupRegion, if_pos (by unfold nextGroupField rowOffsetsNum; omega),
    show (4 * j + i) / 4 = j by omega]

theorem owned_groupRegion_next {A : Arena Region} {a k : ℕ} (hf : A.brk ≤ a) :
    (A.claim a sizeOfRowGroup (groupRegion k) hf).Owned (a + nextGroupField) 4 (.next k) :=
  owned_claim hf (by decide) fun i _ => if_neg (by omega)

/-- Append the group at `a` : link it to the last one, and end the chain there. -/
def addGroup (A : Arena Region) (L : Layout) (k a : ℕ) (hf : A.brk ≤ a) : Arena Region :=
  ((A.claim a sizeOfRowGroup (groupRegion L.groups) hf).write
    (L.group k + nextGroupField) (leBytes 4 a)).write (a + nextGroupField) (leBytes 4 0)

theorem Chain.frame_addGroup {A : Arena Region} {L : Layout} (h : Chain A L) {k a : ℕ}
    (hk : k + 1 = L.groups) (hf : A.brk ≤ a) :
    Frame A (addGroup A L k a hf) fun o => o = .next k ∨ o = .next L.groups := by
  have hlast : (A.claim a sizeOfRowGroup (groupRegion L.groups) hf).Word
      (L.group k + nextGroupField) (.next k) (L.link k) := (h.links k (by omega)).claim hf
  have hnew : ((A.claim a sizeOfRowGroup (groupRegion L.groups) hf).write
      (L.group k + nextGroupField) (leBytes 4 a)).Owned (a + nextGroupField) (leBytes 4 0).length
        (.next L.groups) := by
    rw [length_leBytes]
    exact owned_groupRegion_next hf
  exact (((frame_claim hf).trans (hlast.frame_write a)).trans (frame_write hnew)).mono
    fun _ hP => hP.imp_left fun hP => hP.resolve_left id

theorem Chain.extend {A : Arena Region} {L : Layout} (h : Chain A L) {k a : ℕ}
    (hk : k + 1 = L.groups) (hf : A.brk ≤ a) (hlt : a + sizeOfRowGroup < A.mem.size) :
    Chain (addGroup A L k a hf) (L.extend a) := by
  have hframe := h.frame_addGroup hk hf
  refine ⟨h.size_ge, h.size_lt, hlt.trans h.size_lt, fun _ => hlt, fun _ => Nat.succ_pos _, ?_,
    fun i hi => ?_, fun i hi => ?_, fun i hi j hj => ?_, fun i hi => ?_⟩
  · exact (L.group_extend_of_lt (by omega)).trans h.group_zero
  · rcases Nat.lt_succ_iff_lt_or_eq.mp hi with hi | rfl
    · rw [L.group_extend_of_lt hi]
      exact h.group_ge i hi
    · have hge := h.group_ge k (by omega)
      have hle := h.group_le k (by omega)
      rw [L.group_extend_self, ← hk, Nat.mul_succ]
      omega
  · rcases Nat.lt_succ_iff_lt_or_eq.mp hi with hi | rfl
    · rw [L.group_extend_of_lt hi]
      exact ((h.group_le i hi).trans hf).trans (Nat.le_add_right _ _)
    · rw [L.group_extend_self]
      rfl
  · rcases Nat.lt_succ_iff_lt_or_eq.mp hi with hi | rfl
    · rw [L.group_extend_of_lt hi]
      exact hframe.owned (h.slots i hi j hj)
    · rw [L.group_extend_self]
      exact owned_groupRegion_slot hf hj
  · -- the links before the last group, that of the last one, and that of the new one
    have hend : ((A.claim a sizeOfRowGroup (groupRegion L.groups) hf).write
        (L.group k + nextGroupField) (leBytes 4 a)).Owned (a + nextGroupField) (leBytes 4 0).length
          (.next L.groups) := by
      rw [length_leBytes]
      exact owned_groupRegion_next hf
    rcases Nat.lt_succ_iff_lt_or_eq.mp hi with hi | rfl
    · rw [L.group_extend_of_lt hi]
      rcases Nat.lt_or_ge (i + 1) L.groups with hlt' | hge
      · rw [L.link_extend_of_lt hlt']
        exact hframe.pointsTo (by simp; omega) (h.links i hi)
      · obtain rfl : i = k := by omega
        have hlast : (A.claim a sizeOfRowGroup (groupRegion L.groups) hf).Word
            (L.group i + nextGroupField) (.next i) (L.link i) := (h.links i hi).claim hf
        have hne : Region.next i ≠ .next L.groups := by
          simp
          omega
        rw [L.link_extend_last hk]
        exact (frame_write hend).pointsTo hne (hlast.write a)
    · rw [L.group_extend_self, L.link_extend_self]
      refine PointsTo.write_self hend ?_
      rw [length_leBytes]
      unfold nextGroupField rowOffsetsNum
      unfold sizeOfRowGroup at hlt
      exact (show a + 4 * 100 + 4 ≤ A.mem.size by omega)

/-! ## New rows -/

theorem Chain.brk_pos {A : Arena Region} {L : Layout} (h : Chain A L) (hL : 0 < L.groups) :
    0 < A.brk :=
  Nat.lt_of_lt_of_le (by unfold sizeOfRowGroup; omega) (h.group_le 0 hL)

/-- After `k + 1` full groups there is a next one, an old one or a new one, unless there is no
room for a new one. -/
theorem Base.nextGroup_spec {A : Arena Region} {L : Layout} {rows cols k : ℕ}
    (h : Base A L rows cols) (hk : k < L.groups) (hrows : rows ≤ rowOffsetsNum * (k + 1)) :
    ∃ A' L', Grows A L rows A' L' ∧ Base A' L' rows cols ∧
      ((ofArena A).nextGroup (L.group k) = some (none, ofArena A') ∧ k + 1 = L.groups ∧
          A.mem.size ≤ SharedBlock.alignUp A.brk + sizeOfRowGroup ∨
        k + 1 < L'.groups ∧
          (ofArena A).nextGroup (L.group k) = some (some (L'.group (k + 1)), ofArena A') ∧
          A'.brk = if k + 1 < L.groups then A.brk
            else SharedBlock.alignUp A.brk + sizeOfRowGroup) := by
  have hsize := h.size_lt
  have hlink := h.links k hk
  rcases Nat.lt_or_ge (k + 1) L.groups with hlt | hge
  · have hgroup := h.group_lt hlt
    have hpos := h.group_ge (k + 1) hlt
    have hlink' := h.links (k + 1) hlt
    have heq : L.link k = L.group (k + 1) := if_pos hlt
    have hload : (ofArena A).mem.loadU32 (L.group k + nextGroupField) = some (L.group (k + 1)) := by
      rw [← heq]
      exact hlink.loadU32 (by omega)
    have hne : L.group (k + 1) ≠ 0 := by
      unfold sizeOfHeader at hpos
      omega
    have hframe := hlink'.frame_write 0
    refine ⟨_, L.truncate (k + 1), ⟨hframe.mono ?_, fun _ _ => rfl⟩,
      h.ofChain hframe (fun _ => nofun) (h.truncate hlt) (hframe.pointsTo nofun h.unused) ?_,
      .inr ⟨Nat.lt_succ_self _, ?_, (if_pos hlt).symm⟩⟩
    · rintro _ rfl
      trivial
    · exact hrows.trans (Nat.mul_le_mul_left _ (Nat.le_succ _))
    · unfold SharedBlock.nextGroup
      simp only [Option.bind_eq_bind, Option.bind_some, hload, if_neg hne, Option.pure_def,
        offsetToPtr_ofArena hsize hgroup, storeU32_ofArena hlink'.bound]
      rfl
  · have hlast : k + 1 = L.groups := by omega
    have heq : L.link k = 0 := if_neg (by omega)
    have hload : (ofArena A).mem.loadU32 (L.group k + nextGroupField) = some 0 := by
      rw [← heq]
      exact hlink.loadU32 (by omega)
    have hunused := header_ofArena h.unused (h.brk_lt.trans (by decide))
    rcases alloc_spec hsize h.unused (h.room (by omega)) (h.brk_pos (by omega)) sizeOfRowGroup
      true with halloc | ⟨a, A₁, hres, halloc⟩
    · have hfull : A.mem.size ≤ SharedBlock.alignUp A.brk + sizeOfRowGroup := by
        have hzero := alloc_aligned_fst hunused h.brk_lt halloc
        split at hzero
        · assumption
        · have hpos := h.brk_pos (by omega)
          unfold SharedBlock.alignUp at hzero
          omega
      refine ⟨A, L, Grows.refl _ _ _, h, .inl ⟨?_, hlast, hfull⟩⟩
      unfold SharedBlock.nextGroup
      simp only [Option.bind_eq_bind, Option.bind_some, hload, if_true, halloc]
      rfl
    · have hat : a = SharedBlock.alignUp A.brk := by
        have hfst := alloc_aligned_fst hunused h.brk_lt halloc
        split at hfst
        · exact absurd hfst hres.pos.ne'
        · exact hfst
      obtain ⟨hpos, hlt, hbrk, hf, hframe, hunused⟩ := hres
      rw [← hframe.size] at hsize hlt
      have hchain := h.toChain.frame hframe (fun _ => nofun) hbrk.ge (hbrk ▸ h.brk_lt)
        fun hL => hbrk ▸ hframe.size ▸ h.room hL
      have hframe' := hchain.frame_addGroup hlast hf
      have hlink₁ := hchain.links k hk
      have hload' : (ofArena (A₁.write (L.group k + nextGroupField) (leBytes 4 a))).mem.loadU32
          (L.group k + nextGroupField) = some a := (hlink₁.write a).loadU32 (by omega)
      have hend : a + nextGroupField + 4 ≤ A₁.mem.size := by
        unfold nextGroupField rowOffsetsNum
        unfold sizeOfRowGroup at hlt
        omega
      refine ⟨_, L.extend a, ⟨(hframe.trans hframe').mono ?_, fun r hr => ?_⟩,
        h.ofChain (hframe.trans hframe') ?_ (hchain.extend hlast hf hlt)
          (hframe'.pointsTo (by simp) hunused) ?_,
        .inr ⟨hlast ▸ Nat.lt_succ_self _, ?_, ?_⟩⟩
      · rintro _ (rfl | rfl | rfl) <;> trivial
      · exact L.slot_extend (hr.trans_le h.rows_le)
      · rintro f (hP | hP | hP) <;> cases hP
        rfl
      · exact h.rows_le.trans (Nat.mul_le_mul_left _ (Nat.le_succ _))
      · have hgroup : (L.extend a).group (k + 1) = a := by rw [hlast, L.group_extend_self]
        rw [hgroup]
        unfold SharedBlock.nextGroup
        simp only [Option.bind_eq_bind, Option.bind_some, hload, if_true, halloc, if_neg hpos.ne',
          storeU32_ofArena hlink₁.bound, Option.pure_def, hload',
          offsetToPtr_ofArena (A := A₁.write _ _) hsize hlt,
          storeU32_ofArena (A := A₁.write _ _) hend]
        rfl
      · rw [if_neg (by omega), ← hat]
        rfl

theorem Base.countRow_eq {A : Arena Region} {L : Layout} {rows cols : ℕ} (h : Base A L rows cols)
    (groupPtr rowPos : ℕ) :
    (ofArena A).countRow groupPtr rowPos = some (some (groupPtr + 4 * rowPos),
      ofArena (A.write HeaderField.rowNums.offset (leBytes 4 (rows + 1)))) := by
  have hrows := h.rows_lt
  unfold SharedBlock.countRow
  rw [header_ofArena h.rowNums (by omega)]
  simp only [Option.bind_eq_bind, Option.bind_some, setHeader_ofArena h.rowNums,
    Nat.mod_eq_of_lt (show rows + 1 < 2 ^ 32 by omega)]
  rfl

theorem Base.grows_countRow {A : Arena Region} {L : Layout} {rows cols : ℕ}
    (h : Base A L rows cols) (m n : ℕ) :
    Grows A L m (A.write HeaderField.rowNums.offset (leBytes 4 n)) L := by
  refine ⟨(h.rowNums.frame_write n).mono ?_, fun _ _ => rfl⟩
  rintro _ rfl
  trivial

section AllocRowOffset

variable {b : SharedBlock} {rows off g₀ g q : ℕ} (hrows : b.header .rowNums = some rows)
  (hfirst : b.header .firstRowGroupOffset = some off)
  (hgroup : b.offsetToPtr off sizeOfRowGroup = some g₀)
  (hseek : b.seekGroup (rowOffsetsNum + 1) rows g₀ rows = some (some (g, q)))
include hrows hfirst hgroup hseek

/-- The group of the last row has room. -/
theorem SharedBlock.allocRowOffset_of_ne (hne : q ≠ rowOffsetsNum) :
    b.allocRowOffset = b.countRow g q := by
  unfold SharedBlock.allocRowOffset
  simp only [hrows, hfirst, hgroup, hseek, Option.bind_eq_bind, Option.bind_some, if_neg hne]

/-- It has none : the next group gets the row, if there is one. -/
theorem SharedBlock.allocRowOffset_of_full (hq : q = rowOffsetsNum)
    {next : Option ℕ × SharedBlock} (hnext : b.nextGroup g = some next)
    {res : Option ℕ × SharedBlock}
    (hres : (next.1.elim (some (none, next.2)) fun g' => next.2.countRow g' 0) = some res) :
    b.allocRowOffset = some res := by
  unfold SharedBlock.allocRowOffset
  simp only [hrows, hfirst, hgroup, hseek, Option.bind_eq_bind, Option.bind_some, if_pos hq, hnext]
  obtain ⟨_ | g', b'⟩ := next
  · exact hres
  · exact hres

end AllocRowOffset

/-- Where the row groups end once there is one for row `rows`. -/
def rowTop (A : Arena Region) (L : Layout) (rows : ℕ) : ℕ :=
  if rows = rowOffsetsNum * L.groups then SharedBlock.alignUp A.brk + sizeOfRowGroup else A.brk

/-- The row offset of a new row, or none if the block has no row group or no room for a new
one. -/
theorem Base.allocRowOffset_exact {A : Arena Region} {L : Layout} {rows cols : ℕ}
    (h : Base A L rows cols) : ∃ A' L', Grows A L rows A' L' ∧
      ((ofArena A).allocRowOffset = some (none, ofArena A') ∧ Base A' L' rows cols ∧
          ¬(0 < L.groups ∧ rowTop A L rows < A.mem.size) ∨
        (ofArena A).allocRowOffset = some (some (L'.slot rows), ofArena A') ∧
          Base A' L' (rows + 1) cols ∧ A'.brk = rowTop A L rows) := by
  have hlt := h.rows_lt
  have hle := h.rows_le
  have hrows := header_ofArena h.rowNums (by omega)
  have hfirst := header_ofArena h.first (by decide)
  rcases Nat.eq_zero_or_pos L.groups with h0 | hpos
  · have hnone : (ofArena A).offsetToPtr sizeOfHeader sizeOfRowGroup = none :=
      offsetToPtr_ofArena_none (not_lt.mp fun hsize => (h.groups_pos hsize).ne' h0)
    refine ⟨A, L, Grows.refl _ _ _, .inl ⟨?_, h, fun hroom => hroom.1.ne' h0⟩⟩
    unfold SharedBlock.allocRowOffset
    simp only [hrows, hfirst, Option.bind_eq_bind, Option.bind_some, hnone]
    rfl
  -- The loop stops at group `k` : the one of the last row, which may be full.
  obtain ⟨k, q, hkq, hq, hk, hstop⟩ : ∃ k q, rows = rowOffsetsNum * k + q ∧
      q < rowOffsetsNum + 1 ∧ k < L.groups ∧ (k = 0 ∨ rowOffsetsNum + 1 ≤ q + rowOffsetsNum) := by
    unfold rowOffsetsNum at hle ⊢
    exact ⟨(rows - 1) / 100, rows - 100 * ((rows - 1) / 100), by omega, by omega, by omega,
      by omega⟩
  have hseek := h.seekGroup_eq hq k rows 0 (by unfold rowOffsetsNum at hkq; omega) (by omega) hstop
  rw [← hkq, Nat.zero_add] at hseek
  have hgroup := h.firstGroup_eq hpos
  by_cases hfull : q = rowOffsetsNum
  · have hmul : rows = rowOffsetsNum * (k + 1) := by rw [hkq, hfull, Nat.mul_succ]
    obtain ⟨A', L', hgrows, hbase, ⟨hnext, hlast, hsize⟩ | ⟨hk', hnext, hbrk⟩⟩ :=
      h.nextGroup_spec hk hmul.le
    · have hnone : ¬(0 < L.groups ∧ rowTop A L rows < A.mem.size) := by
        rw [rowTop, if_pos (hlast ▸ hmul)]
        exact fun hroom => absurd hroom.2 (not_lt.mpr hsize)
      exact ⟨A', L', hgrows, .inl ⟨SharedBlock.allocRowOffset_of_full hrows hfirst hgroup hseek
        hfull hnext rfl, hbase, hnone⟩⟩
    · have htop : A'.brk = rowTop A L rows := by
        have hiff : rows = rowOffsetsNum * L.groups ↔ ¬k + 1 < L.groups := by
          rw [hmul]
          unfold rowOffsetsNum
          omega
        rw [hbrk, rowTop]
        by_cases hmore : k + 1 < L.groups
        · rw [if_pos hmore, if_neg fun heq => hiff.mp heq hmore]
        · rw [if_neg hmore, if_pos (hiff.mpr hmore)]
      have hslot : L'.slot rows = L'.group (k + 1) + 4 * 0 := by
        rw [Layout.slot, hmul, Nat.mul_div_cancel_left _ (by decide), Nat.mul_mod_right]
      refine ⟨_, L', hgrows.trans (hbase.grows_countRow _ _),
        .inr ⟨?_, hbase.write_rowNums ?_, htop⟩⟩
      · rw [hslot]
        exact SharedBlock.allocRowOffset_of_full hrows hfirst hgroup hseek hfull hnext
          (hbase.countRow_eq _ _)
      · rw [hmul]
        unfold rowOffsetsNum
        omega
  · have hslot : L.slot rows = L.group k + 4 * q := by
      rw [Layout.slot, hkq, Nat.mul_add_div (by decide), Nat.mul_add_mod,
        Nat.div_eq_of_lt (by omega), Nat.mod_eq_of_lt (by omega), Nat.add_zero]
    have htop : A.brk = rowTop A L rows := by
      rw [rowTop, if_neg]
      unfold rowOffsetsNum at *
      omega
    refine ⟨_, L, h.grows_countRow _ _, .inr ⟨?_, h.write_rowNums ?_, htop⟩⟩
    · rw [hslot, SharedBlock.allocRowOffset_of_ne hrows hfirst hgroup hseek hfull]
      exact h.countRow_eq _ _
    · unfold rowOffsetsNum at *
      omega

/-- The row offset of a new row, or none. -/
theorem Base.allocRowOffset_spec {A : Arena Region} {L : Layout} {rows cols : ℕ}
    (h : Base A L rows cols) : ∃ A' L', Grows A L rows A' L' ∧
      ((ofArena A).allocRowOffset = some (none, ofArena A') ∧ Base A' L' rows cols ∨
        (ofArena A).allocRowOffset = some (some (L'.slot rows), ofArena A') ∧
          Base A' L' (rows + 1) cols) := by
  obtain ⟨A', L', hgrows, ⟨hoff, hbase, -⟩ | ⟨hoff, hbase, -⟩⟩ := h.allocRowOffset_exact
  · exact ⟨A', L', hgrows, .inl ⟨hoff, hbase⟩⟩
  · exact ⟨A', L', hgrows, .inr ⟨hoff, hbase⟩⟩

/-- Write the reserved bytes and hand them out. -/
def fill (A : Arena Region) (a n : ℕ) (bs : List UInt8) (f : ℕ → Region) (hf : A.brk ≤ a) :
    Arena Region :=
  (A.write a bs).claim a n f hf

theorem pointsTo_fill {A : Arena Region} {a : ℕ} {o : Region} {bs : List UInt8} (hf : A.brk ≤ a)
    (hlt : a + bs.length < A.mem.size) :
    (fill A a bs.length bs (fun _ => o) hf).PointsTo a o bs :=
  ⟨owned_claim_self (A := A.write a bs) hf, Memory.holds_write hlt.le⟩

section Fill

variable {A A' : Arena Region} {L : Layout} {rows cols a n : ℕ}

theorem Reserved.frame_fill (h : Reserved A a n A') (bs : List UInt8) (f : ℕ → Region) :
    Frame A (fill A' a n bs f h.brk_le) (· = .header .unusedOffset) :=
  ((h.frame.trans (frame_write_fresh bs h.brk_le)).trans
    (frame_claim (A := A'.write a bs) h.brk_le)).mono fun _ hP => (hP.resolve_right id).resolve_right id

theorem Base.fill (h : Base A L rows cols) (hres : Reserved A a n A') (bs : List UInt8)
    (f : ℕ → Region) : Base (fill A' a n bs f hres.brk_le) L rows cols := by
  have hframe := hres.frame_fill bs f
  have hlt := hres.lt
  have hle := hres.brk_le
  have hbrk := hres.brk_eq
  have hunused : Header (Rust.fill A' a n bs f hle) .unusedOffset (a + n) :=
    (hres.unused.write_fresh hle).claim hle
  refine h.ofChain hframe (by simp) (h.toChain.frame hframe (by simp) ?_ ?_ ?_) hunused h.rows_le
  · show A.brk ≤ a + n
    omega
  · exact hlt.trans h.size_lt
  · exact fun _ => hframe.size ▸ hlt

end Fill

/-- The owners of the bytes of the directory of a row. -/
def dirRegion (r j : ℕ) : Region :=
  .cell r (j / sizeOfCellUnit)

/-- A cell of a zeroed directory. -/
theorem cell_fill_dir {A : Arena Region} {a cols r c : ℕ} (hf : A.brk ≤ a) (hc : c < cols)
    (hlt : a + cols * sizeOfCellUnit < A.mem.size) :
    (fill A a (cols * sizeOfCellUnit) (List.replicate (cols * sizeOfCellUnit) 0) (dirRegion r)
      hf).PointsTo (a + c * sizeOfCellUnit) (.cell r c) (Cell.null.encode 0) := by
  obtain ⟨m, rfl⟩ : ∃ m, cols = c + (1 + m) := ⟨cols - c - 1, by omega⟩
  have hsplit : List.replicate ((c + (1 + m)) * sizeOfCellUnit) (0 : UInt8) =
      List.replicate (c * sizeOfCellUnit) 0 ++
        (Cell.null.encode 0 ++ List.replicate (m * sizeOfCellUnit) 0) := by
    have hnull : Cell.null.encode 0 = List.replicate (1 * sizeOfCellUnit) 0 := by decide
    rw [hnull, List.replicate_append_replicate, List.replicate_append_replicate, ← Nat.add_mul,
      ← Nat.add_mul]
  refine ⟨?_, ?_⟩
  · rw [Cell.length_encode]
    refine owned_claim hf ?_ fun i hi => ?_
    · rw [← Nat.succ_mul]
      exact Nat.mul_le_mul_right _ (by omega)
    · rw [dirRegion, Nat.add_comm, Nat.add_mul_div_right _ _ (by decide), Nat.div_eq_of_lt hi,
        Nat.zero_add]
  · have hpart : ((A.mem.write a (List.replicate ((c + (1 + m)) * sizeOfCellUnit) 0))).Holds a
        (List.replicate (c * sizeOfCellUnit) 0 ++
          (Cell.null.encode 0 ++ List.replicate (m * sizeOfCellUnit) 0)) := by
      rw [← hsplit]
      exact Memory.holds_write (by rw [List.length_replicate]; exact hlt.le)
    have hcell := hpart.part
    rw [List.length_replicate] at hcell
    exact hcell

theorem Base.uncountRow_spec {A : Arena Region} {L : Layout} {rows cols : ℕ}
    (h : Base A L rows cols) : ∃ A', (ofArena A).uncountRow = some (ofArena A') ∧
      Base A' L (rows - 1) cols ∧ ∀ m, Grows A L m A' L := by
  have hrows := h.rows_lt
  have hle := h.rows_le
  have hcount : (ofArena A).uncountRow =
      if rows > 0 then (ofArena A).setHeader .rowNums (rows - 1) else some (ofArena A) := by
    unfold SharedBlock.uncountRow
    rw [header_ofArena h.rowNums (by omega)]
    rfl
  rw [setHeader_ofArena h.rowNums] at hcount
  rcases Nat.eq_zero_or_pos rows with rfl | hpos
  · exact ⟨A, hcount, h, Grows.refl A L⟩
  · rw [if_pos hpos] at hcount
    exact ⟨_, hcount, h.write_rowNums (by omega), fun m => h.grows_countRow m _⟩

theorem Base.slot_owned {A : Arena Region} {L : Layout} {rows cols r : ℕ} (h : Base A L rows cols)
    (hr : r < rows) : A.Owned (L.slot r) 4 (.slot r) := by
  have hk : r / rowOffsetsNum < L.groups := Nat.div_lt_of_lt_mul (hr.trans_le h.rows_le)
  have hslot := h.slots _ hk _ (Nat.mod_lt r (by decide))
  rwa [Nat.div_add_mod] at hslot

theorem Base.slot_bound {A : Arena Region} {L : Layout} {rows cols r : ℕ} (h : Base A L rows cols)
    (hr : r < rows) : L.slot r + 4 ≤ A.mem.size := by
  have hgroup := h.group_lt (Nat.div_lt_of_lt_mul (hr.trans_le h.rows_le))
  have hmod : r % rowOffsetsNum < rowOffsetsNum := Nat.mod_lt _ (by decide)
  unfold Layout.slot
  unfold rowOffsetsNum at *
  unfold sizeOfRowGroup at hgroup
  omega

/-- Point the row offset of the last row to its directory. -/
theorem Base.write_slot {A : Arena Region} {L : Layout} {rows cols : ℕ}
    (h : Base A L (rows + 1) cols) (a : ℕ) :
    Frame A (A.write (L.slot rows) (leBytes 4 a)) (· = .slot rows) ∧
      (A.write (L.slot rows) (leBytes 4 a)).Word (L.slot rows) (.slot rows) a ∧
        Base (A.write (L.slot rows) (leBytes 4 a)) L (rows + 1) cols := by
  have howned : A.Owned (L.slot rows) (leBytes 4 a).length (.slot rows) := by
    rw [length_leBytes]
    exact h.slot_owned (Nat.lt_succ_self rows)
  have hframe := frame_write howned
  refine ⟨hframe, PointsTo.write_self howned ?_, h.frame hframe (by simp) (by simp) rfl⟩
  rw [length_leBytes]
  exact h.slot_bound (Nat.lt_succ_self rows)

/-- `alloc_row` finds no room, or it gives the row a zeroed directory at `a`. Without columns that
is empty, and need not have room for a cell. -/
theorem Base.allocRow_spec {A : Arena Region} {L : Layout} {rows cols : ℕ} (h : Base A L rows cols) :
    ∃ A₁ L₁, Grows A L rows A₁ L₁ ∧
      ((ofArena A).allocRow = some (.noMemory, ofArena A₁) ∧ Base A₁ L₁ rows cols ∨
        Base A₁ L₁ (rows + 1) cols ∧
          ∃ a A₂, ∃ hres : Reserved A₁ a (cols * sizeOfCellUnit) A₂,
            (ofArena A).allocRow = some (.ok, ofArena
              ((Rust.fill A₂ a (cols * sizeOfCellUnit)
                (List.replicate (cols * sizeOfCellUnit) 0) (dirRegion rows) hres.brk_le).write
                  (L₁.slot rows) (leBytes 4 a))) ∨
            cols = 0 ∧ (ofArena A).allocRow = some (.badValue, ofArena A₂)) := by
  obtain ⟨A₁, L₁, hgrows, ⟨hoff, hbase⟩ | ⟨hoff, hbase⟩⟩ := h.allocRowOffset_spec
  · refine ⟨A₁, L₁, hgrows, .inl ⟨?_, hbase⟩⟩
    unfold SharedBlock.allocRow
    rw [if_neg (by simp [ofArena]), hoff]
    rfl
  have hpos : 0 < L₁.groups := hbase.groups_pos_of_lt (Nat.lt_succ_self _)
  have hcols := hbase.cols_le
  unfold colMaxNum at hcols
  have hsize := hbase.size_lt
  have hcolNums := header_ofArena hbase.columnNums (by omega)
  rcases alloc_spec hsize hbase.unused (hbase.room hpos) (hbase.brk_pos hpos)
    (cols * sizeOfCellUnit) true with halloc | ⟨a, A₂, hres, halloc⟩
  · obtain ⟨A₂, huncount, hbase', hgrows'⟩ := hbase.uncountRow_spec
    refine ⟨A₂, L₁, hgrows.trans (hgrows' _), .inl ⟨?_, hbase'⟩⟩
    unfold SharedBlock.allocRow
    rw [if_neg (by simp [ofArena]), hoff]
    simp only [Option.bind_eq_bind, Option.bind_some, hcolNums, halloc, if_true,
      huncount]
    rfl
  refine ⟨A₁, L₁, hgrows, .inr ⟨hbase, a, A₂, hres, ?_⟩⟩
  have hlt := hres.lt
  rw [← hres.frame.size] at hsize hlt
  by_cases hfit : a + sizeOfCellUnit < A₂.mem.size
  · have hfill := hbase.fill hres (List.replicate (cols * sizeOfCellUnit) 0) (dirRegion rows)
    obtain ⟨-, hslot, -⟩ := hfill.write_slot a
    have hzeros : a + (List.replicate (cols * sizeOfCellUnit) (0 : UInt8)).length ≤
        A₂.mem.size := by
      rw [List.length_replicate]
      exact hlt.le
    have hstore := storeU32_ofArena
      (A := A₂.write a (List.replicate (cols * sizeOfCellUnit) 0)) hslot.bound a
    refine .inl ?_
    unfold SharedBlock.allocRow
    rw [if_neg (by simp [ofArena]), hoff]
    simp only [Option.bind_eq_bind, Option.bind_some, hcolNums, halloc, if_neg hres.pos.ne',
      offsetToPtr_ofArena hsize hfit, store_ofArena hzeros, hstore]
    rfl
  · have hzero : cols = 0 := by
      rcases Nat.eq_zero_or_pos cols with h0 | h0
      · exact h0
      · have := Nat.le_mul_of_pos_left sizeOfCellUnit h0
        omega
    refine .inr ⟨hzero, ?_⟩
    unfold SharedBlock.allocRow
    rw [if_neg (by simp [ofArena]), hoff]
    simp only [Option.bind_eq_bind, Option.bind_some, hcolNums, halloc, if_neg hres.pos.ne',
      offsetToPtr_ofArena_none (not_lt.mp hfit)]
    rfl

/-- A new row has null cells, and the other rows stay as they are. -/
theorem Inv.allocRow {A : Arena Region} {L : Layout} {t : Table} (h : Inv A L t) :
    ∃ st A' L', (ofArena A).allocRow = some (st, ofArena A') ∧ Inv A' L' (t.step .allocRow st) := by
  obtain ⟨A₁, L₁, hgrows, ⟨hcall, hbase⟩ | ⟨hbase, a, A₂, hres, hcall⟩⟩ := h.base.allocRow_spec
  · exact ⟨.noMemory, A₁, L₁, hcall, hbase, h.cell_of_grows hgrows⟩
  have hlt := hres.lt
  rw [← hres.frame.size] at hlt
  rcases hcall with hcall | ⟨hzero, hcall⟩
  · have hfill := hbase.fill hres (List.replicate (t.columnNums * sizeOfCellUnit) 0)
      (dirRegion t.rowNums)
    have hframe := hres.frame_fill (List.replicate (t.columnNums * sizeOfCellUnit) 0)
      (dirRegion t.rowNums)
    obtain ⟨hframe', hslot, hbase'⟩ := hfill.write_slot a
    refine ⟨.ok, _, L₁, hcall, hbase', fun r hr c hc => ?_⟩
    rcases Nat.lt_succ_iff_lt_or_eq.mp hr with hr | rfl
    · obtain ⟨d, p, hcell⟩ := h.cell_of_grows hgrows r hr c hc
      have hstep : (t.step .allocRow .ok).cell r c = t.cell r c := if_neg hr.ne
      rw [hstep]
      exact ⟨d, p, (hcell.frame hframe (by simp) (by simp) (by simp) rfl).frame hframe'
        (by simpa using hr.ne) (by simp) (by simp) rfl⟩
    · have hstep : (t.step .allocRow .ok).cell t.rowNums c = .null := if_pos rfl
      have hle : (c + 1) * sizeOfCellUnit ≤ t.columnNums * sizeOfCellUnit :=
        Nat.mul_le_mul_right _ hc
      have hbound : a + (c + 1) * sizeOfCellUnit < A₂.mem.size := by omega
      rw [hstep]
      exact ⟨a, 0, hslot, hbound, hframe'.pointsTo (by simp) (cell_fill_dir hres.brk_le hc hlt),
        pointsTo_nil _ _, Nat.zero_lt_of_lt hbound⟩
  · -- The directory is empty : the row has no cells.
    have hfill : Base _ _ (t.rowNums + 1) _ := hbase.fill hres [] (dirRegion t.rowNums)
    refine ⟨.badValue, _, L₁, ?_, hfill, fun r hr c hc => ?_⟩
    · simp only [hcall, fill, Arena.write, Memory.write_nil]
      rfl
    · rw [show (t.step .allocRow .badValue).columnNums = 0 from hzero] at hc
      omega

theorem Inv.freeLastRow {A : Arena Region} {L : Layout} {t : Table} (h : Inv A L t) :
    ∃ st A' L', (ofArena A).freeLastRow = some (st, ofArena A') ∧
      Inv A' L' (t.step .freeLastRow st) := by
  obtain ⟨A', huncount, hbase, hgrows⟩ := h.base.uncountRow_spec
  refine ⟨.ok, A', L, ?_, hbase, fun r hr c hc => ?_⟩
  · unfold SharedBlock.freeLastRow
    rw [if_neg (by simp [ofArena]), huncount]
    rfl
  · exact h.cell_of_grows (hgrows _) r (Nat.lt_of_lt_of_le hr (Nat.sub_le _ _)) c hc

theorem Inv.setColumnNum_eq {A : Arena Region} {L : Layout} {t : Table} (h : Inv A L t) (n : ℕ) :
    (ofArena A).setColumnNum n =
      if (t.columnNums > 0 ∨ t.rowNums > 0) ∧ t.columnNums ≠ n then
        some (.invalidOperation, ofArena A)
      else if n > colMaxNum then some (.invalidOperation, ofArena A)
      else some (.ok, ofArena (A.write HeaderField.columnNums.offset (leBytes 4 n))) := by
  have hrows := h.base.rows_lt
  have hcols := h.base.cols_le
  unfold colMaxNum at hcols
  unfold SharedBlock.setColumnNum
  rw [if_neg (by simp [ofArena]), header_ofArena h.base.columnNums (by omega),
    header_ofArena h.base.rowNums (by omega)]
  simp only [Option.bind_eq_bind, Option.bind_some, setHeader_ofArena h.base.columnNums]
  rfl

/-- The number of columns changes only while there are no rows. -/
theorem Inv.setColumnNum {A : Arena Region} {L : Layout} {t : Table} (h : Inv A L t) (n : ℕ) :
    ∃ st A' L', (ofArena A).setColumnNum n = some (st, ofArena A') ∧
      Inv A' L' (t.step (.setColumnNum n) st) := by
  have hset := h.setColumnNum_eq n
  split at hset
  · exact ⟨_, A, L, hset, h⟩
  · rename_i hkeep
    split at hset
    · exact ⟨_, A, L, hset, h⟩
    · rename_i hle
      refine ⟨_, _, L, hset, h.base.write_columnNums (not_lt.mp hle), fun r hr c hc => ?_⟩
      have hr' : r < t.rowNums := hr
      have hc' : c < n := hc
      obtain ⟨d, p, hcell⟩ := h.cell r hr' c (by omega)
      exact ⟨d, p, hcell.frame (h.base.columnNums.frame_write n) (by simp) (by simp) (by simp) rfl⟩

/-! ## Empty blocks -/

/-- The field at a word of the header. -/
def fieldAt : ℕ → HeaderField
  | 0 => .unusedOffset
  | 1 => .firstRowGroupOffset
  | 2 => .rowNums
  | 3 => .columnNums
  | 4 => .startPos
  | 5 => .lastPos
  | _ => .blockPos

/-- The memory with the header handed out only. -/
def headerArena (m : Memory) : Arena Region where
  mem := m
  own x := if x < sizeOfHeader then some (.header (fieldAt (x / 4))) else none
  brk := sizeOfHeader
  own_lt x o h := by
    split at h
    · assumption
    · cases h

theorem owned_headerArena (m : Memory) (f : HeaderField) :
    (headerArena m).Owned f.offset 4 (.header f) := by
  intro i hi
  have hidx : f.ctorIdx < 7 := by cases f <;> decide
  have hfield : fieldAt f.ctorIdx = f := by cases f <;> rfl
  have hword : (f.offset + i) / 4 = f.ctorIdx := by
    unfold HeaderField.offset
    omega
  have hlt : f.offset + i < sizeOfHeader := by
    unfold sizeOfHeader HeaderField.offset
    omega
  exact (if_pos hlt).trans (by rw [hword, hfield])

/-- Write header fields in turn. -/
def writeHeaders (A : Arena Region) : List (HeaderField × ℕ) → Arena Region
  | [] => A
  | (f, v) :: fields => writeHeaders (A.write f.offset (leBytes 4 v)) fields

theorem frame_writeHeaders : ∀ {A : Arena Region} (fields : List (HeaderField × ℕ)),
    (∀ f, A.Owned f.offset 4 (.header f)) →
      Frame A (writeHeaders A fields) fun o => ∃ f ∈ fields.map Prod.fst, o = .header f
  | A, [], _ => ⟨rfl, fun h => h, fun _ h => h⟩
  | A, (f, v) :: fields, ho => by
    have hwrite : Frame A (A.write f.offset (leBytes 4 v)) (· = .header f) :=
      frame_write (by rw [length_leBytes]; exact ho f)
    refine (hwrite.trans (frame_writeHeaders fields ho)).mono ?_
    rintro o (rfl | ⟨g, hg, rfl⟩)
    · exact ⟨f, by simp, rfl⟩
    · exact ⟨g, List.mem_cons_of_mem _ hg, rfl⟩

theorem header_writeHeaders {f : HeaderField} {v : ℕ} : ∀ {A : Arena Region}
    {fields : List (HeaderField × ℕ)}, (∀ f, A.Owned f.offset 4 (.header f)) →
      sizeOfHeader ≤ A.mem.size → (fields.map Prod.fst).Nodup → (f, v) ∈ fields →
        Header (writeHeaders A fields) f v
  | A, (g, w) :: fields, ho, hsize, hnodup, hmem => by
    rw [List.map_cons, List.nodup_cons] at hnodup
    rcases List.mem_cons.mp hmem with heq | hmem
    · cases heq
      have hoffset : f.offset + 4 ≤ sizeOfHeader := by cases f <;> decide
      have hself : Header (A.write f.offset (leBytes 4 v)) f v :=
        PointsTo.write_self (by rw [length_leBytes]; exact ho f)
          (by rw [length_leBytes]; exact hoffset.trans hsize)
      refine (frame_writeHeaders (A := A.write f.offset _) fields ho).pointsTo ?_ hself
      rintro ⟨f', hf', heq⟩
      cases heq
      exact hnodup.1 hf'
    · exact header_writeHeaders (A := A.write g.offset (leBytes 4 w)) ho hsize hnodup.2 hmem

/-- The header of an empty block, as `resetHeader` writes it. -/
def resetFields : List (HeaderField × ℕ) :=
  [(.unusedOffset, sizeOfHeader + sizeOfRowGroup), (.firstRowGroupOffset, sizeOfHeader),
    (.rowNums, 0), (.columnNums, 0), (.startPos, 0), (.lastPos, 0), (.blockPos, 0)]

theorem resetHeader_eq {A : Arena Region} (hsize : sizeOfHeader ≤ A.mem.size) :
    (ofArena A).resetHeader = some (ofArena (writeHeaders A resetFields)) := by
  unfold SharedBlock.resetHeader
  have hstep : ∀ {A' : Arena Region} (f : HeaderField) (v : ℕ)
      (k : SharedBlock → Option SharedBlock), sizeOfHeader ≤ A'.mem.size →
        ((ofArena A').setHeader f v >>= k) = k (ofArena (A'.write f.offset (leBytes 4 v))) :=
    fun f v k h => by rw [setHeader_of_le h]; rfl
  rw [hstep, hstep, hstep, hstep, hstep, hstep]
  · exact setHeader_of_le (by exact hsize) _ _
  all_goals exact hsize

/-- The header of an empty block, and nothing handed out after it. -/
structure EmptyHeader (A : Arena Region) : Prop where
  brk_eq : A.brk = sizeOfHeader
  header : ∀ f v, (f, v) ∈ resetFields → Header A f v

theorem inv_empty {A : Arena Region} {L : Layout} (h : Base A L 0 0) : Inv A L .empty :=
  ⟨h, nofun⟩

namespace EmptyHeader

variable {A : Arena Region}

theorem unused (h : EmptyHeader A) : Header A .unusedOffset (sizeOfHeader + sizeOfRowGroup) :=
  h.header _ _ (by decide)

theorem first (h : EmptyHeader A) : Header A .firstRowGroupOffset sizeOfHeader :=
  h.header _ _ (by decide)

theorem rowNums (h : EmptyHeader A) : Header A .rowNums 0 :=
  h.header _ _ (by decide)

theorem columnNums (h : EmptyHeader A) : Header A .columnNums 0 :=
  h.header _ _ (by decide)

/-- With the first row group. -/
theorem inv (h : EmptyHeader A) (hsize : A.mem.size < 2 ^ 31)
    (hgroup : sizeOfHeader + sizeOfRowGroup < A.mem.size) :
    Inv ((A.claim sizeOfHeader sizeOfRowGroup (groupRegion 0) h.brk_eq.le).write
      (sizeOfHeader + nextGroupField) (leBytes 4 0)) ⟨1, fun _ => sizeOfHeader⟩ .empty := by
  have hnext : (A.claim sizeOfHeader sizeOfRowGroup (groupRegion 0) h.brk_eq.le).Owned
      (sizeOfHeader + nextGroupField) (leBytes 4 0).length (.next 0) := by
    rw [length_leBytes]
    exact owned_groupRegion_next h.brk_eq.le
  have hframe := (frame_claim h.brk_eq.le).trans (frame_write hnext)
  have hlink : Layout.link ⟨1, fun _ => sizeOfHeader⟩ 0 = 0 := rfl
  refine inv_empty
    { size_ge := (Nat.le_add_right _ _).trans hgroup.le
      size_lt := hsize
      brk_lt := (by decide : sizeOfHeader + sizeOfRowGroup < 2 ^ 31)
      room := fun _ => hgroup
      groups_pos := fun _ => Nat.zero_lt_one
      group_zero := rfl
      group_ge := fun i hi => ?_
      group_le := fun _ _ => le_rfl
      slots := fun i hi j hj => ?_
      links := fun i hi => ?_
      unused := hframe.pointsTo (by simp) h.unused
      first := hframe.pointsTo (by simp) h.first
      rowNums := hframe.pointsTo (by simp) h.rowNums
      columnNums := hframe.pointsTo (by simp) h.columnNums
      cols_le := Nat.zero_le _
      rows_le := Nat.zero_le _ }
  all_goals obtain rfl : i = 0 := Nat.lt_one_iff.mp hi
  · exact le_rfl
  · exact owned_groupRegion_slot h.brk_eq.le hj
  · rw [hlink]
    refine .write_self hnext ?_
    rw [length_leBytes]
    exact (show _ ≤ sizeOfHeader + sizeOfRowGroup by decide).trans hgroup.le

/-- Without room for a row group. -/
theorem inv_small (h : EmptyHeader A) (hsize : sizeOfHeader ≤ A.mem.size)
    (hgroup : A.mem.size ≤ sizeOfHeader + sizeOfRowGroup) :
    Inv (A.claim sizeOfHeader sizeOfRowGroup (groupRegion 0) h.brk_eq.le)
      ⟨0, fun _ => sizeOfHeader⟩ .empty :=
  inv_empty
    { size_ge := hsize
      size_lt := hgroup.trans_lt (by decide)
      brk_lt := (by decide : sizeOfHeader + sizeOfRowGroup < 2 ^ 31)
      room := nofun
      groups_pos := fun hlt => absurd hlt hgroup.not_gt
      group_zero := rfl
      group_ge := nofun
      group_le := nofun
      slots := nofun
      links := nofun
      unused := PointsTo.claim h.unused h.brk_eq.le
      first := PointsTo.claim h.first h.brk_eq.le
      rowNums := PointsTo.claim h.rowNums h.brk_eq.le
      columnNums := PointsTo.claim h.columnNums h.brk_eq.le
      cols_le := Nat.zero_le _
      rows_le := Nat.zero_le _ }

end EmptyHeader

/-- The header may be reset over any memory. -/
theorem resetHeader_spec {m : Memory} (hsize : sizeOfHeader ≤ m.size) :
    ∃ A : Arena Region, A.mem.size = m.size ∧
      SharedBlock.resetHeader ⟨m.size, false, m⟩ = some (ofArena A) ∧ EmptyHeader A := by
  have ho := owned_headerArena m
  refine ⟨writeHeaders (headerArena m) resetFields, (frame_writeHeaders _ ho).size,
    resetHeader_eq (A := headerArena m) hsize, rfl, fun f v hmem => ?_⟩
  exact header_writeHeaders ho hsize (by decide) hmem

/-- `clear` makes an empty table of any memory. -/
theorem clear_spec {m : Memory} (hge : sizeOfHeader ≤ m.size) (hlt : m.size < 2 ^ 31) :
    ∃ st A L, SharedBlock.clear ⟨m.size, false, m⟩ = some (st, ofArena A) ∧ Inv A L .empty := by
  obtain ⟨A₁, hmem, hreset, hempty⟩ := resetHeader_spec hge
  rw [← hmem] at hge hlt
  have hfirst := header_ofArena hempty.first (by decide)
  rcases Nat.lt_or_ge (sizeOfHeader + sizeOfRowGroup) A₁.mem.size with hgroup | hgroup
  · have hstore := storeU32_ofArena (A := A₁) (a := sizeOfHeader + nextGroupField)
      ((show _ ≤ sizeOfHeader + sizeOfRowGroup by decide).trans hgroup.le) 0
    refine ⟨.ok, _, _, ?_, hempty.inv hlt hgroup⟩
    unfold SharedBlock.clear
    rw [if_neg (by simp)]
    refine (congrArg (Option.bind · _) hreset).trans ?_
    simp only [Option.bind_eq_bind, Option.bind_some, hfirst, offsetToPtr_ofArena hlt hgroup,
      hstore]
    rfl
  · refine ⟨.badValue, _, _, ?_, hempty.inv_small hge hgroup⟩
    unfold SharedBlock.clear
    rw [if_neg (by simp)]
    refine (congrArg (Option.bind · _) hreset).trans ?_
    simp only [Option.bind_eq_bind, Option.bind_some, hfirst, offsetToPtr_ofArena_none hgroup]
    rfl

theorem Inv.clear {A : Arena Region} {L : Layout} {t : Table} (h : Inv A L t) :
    ∃ st A' L', (ofArena A).clear = some (st, ofArena A') ∧ Inv A' L' (t.step .clear st) :=
  clear_spec h.base.size_ge h.base.size_lt

theorem createAshmemInstance_eq {size : ℕ} (hpos : 0 < size) (hsize : size < 2 ^ 31) :
    SharedBlock.createAshmemInstance (Int32.ofNat size) = some ⟨size, fun _ => 0⟩ := by
  have hint := Int32.toInt_ofNat_of_lt hsize
  have hlt : (0 : Int32) < Int32.ofNat size := by
    rw [Int32.lt_iff_toInt_lt, hint, Int32.toInt_zero]
    exact_mod_cast hpos
  rw [SharedBlock.createAshmemInstance, if_pos hlt, hint, Int.toNat_natCast]

/-- A new block stands for the empty table. -/
theorem create_spec {size : ℕ} (hge : sizeOfHeader ≤ size) (hsize : size < 2 ^ 31) :
    ∃ A L, SharedBlock.create size = some (.ok (ofArena A)) ∧ Inv A L .empty := by
  have hpos : 0 < size := Nat.lt_of_lt_of_le (by decide) hge
  obtain ⟨A₁, hmem, hreset, hempty⟩ := resetHeader_spec (m := ⟨size, fun _ => 0⟩) hge
  have hreset' : SharedBlock.resetHeader ⟨size, false, ⟨size, fun _ => 0⟩⟩ = some (ofArena A₁) :=
    hreset
  have hge' : sizeOfHeader ≤ A₁.mem.size := hmem ▸ hge
  have hsize' : A₁.mem.size < 2 ^ 31 := hmem ▸ hsize
  rcases Nat.lt_or_ge (sizeOfHeader + sizeOfRowGroup) A₁.mem.size with hgroup | hgroup
  · -- The first row group is zeroed before it is handed out.
    have hfresh := frame_write_fresh (List.replicate sizeOfRowGroup 0) hempty.brk_eq.le
    have hempty' : EmptyHeader (A₁.write sizeOfHeader (List.replicate sizeOfRowGroup 0)) :=
      ⟨hempty.brk_eq, fun f v hmem => hfresh.pointsTo id (hempty.header f v hmem)⟩
    have hlen : sizeOfHeader + (List.replicate sizeOfRowGroup (0 : UInt8)).length ≤ A₁.mem.size := by
      rw [List.length_replicate]
      exact hgroup.le
    have hzeros := store_ofArena hlen
    have hstore := storeU32_ofArena
      (A := A₁.write sizeOfHeader (List.replicate sizeOfRowGroup 0))
      (a := sizeOfHeader + nextGroupField)
      ((show _ ≤ sizeOfHeader + sizeOfRowGroup by decide).trans hgroup.le) 0
    refine ⟨_, _, ?_, hempty'.inv hsize' hgroup⟩
    unfold SharedBlock.create
    rw [createAshmemInstance_eq hpos hsize]
    simp only [Option.bind_eq_bind, Option.bind_some, if_neg hge.not_gt, hreset',
      offsetToPtr_ofArena hsize' hgroup, hzeros, hstore]
    rfl
  · refine ⟨_, _, ?_, hempty.inv_small hge' hgroup⟩
    unfold SharedBlock.create
    rw [createAshmemInstance_eq hpos hsize]
    simp only [Option.bind_eq_bind, Option.bind_some, if_neg hge.not_gt, hreset',
      offsetToPtr_ofArena_none hgroup]
    rfl

theorem create_eq_error {size : ℕ} (hlt : size < sizeOfHeader) :
    SharedBlock.create size = some (.error .ashmemError) := by
  unfold SharedBlock.create
  rcases Nat.eq_zero_or_pos size with rfl | hpos
  · rfl
  · rw [createAshmemInstance_eq hpos (hlt.trans (by decide))]
    exact if_pos hlt

end Rust

end DataShare
