import DataShare.CppResultSet

/-!
# Loads of the C++ shared block

Whatever a bridge writes, the block stays in its mapping (`keeps_fill`) : every function
of the block keeps it, step by step (`Keeps.bind`). So the block is `Writable` before each load,
and `Clear` and `SetColumnNum` hand an empty table to the bridge (`prepare_spec`).
-/

namespace DataShare

namespace Rust

/-! ## Calls keep the mapping -/

/-- The mapping is the same, its bytes may differ. -/
structure SameMapping (b b' : SharedBlock) : Prop where
  size : b'.size = b.size
  readOnly : b'.readOnly = b.readOnly
  mem : b'.mem.size = b.mem.size

theorem SameMapping.refl (b : SharedBlock) : SameMapping b b :=
  ⟨rfl, rfl, rfl⟩

theorem SameMapping.trans {b b₁ b₂ : SharedBlock} (h : SameMapping b b₁)
    (h' : SameMapping b₁ b₂) : SameMapping b b₂ :=
  ⟨h'.size.trans h.size, h'.readOnly.trans h.readOnly, h'.mem.trans h.mem⟩

/-- If `o` has a result, its block `get` is in the mapping of `b`. -/
def Keeps {α : Type} (b : SharedBlock) (get : α → SharedBlock) (o : Option α) : Prop :=
  ∀ x, o = some x → SameMapping b (get x)

namespace Keeps

variable {α β : Type} {b : SharedBlock} {get : α → SharedBlock} {get' : β → SharedBlock}

theorem pure {x : α} (h : SameMapping b (get x)) : Keeps b get (some x) := by
  rintro _ ⟨⟩
  exact h

theorem unchanged {b : SharedBlock} (y : β) : Keeps b Prod.snd (some (y, b)) :=
  pure (.refl b)

/-- A step that reads only. -/
theorem read {o : Option β} {f : β → Option α} (h : ∀ x, Keeps b get (f x)) :
    Keeps b get (o.bind f) := by
  intro y hy
  obtain ⟨x, -, hf⟩ := Option.bind_eq_some_iff.mp hy
  exact h x y hf

theorem ite {c : Prop} [Decidable c] {o o' : Option α} (h : Keeps b get o)
    (h' : Keeps b get o') : Keeps b get (if c then o else o') := by
  split
  · exact h
  · exact h'

theorem bind {o : Option β} {f : β → Option α} (h : Keeps b get' o)
    (hf : ∀ x, SameMapping b (get' x) → Keeps (get' x) get (f x)) : Keeps b get (o.bind f) := by
  intro y hy
  obtain ⟨x, hx, hfx⟩ := Option.bind_eq_some_iff.mp hy
  exact (h x hx).trans (hf x (h x hx) y hfx)

theorem store (b : SharedBlock) (a : ℕ) (bs : List UInt8) : Keeps b id (b.store a bs) := by
  unfold SharedBlock.store Memory.store
  split
  · exact pure ⟨rfl, rfl, rfl⟩
  · exact nofun

theorem storeU32 (b : SharedBlock) (a v : ℕ) : Keeps b id (b.storeU32 a v) :=
  store b a (leBytes 4 v)

end Keeps

namespace SharedBlock

variable (b : SharedBlock)

theorem keeps_alloc (size : ℕ) (aligned : Bool) : Keeps b Prod.snd (b.alloc size aligned) := by
  unfold alloc
  refine Keeps.read fun unusedOffset => ?_
  refine Keeps.ite (Keeps.unchanged _) ?_
  exact (Keeps.storeU32 b _ _).bind fun b' _ => Keeps.unchanged _

theorem keeps_nextGroup (groupPtr : ℕ) : Keeps b Prod.snd (b.nextGroup groupPtr) := by
  unfold nextGroup
  refine Keeps.read fun nextExisting => ?_
  extract_lets linked
  have hlinked : ∀ b', Keeps b' Prod.snd (linked (true, b')) := by
    refine fun b' => Keeps.read fun nextOff => ?_
    split
    · exact Keeps.unchanged _
    · exact (Keeps.storeU32 b' _ _).bind fun b'' _ => Keeps.unchanged _
  refine Keeps.ite ((keeps_alloc b _ _).bind fun r _ => ?_) (hlinked b)
  refine Keeps.ite (Keeps.unchanged _) ((Keeps.storeU32 r.2 _ _).bind fun b' _ => hlinked b')

theorem keeps_countRow (groupPtr rowPos : ℕ) :
    Keeps b Prod.snd (b.countRow groupPtr rowPos) := by
  unfold countRow
  refine Keeps.read fun rowNums => ?_
  exact (Keeps.storeU32 b _ _).bind fun b' _ => Keeps.unchanged _

theorem keeps_allocRowOffset : Keeps b Prod.snd b.allocRowOffset := by
  unfold allocRowOffset
  refine Keeps.read fun rowNums => Keeps.read fun firstOff => ?_
  split
  · exact Keeps.unchanged _
  refine Keeps.read fun found => ?_
  split
  · exact Keeps.unchanged _
  refine Keeps.ite ((keeps_nextGroup b _).bind fun r _ => ?_) (keeps_countRow b _ _)
  split
  · exact Keeps.unchanged _
  · exact keeps_countRow _ _ _

theorem keeps_uncountRow : Keeps b id b.uncountRow := by
  unfold uncountRow
  exact Keeps.read fun rowNums => Keeps.ite (Keeps.storeU32 b _ _) (Keeps.pure (.refl b))

theorem keeps_freeLastRow : Keeps b Prod.snd b.freeLastRow := by
  unfold freeLastRow
  exact Keeps.ite (Keeps.unchanged _) ((keeps_uncountRow b).bind fun b' _ => Keeps.unchanged _)

theorem keeps_putCell (row col cellType : ℕ) (value : List UInt8) :
    Keeps b Prod.snd (b.putCell row col cellType value) := by
  unfold putCell
  refine Keeps.ite (Keeps.unchanged _) (Keeps.read fun cellUnit => ?_)
  split
  · exact Keeps.unchanged _
  · exact (Keeps.store b _ _).bind fun b' _ => Keeps.unchanged _

theorem keeps_putBlobOrString (row col : ℕ) (data : List UInt8) (kind : ℕ) :
    Keeps b Prod.snd (b.putBlobOrString row col data kind) := by
  unfold putBlobOrString
  refine Keeps.ite (Keeps.unchanged _) (Keeps.read fun cellUnit => ?_)
  split
  · exact Keeps.unchanged _
  refine (keeps_alloc b _ _).bind fun r _ => Keeps.ite (Keeps.unchanged _) ?_
  split
  · exact Keeps.unchanged _
  extract_lets copied
  have hcopied : ∀ b', Keeps b' Prod.snd (copied b') := fun b' =>
    (Keeps.store b' _ _).bind fun b'' _ => Keeps.unchanged _
  exact Keeps.ite ((Keeps.store r.2 _ _).bind fun b' _ => hcopied b') (hcopied r.2)

end SharedBlock

end Rust

namespace Cpp

open Rust (Keeps SameMapping Refines Table HeaderField sizeOfHeader colMaxNum)

theorem keeps_allocRow (b : SharedBlock) : Keeps b Prod.snd (SharedBlock.allocRow b) := by
  unfold SharedBlock.allocRow
  refine Keeps.ite (Keeps.unchanged _) (b.keeps_allocRowOffset.bind fun r _ => ?_)
  split
  · exact Keeps.unchanged _
  refine Keeps.read fun columnNums => ?_
  refine (Rust.SharedBlock.keeps_alloc _ _ _).bind fun r _ => Keeps.ite ?_ ?_
  · exact Keeps.read fun rowNums => (Keeps.storeU32 r.2 _ _).bind fun b' _ => Keeps.unchanged _
  split
  · exact Keeps.unchanged _
  refine Keeps.ite (Keeps.unchanged _) ((Keeps.store r.2 _ _).bind fun b' _ => ?_)
  exact (Keeps.storeU32 b' _ _).bind fun b'' _ => Keeps.unchanged _

theorem keeps_write {b : SharedBlock} {put : ℕ → Option (Rust.Status × SharedBlock)}
    (h : ∀ row, Keeps b Prod.snd (put row)) :
    Keeps b Prod.snd (DataShareBlockWriterImpl.write b put) := by
  unfold DataShareBlockWriterImpl.write
  refine Keeps.read fun row => ?_
  split
  · exact Keeps.unchanged _
  · exact (h _).bind fun r _ => Keeps.unchanged _

theorem keeps_call (b : SharedBlock) (c : WriterCall) :
    Keeps b Prod.snd (DataShareBlockWriterImpl.call b c) := by
  cases c with
  | allocRow => exact (keeps_allocRow b).bind fun r _ => Keeps.unchanged _
  | freeLastRow => exact b.keeps_freeLastRow.bind fun r _ => Keeps.unchanged _
  | writeNull column => exact keeps_write fun row => b.keeps_putCell row column _ _
  | writeLong column value => exact keeps_write fun row => b.keeps_putCell row column _ _
  | writeDouble column value => exact keeps_write fun row => b.keeps_putCell row column _ _
  | writeBlob column value => exact keeps_write fun row => b.keeps_putBlobOrString row column _ _
  | writeString column value => exact keeps_write fun row => b.keeps_putBlobOrString row column _ _

theorem keeps_fill {σ : Type} : ∀ (b : SharedBlock) (prog : Fill σ),
    Keeps b (fun r => r.2.1) (prog.run b)
  | b, .done _ _ => Keeps.pure (.refl b)
  | b, .call c next => (keeps_call b c).bind fun r _ => keeps_fill r.2 (next r.1)

/-- A block in a mapping of its own size, below 2 GiB. -/
structure Writable (b : SharedBlock) : Prop where
  size_eq : b.size = b.mem.size
  writable : b.readOnly = false
  size_ge : sizeOfHeader ≤ b.mem.size
  size_lt : b.mem.size < 2 ^ 31

theorem Writable.keep {b b' : SharedBlock} (h : Writable b) (hsame : SameMapping b b') :
    Writable b' :=
  ⟨by rw [hsame.size, hsame.mem, h.size_eq], hsame.readOnly.trans h.writable,
    hsame.mem ▸ h.size_ge, hsame.mem ▸ h.size_lt⟩

theorem writable_ofRefines {b : SharedBlock} {t : Table} (h : Refines b t) : Writable b := by
  obtain ⟨A, L, rfl, hinv⟩ := h
  exact ⟨rfl, rfl, hinv.base.size_ge, hinv.base.size_lt⟩

/-- A new block has no rows. -/
theorem writable_of_create {size : ℕ} {b : SharedBlock} (hsize : size ≤ maxShareBlockSize)
    (h : SharedBlock.create size = .ok b) : Writable b ∧ b.rowNum = some 0 := by
  have hlt : size < 2 ^ 31 := hsize.trans_lt (by decide)
  unfold SharedBlock.create at h
  rcases Nat.eq_zero_or_pos size with rfl | hpos
  · cases h
  rw [Rust.createAshmemInstance_eq hpos hlt] at h
  dsimp only at h
  split at h
  · cases h
  · rename_i hge
    cases h
    have hrows : HeaderField.rowNums.offset + 4 ≤ size :=
      (by decide : HeaderField.rowNums.offset + 4 ≤ sizeOfHeader).trans (not_lt.mp hge)
    exact ⟨⟨rfl, rfl, not_lt.mp hge, hlt⟩, congrArg (Option.map leNat) (if_pos hrows)⟩

/-! ## Loads -/

/-- The block that `OnGo` hands to the bridge, for a number of columns. -/
def Prepared (columns : ℕ) (b : SharedBlock) : Prop :=
  Refines b { Table.empty with columnNums := if columns ≤ colMaxNum then columns else 0 }

/-- `Clear` and `SetColumnNum` prepare any block. -/
theorem prepare_spec {b : SharedBlock} (h : Writable b) (columns : ℕ) :
    ∃ st b₁ st' b₂, b.clear = some (st, b₁) ∧ b₁.setColumnNum columns = some (st', b₂) ∧
      Prepared columns b₂ := by
  obtain ⟨st, A, L, hclear, hinv⟩ := Rust.clear_spec h.size_ge h.size_lt
  have hb : (⟨b.mem.size, false, b.mem⟩ : SharedBlock) = b := by
    rw [← h.size_eq, ← h.writable]
  rw [hb] at hclear
  have hset := hinv.setColumnNum_eq columns
  have hzero : ¬((Table.empty.columnNums > 0 ∨ Table.empty.rowNums > 0) ∧
      Table.empty.columnNums ≠ columns) := fun hne => by
    rcases hne.1 with h0 | h0 <;> exact absurd h0 (lt_irrefl 0)
  rw [if_neg hzero] at hset
  by_cases hle : columns ≤ colMaxNum
  · rw [if_neg (not_lt.mpr hle)] at hset
    refine ⟨st, _, _, _, hclear, hset, _, L, rfl, ?_⟩
    rw [if_pos hle]
    exact ⟨hinv.base.write_columnNums hle, nofun⟩
  · rw [if_pos (not_le.mp hle)] at hset
    refine ⟨st, _, _, _, hclear, hset, _, L, rfl, ?_⟩
    rw [if_neg hle]
    exact hinv

end Cpp

end DataShare
