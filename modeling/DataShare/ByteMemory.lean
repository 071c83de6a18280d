import DataShare.ByteCodec
import Mathlib.Data.List.GetD

/-!
# Byte memory with owners

A `Memory` is a mapping of bytes with a size. An access outside of it is a fault, which is
`none`. An `Arena` adds what a proof knows about a memory that is handed out from below : every
byte below the break `brk` may have an owner, and nothing above it has one.

`PointsTo A a o bs` : the bytes at `a` are `bs` and belong to `o`. A write to the bytes of one
owner keeps what all the others point to (`PointsTo.write_other`), and so does a write
above the break (`PointsTo.write_fresh`). `Frame A A' P` says the same of a longer change,
which touches the owners in `P` only.
-/

namespace DataShare

structure Memory where
  size : ℕ
  byte : ℕ → UInt8

namespace Memory

/-! ## Accesses -/

/-- The `n` bytes at `a`. -/
def load (m : Memory) (a n : ℕ) : Option (List UInt8) :=
  if a + n ≤ m.size then some ((List.range' a n).map m.byte) else none

/-- The memory with `bs` at `a`. -/
def write (m : Memory) (a : ℕ) (bs : List UInt8) : Memory where
  size := m.size
  byte x := if a ≤ x then bs.getD (x - a) (m.byte x) else m.byte x

def store (m : Memory) (a : ℕ) (bs : List UInt8) : Option Memory :=
  if a + bs.length ≤ m.size then some (m.write a bs) else none

/-- A 32-bit word. -/
def loadU32 (m : Memory) (a : ℕ) : Option ℕ :=
  (m.load a 4).map leNat

def storeU32 (m : Memory) (a v : ℕ) : Option Memory :=
  m.store a (leBytes 4 v)

@[simp] theorem size_write (m : Memory) (a : ℕ) (bs : List UInt8) : (m.write a bs).size = m.size :=
  rfl

theorem store_of_le {m : Memory} {a : ℕ} {bs : List UInt8} (h : a + bs.length ≤ m.size) :
    m.store a bs = some (m.write a bs) :=
  if_pos h

theorem storeU32_of_le {m : Memory} {a v : ℕ} (h : a + 4 ≤ m.size) :
    m.storeU32 a v = some (m.write a (leBytes 4 v)) :=
  store_of_le (by rwa [length_leBytes])

theorem byte_write_of_lt {m : Memory} {a x : ℕ} {bs : List UInt8} (h : x < a) :
    (m.write a bs).byte x = m.byte x :=
  if_neg (by omega)

theorem byte_write_of_ge {m : Memory} {a x : ℕ} {bs : List UInt8} (h : a + bs.length ≤ x) :
    (m.write a bs).byte x = m.byte x := by
  unfold write
  dsimp only
  split
  · exact List.getD_eq_default _ _ (by omega)
  · rfl

theorem byte_write_add {m : Memory} {a i : ℕ} {bs : List UInt8} (h : i < bs.length) :
    (m.write a bs).byte (a + i) = bs[i] := by
  unfold write
  dsimp only
  rw [if_pos (by omega), Nat.add_sub_cancel_left, List.getD_eq_getElem _ _ h]

@[simp] theorem write_nil (m : Memory) (a : ℕ) : m.write a [] = m := by
  unfold write
  simp

/-! ## What a memory holds -/

/-- The bytes at `a` are `bs`. -/
structure Holds (m : Memory) (a : ℕ) (bs : List UInt8) : Prop where
  bound : a + bs.length ≤ m.size
  byte : ∀ i (h : i < bs.length), m.byte (a + i) = bs[i]

theorem Holds.load_eq {m : Memory} {a : ℕ} {bs : List UInt8} (h : m.Holds a bs) :
    m.load a bs.length = some bs := by
  unfold load
  rw [if_pos h.bound, Option.some.injEq]
  refine List.ext_getElem (by simp) fun i _ hi => ?_
  simpa using h.byte i hi

theorem Holds.loadU32_eq {m : Memory} {a v : ℕ} (h : m.Holds a (leBytes 4 v)) (hv : v < 2 ^ 32) :
    m.loadU32 a = some v := by
  have hload := h.load_eq
  rw [length_leBytes] at hload
  rw [loadU32, hload, Option.map_some, leNat_leBytes, Nat.mod_eq_of_lt (by omega)]

theorem holds_write {m : Memory} {a : ℕ} {bs : List UInt8} (h : a + bs.length ≤ m.size) :
    (m.write a bs).Holds a bs :=
  ⟨h, fun _ hi => byte_write_add hi⟩

/-- A part of what is held. -/
theorem Holds.part {m : Memory} {a : ℕ} {pre bs post : List UInt8}
    (h : m.Holds a (pre ++ (bs ++ post))) : m.Holds (a + pre.length) bs := by
  have hbound := h.bound
  rw [List.length_append, List.length_append] at hbound
  refine ⟨by omega, fun i hi => ?_⟩
  have hbyte := h.byte (pre.length + i) (by rw [List.length_append, List.length_append]; omega)
  rw [List.getElem_append_right (by omega), List.getElem_append_left (by omega)] at hbyte
  simpa [Nat.add_assoc] using hbyte

/-- What is loaded is there. -/
theorem holds_of_load {m : Memory} {a n : ℕ} {bs : List UInt8}
    (h : m.load a n = some bs) : m.Holds a bs := by
  unfold load at h
  split at h
  · rename_i hle
    cases h
    refine ⟨by simpa using hle, fun i hi => ?_⟩
    rw [List.getElem_map, List.getElem_range']
    simp
  · cases h

theorem length_of_load {m : Memory} {a n : ℕ} {bs : List UInt8}
    (h : m.load a n = some bs) : bs.length = n := by
  unfold load at h
  split at h
  · cases h
    simp
  · cases h

/-! ## Writes -/

theorem ext_byte {m m' : Memory} (hsize : m.size = m'.size) (hbyte : ∀ x, m.byte x = m'.byte x) :
    m = m' := by
  cases m
  cases m'
  obtain rfl : _ = _ := hsize
  obtain rfl : _ = _ := funext hbyte
  rfl

/-- A write of the bytes that are there. -/
theorem Holds.write_eq {m : Memory} {a : ℕ} {bs : List UInt8} (h : m.Holds a bs) :
    m.write a bs = m := by
  refine ext_byte rfl fun x => ?_
  rcases Nat.lt_or_ge x a with hlt | hge
  · exact byte_write_of_lt hlt
  obtain ⟨i, rfl⟩ := Nat.exists_eq_add_of_le hge
  rcases Nat.lt_or_ge i bs.length with hlt | hge
  · rw [byte_write_add hlt, h.byte i hlt]
  · exact byte_write_of_ge (by omega)

/-- Two writes in a row are one. -/
theorem write_write (m : Memory) (a : ℕ) (bs bs' : List UInt8) :
    (m.write a bs).write (a + bs.length) bs' = m.write a (bs ++ bs') := by
  refine ext_byte rfl fun x => ?_
  rcases Nat.lt_or_ge x a with hlt | hge
  · rw [byte_write_of_lt (by omega), byte_write_of_lt hlt, byte_write_of_lt hlt]
  obtain ⟨i, rfl⟩ := Nat.exists_eq_add_of_le hge
  rcases Nat.lt_or_ge i bs.length with hlt | hge
  · rw [byte_write_of_lt (by omega), byte_write_add hlt,
      byte_write_add (by rw [List.length_append]; omega), List.getElem_append_left hlt]
  obtain ⟨j, rfl⟩ := Nat.exists_eq_add_of_le hge
  rcases Nat.lt_or_ge j bs'.length with hlt | hge
  · rw [← Nat.add_assoc, byte_write_add hlt, Nat.add_assoc,
      byte_write_add (by rw [List.length_append]; omega), List.getElem_append_right (by omega)]
    simp
  · rw [byte_write_of_ge (by omega), byte_write_of_ge (by omega),
      byte_write_of_ge (by rw [List.length_append]; omega)]

/-- A word beside a write. -/
theorem loadU32_write {m : Memory} {a x : ℕ} {bs : List UInt8}
    (h : x + 4 ≤ a ∨ a + bs.length ≤ x) : (m.write a bs).loadU32 x = m.loadU32 x := by
  unfold loadU32 load
  rw [size_write]
  refine congrArg (Option.map leNat) (if_congr Iff.rfl ?_ rfl)
  refine congrArg some (List.map_congr_left fun y hy => ?_)
  obtain ⟨hge, hlt⟩ := List.mem_range'_1.mp hy
  rcases h with h | h
  · exact byte_write_of_lt (by omega)
  · exact byte_write_of_ge (by omega)

/-- What a word is, as bytes. -/
theorem holds_of_loadU32 {m : Memory} {a v : ℕ} (h : m.loadU32 a = some v) :
    m.Holds a (leBytes 4 v) := by
  obtain ⟨bs, hload, rfl⟩ := Option.map_eq_some_iff.mp h
  have hholds := holds_of_load hload
  rwa [← length_of_load hload, leBytes_leNat]

end Memory

/-! ## Owners -/

/-- A memory whose bytes below `brk` may have owners. -/
structure Arena (ω : Type) where
  mem : Memory
  own : ℕ → Option ω
  brk : ℕ
  own_lt : ∀ x o, own x = some o → x < brk

namespace Arena

variable {ω : Type}

/-- The `n` bytes at `a` belong to `o`. -/
def Owned (A : Arena ω) (a n : ℕ) (o : ω) : Prop :=
  ∀ i, i < n → A.own (a + i) = some o

/-- The bytes at `a` are `bs` and belong to `o`. -/
structure PointsTo (A : Arena ω) (a : ℕ) (o : ω) (bs : List UInt8) : Prop where
  owned : A.Owned a bs.length o
  holds : A.mem.Holds a bs

/-- The 32-bit word at `a` is `v` and belongs to `o`. -/
abbrev Word (A : Arena ω) (a : ℕ) (o : ω) (v : ℕ) : Prop :=
  A.PointsTo a o (leBytes 4 v)

def write (A : Arena ω) (a : ℕ) (bs : List UInt8) : Arena ω :=
  { A with mem := A.mem.write a bs }

/-- Hand out the `n` bytes at `a`, the `j`-th of them to `f j`. -/
def claim (A : Arena ω) (a n : ℕ) (f : ℕ → ω) (h : A.brk ≤ a) : Arena ω where
  mem := A.mem
  own x := if a ≤ x ∧ x < a + n then some (f (x - a)) else A.own x
  brk := a + n
  own_lt x o hx := by
    split at hx
    · omega
    · have := A.own_lt x o hx
      omega

@[simp] theorem mem_write (A : Arena ω) (a : ℕ) (bs : List UInt8) :
    (A.write a bs).mem = A.mem.write a bs :=
  rfl

@[simp] theorem brk_write (A : Arena ω) (a : ℕ) (bs : List UInt8) : (A.write a bs).brk = A.brk :=
  rfl

@[simp] theorem owned_write {A : Arena ω} {a a' n : ℕ} {o : ω} {bs : List UInt8} :
    (A.write a' bs).Owned a n o ↔ A.Owned a n o :=
  Iff.rfl

theorem Word.loadU32 {A : Arena ω} {a v : ℕ} {o : ω} (h : A.Word a o v) (hv : v < 2 ^ 32) :
    A.mem.loadU32 a = some v :=
  h.holds.loadU32_eq hv

theorem Word.owned {A : Arena ω} {a v : ℕ} {o : ω} (h : A.Word a o v) : A.Owned a 4 o := by
  simpa only [length_leBytes] using PointsTo.owned h

theorem Word.bound {A : Arena ω} {a v : ℕ} {o : ω} (h : A.Word a o v) : a + 4 ≤ A.mem.size := by
  simpa only [length_leBytes] using h.holds.bound

/-- A word that is written over. -/
theorem Word.write {A : Arena ω} {a v : ℕ} {o : ω} (h : A.Word a o v) (w : ℕ) :
    (A.write a (leBytes 4 w)).Word a o w := by
  refine ⟨?_, Memory.holds_write ?_⟩
  · rw [length_leBytes]
    exact owned_write.mpr (Word.owned h)
  · rw [length_leBytes]
    exact h.bound

theorem Owned.claim {A : Arena ω} {a n a' n' : ℕ} {o : ω} {f : ℕ → ω} (h : A.Owned a n o)
    (hf : A.brk ≤ a') : (A.claim a' n' f hf).Owned a n o := by
  intro i hi
  have hlt := A.own_lt _ _ (h i hi)
  exact (if_neg (by omega)).trans (h i hi)

/-- A part of what was handed out. -/
theorem owned_claim {A : Arena ω} {a n k l : ℕ} {o : ω} {f : ℕ → ω} (hf : A.brk ≤ a)
    (hk : k + l ≤ n) (ho : ∀ i, i < l → f (k + i) = o) :
    (A.claim a n f hf).Owned (a + k) l o := by
  intro i hi
  have hin : a ≤ a + k + i ∧ a + k + i < a + n := by omega
  refine (if_pos hin).trans ?_
  rw [show a + k + i - a = k + i by omega, ho i hi]

/-- All of what was handed out to one owner. -/
theorem owned_claim_self {A : Arena ω} {a n : ℕ} {o : ω} (hf : A.brk ≤ a) :
    (A.claim a n (fun _ => o) hf).Owned a n o :=
  fun i _ => if_pos (by omega)

theorem pointsTo_nil (A : Arena ω) (o : ω) : A.PointsTo 0 o [] :=
  ⟨nofun, Nat.zero_le _, nofun⟩

theorem PointsTo.write_self {A : Arena ω} {a : ℕ} {o : ω} {bs : List UInt8}
    (ho : A.Owned a bs.length o) (hb : a + bs.length ≤ A.mem.size) :
    (A.write a bs).PointsTo a o bs :=
  ⟨ho, Memory.holds_write hb⟩

/-- A write to the bytes of another owner. -/
theorem PointsTo.write_other {A : Arena ω} {a a' : ℕ} {o o' : ω} {bs bs' : List UInt8}
    (h : A.PointsTo a o bs) (ho : A.Owned a' bs'.length o') (hne : o ≠ o') :
    (A.write a' bs').PointsTo a o bs := by
  refine ⟨h.owned, h.holds.bound, fun i hi => ?_⟩
  rw [← h.holds.byte i hi]
  rcases lt_or_ge (a + i) a' with hlt | hge
  · exact Memory.byte_write_of_lt hlt
  · refine Memory.byte_write_of_ge (not_lt.mp fun hlt => hne ?_)
    have hown := ho (a + i - a') (by omega)
    rw [show a' + (a + i - a') = a + i by omega, h.owned i hi] at hown
    exact Option.some.inj hown

/-- A write above the break. -/
theorem PointsTo.write_fresh {A : Arena ω} {a a' : ℕ} {o : ω} {bs bs' : List UInt8}
    (h : A.PointsTo a o bs) (hf : A.brk ≤ a') : (A.write a' bs').PointsTo a o bs := by
  refine ⟨h.owned, h.holds.bound, fun i hi => ?_⟩
  have hlt := A.own_lt _ _ (h.owned i hi)
  rw [← h.holds.byte i hi]
  exact Memory.byte_write_of_lt (by omega)

theorem PointsTo.claim {A : Arena ω} {a a' n' : ℕ} {o : ω} {bs : List UInt8} {f : ℕ → ω}
    (h : A.PointsTo a o bs) (hf : A.brk ≤ a') : (A.claim a' n' f hf).PointsTo a o bs :=
  ⟨h.owned.claim hf, h.holds⟩

/-! ## Frames -/

/-- The change from `A` to `A'` concerns the owners in `P` only. -/
structure Frame (A A' : Arena ω) (P : ω → Prop) : Prop where
  size : A'.mem.size = A.mem.size
  owned : ∀ {a n o}, A.Owned a n o → A'.Owned a n o
  pointsTo : ∀ {a o bs}, ¬P o → A.PointsTo a o bs → A'.PointsTo a o bs

theorem Frame.trans {A A' A'' : Arena ω} {P Q : ω → Prop} (h : Frame A A' P)
    (h' : Frame A' A'' Q) : Frame A A'' fun o => P o ∨ Q o :=
  ⟨h'.size.trans h.size, fun ho => h'.owned (h.owned ho),
    fun hP hp => h'.pointsTo (fun hq => hP (.inr hq)) (h.pointsTo (fun hq => hP (.inl hq)) hp)⟩

theorem Frame.mono {A A' : Arena ω} {P Q : ω → Prop} (h : Frame A A' P) (hPQ : ∀ o, P o → Q o) :
    Frame A A' Q :=
  ⟨h.size, h.owned, fun hQ hp => h.pointsTo (fun hP => hQ (hPQ _ hP)) hp⟩

theorem frame_write {A : Arena ω} {a : ℕ} {o : ω} {bs : List UInt8}
    (ho : A.Owned a bs.length o) : Frame A (A.write a bs) (· = o) :=
  ⟨rfl, fun h => h, fun hne hp => hp.write_other ho hne⟩

theorem Word.frame_write {A : Arena ω} {a v : ℕ} {o : ω} (h : A.Word a o v) (w : ℕ) :
    Frame A (A.write a (leBytes 4 w)) (· = o) := by
  apply Arena.frame_write
  rw [length_leBytes]
  exact Word.owned h

theorem frame_write_fresh {A : Arena ω} {a : ℕ} (bs : List UInt8) (hf : A.brk ≤ a) :
    Frame A (A.write a bs) fun _ => False :=
  ⟨rfl, fun h => h, fun _ hp => hp.write_fresh hf⟩

theorem frame_claim {A : Arena ω} {a n : ℕ} {f : ℕ → ω} (hf : A.brk ≤ a) :
    Frame A (A.claim a n f hf) fun _ => False :=
  ⟨rfl, fun h => h.claim hf, fun _ hp => hp.claim hf⟩

end Arena

end DataShare
