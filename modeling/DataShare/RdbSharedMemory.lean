import DataShare.CppRdbSubscriberManager
import DataShare.CursorArithmetic
import DataShare.LossyUtf8
import DataShare.RdbSubscriberManager
import DataShare.ReaderWords

/-!
# RDB changes in shared memory

A change that is too large for a parcel comes in an ashmem region : a count, and for each item
its length and its bytes. Both stubs append an item to the node as soon as they have read it.
`Announces` says what a region holds, without the loop that reads it.

When the region cannot be read to its end, the C++ stub does not call its callback
(`Cpp.allOrNothing_onChangeFromRdb`). The Rust stub drops the result of
`deserialize_data_from_ashmem` and calls it with the items it has, and an item that is not UTF-8
comes with replacements (`allOrNothing_onChangeFromRdb_iff`).
-/

namespace DataShare

/-! ## The region -/

/-- A region behind its handle. Reads are given for ranges inside the region only, whose size is
an `int32_t`. -/
structure Ashmem where
  content : List UInt8
  /-- What `map_read_write_ashmem` returns. -/
  maps : Bool
  /-- Whether `read_from_ashmem` gives a pointer for a size and an offset. -/
  grants : Int32 → Int32 → Bool
  size_lt : content.length < 2 ^ 31
  inside : ∀ size offset, grants size offset = true →
    0 ≤ size.toInt ∧ 0 ≤ offset.toInt ∧ offset.toInt + size.toInt ≤ content.length

namespace Ashmem

/-- The bytes behind the pointer. -/
def readFromAshmem (ashmem : Ashmem) (size offset : Int32) : Option (List UInt8) :=
  if ashmem.grants size offset then
    some ((ashmem.content.drop offset.toInt.toNat).take size.toInt.toNat)
  else none

/-- `*(ptr as *const i32)`, for the four bytes at `offset`. -/
def readInt (ashmem : Ashmem) (offset : Int32) : Option Int32 :=
  (ashmem.readFromAshmem 4 offset).map ofBasicBytes

/-- A region that gives every range it has. -/
def ofContent (content : List UInt8) (h : content.length < 2 ^ 31) : Ashmem where
  content := content
  maps := true
  grants size offset := decide
    (0 ≤ size.toInt ∧ 0 ≤ offset.toInt ∧ offset.toInt + size.toInt ≤ content.length)
  size_lt := h
  inside _ _ hgrants := of_decide_eq_true hgrants

end Ashmem

/-! ## The two stubs -/

/-- `MAX_VEC_SIZE`. -/
def maxVecSize : Int32 := 1024

/-- How the loop over the items ends. An overflow of `offset` is undefined in C++ and a panic or
a wrapped offset in Rust. -/
inductive ItemsEnd
  | complete | stopped | overflow
deriving DecidableEq

/-- A change node, with the types of its texts and of its template. -/
structure SharedRdbChange (τ κ : Type) where
  uri : τ
  templateId : κ
  data : List τ
  isSharedMemory : Bool
  memory : Option Ashmem
  size : Int32

section Deserialize

variable {τ κ : Type}

/-- The rounds of the loop. The items are read as texts by `text`. -/
def deserializeItems (text : List UInt8 → τ) (ashmem : Ashmem) :
    ℕ → Int32 → List τ → ItemsEnd × List τ
  | 0, _, data => (.complete, data)
  | n + 1, offset, data =>
    match ashmem.readInt offset with
    | none => (.stopped, data)
    | some dataLen =>
      match Rust.checkedAdd offset 4 with
      | none => (.overflow, data)
      | some offset =>
        match ashmem.readFromAshmem dataLen offset with
        | none => (.stopped, data)
        | some bytes =>
          match Rust.checkedAdd offset dataLen with
          | none => (.overflow, data ++ [text bytes])
          | some offset => deserializeItems text ashmem n offset (data ++ [text bytes])

/-- The count is read at offset 0, so the first item is at 4. -/
def deserializeDataFromAshmem (text : List UInt8 → τ) (node : SharedRdbChange τ κ) :
    ItemsEnd × SharedRdbChange τ κ :=
  match node.memory with
  | none => (.stopped, node)
  | some ashmem =>
    if !ashmem.maps then (.stopped, { node with memory := none })
    else
      match ashmem.readInt 0 with
      | none => (.stopped, node)
      | some vecLen =>
        if vecLen > maxVecSize ∨ vecLen < 0 then (.stopped, node)
        else
          let (ending, data) := deserializeItems text ashmem vecLen.toInt.toNat 4 node.data
          (ending, { node with data := data })

/-- The region is unmapped and closed, and the node no longer refers to it. -/
def SharedRdbChange.detach (node : SharedRdbChange τ κ) : SharedRdbChange τ κ :=
  { node with memory := none, isSharedMemory := false, size := 0 }

end Deserialize

/-- A stub, with a callback or after `clear_callback`. -/
structure RdbObserverStub where
  hasCallback : Bool

namespace Rust

abbrev SharedRdbChange := DataShare.SharedRdbChange String TemplateId

/-- The result of `deserialize_data_from_ashmem` is dropped. -/
def recoverRdbChangeNodeData (node : SharedRdbChange) : Option SharedRdbChange :=
  if !node.isSharedMemory then some node
  else
    match deserializeDataFromAshmem fromUtf8Lossy node with
    | (.overflow, _) => none
    | (_, node) => some node.detach

/-- The nodes that the callback is called with, unless the offset overflows. -/
def RdbObserverStub.onChangeFromRdb (stub : RdbObserverStub) (changeNode : SharedRdbChange) :
    Option (List SharedRdbChange) := do
  let changeNode ← recoverRdbChangeNodeData changeNode
  pure (if stub.hasCallback then [changeNode] else [])

end Rust

namespace Cpp

abbrev SharedRdbChange := DataShare.SharedRdbChange StdString TemplateId

/-- The node, and whether the result is `E_OK`. -/
def recoverRdbChangeNodeData (changeNode : SharedRdbChange) : Option (Bool × SharedRdbChange) :=
  if changeNode.isSharedMemory then
    match deserializeDataFromAshmem id changeNode with
    | (.overflow, _) => none
    | (ending, changeNode) => some (ending == .complete, changeNode.detach)
  else some (true, changeNode)

def RdbObserverStub.onChangeFromRdb (stub : RdbObserverStub) (changeNode : SharedRdbChange) :
    Option (List SharedRdbChange) := do
  let (ok, changeNode) ← recoverRdbChangeNodeData changeNode
  if !ok then pure []
  else pure (if stub.hasCallback then [changeNode] else [])

end Cpp

/-! ## What a region announces -/

namespace Ashmem

/-- The range is inside the region, and a read of it is given. -/
structure Granted (ashmem : Ashmem) (offset len : ℕ) : Prop where
  le : offset + len ≤ ashmem.content.length
  grants : ashmem.grants (Int32.ofNat len) (Int32.ofNat offset) = true

/-- The word at `offset` is `n`. -/
structure HoldsInt (ashmem : Ashmem) (offset n : ℕ) : Prop where
  granted : ashmem.Granted offset 4
  word : (ashmem.content.drop offset).take 4 = leBytes 4 n

/-- The items stand one after the other from `offset` on, each behind its length. -/
def Holds (ashmem : Ashmem) : ℕ → List (List UInt8) → Prop
  | _, [] => True
  | offset, item :: items =>
    ashmem.HoldsInt offset item.length ∧ ashmem.Granted (offset + 4) item.length ∧
      (ashmem.content.drop (offset + 4)).take item.length = item ∧
        Holds ashmem (offset + 4 + item.length) items

/-- The region can be mapped and holds the items, at most `MAX_VEC_SIZE` of them, behind their
number. -/
structure Announces (ashmem : Ashmem) (items : List (List UInt8)) : Prop where
  maps : ashmem.maps = true
  count : ashmem.HoldsInt 0 items.length
  length_le : items.length ≤ 1024
  items : ashmem.Holds 4 items

theorem Granted.len_lt {ashmem : Ashmem} {offset len : ℕ} (h : ashmem.Granted offset len) :
    len < 2 ^ 31 := by
  have hle := h.le
  have hlt := ashmem.size_lt
  omega

theorem toInt_ofNat {ashmem : Ashmem} {n : ℕ} (h : n ≤ ashmem.content.length) :
    (Int32.ofNat n).toInt = n :=
  Int32.toInt_ofNat_of_lt (h.trans_lt ashmem.size_lt)

theorem readFromAshmem_of_granted {ashmem : Ashmem} {offset len : ℕ}
    (h : ashmem.Granted offset len) :
    ashmem.readFromAshmem (Int32.ofNat len) (Int32.ofNat offset) =
      some ((ashmem.content.drop offset).take len) := by
  have hle := h.le
  rw [readFromAshmem, if_pos h.grants, toInt_ofNat (by omega : offset ≤ ashmem.content.length),
    toInt_ofNat (by omega : len ≤ ashmem.content.length), Int.toNat_natCast, Int.toNat_natCast]

/-- A read that gives something is of a range inside the region. -/
theorem granted_of_readFromAshmem {ashmem : Ashmem} {offset : ℕ} {size : Int32}
    {bytes : List UInt8} (hoffset : offset ≤ ashmem.content.length)
    (h : ashmem.readFromAshmem size (Int32.ofNat offset) = some bytes) :
    ∃ len : ℕ, size = Int32.ofNat len ∧ ashmem.Granted offset len ∧ bytes.length = len := by
  rw [readFromAshmem] at h
  split at h
  · next hgrants =>
    obtain ⟨hsize, -, hle⟩ := ashmem.inside _ _ hgrants
    rw [toInt_ofNat hoffset] at hle
    have hlt := ashmem.size_lt
    have hlen : size = Int32.ofNat size.toInt.toNat :=
      Int32.toInt_inj.mp (by rw [Int32.toInt_ofNat_of_lt (by omega)]; omega)
    refine ⟨size.toInt.toNat, hlen, ⟨by omega, hlen ▸ hgrants⟩, ?_⟩
    rw [← Option.some.inj h, toInt_ofNat hoffset, List.length_take, List.length_drop]
    omega
  · cases h

/-- A word is read as the number it holds, unless the number is negative. -/
theorem readInt_eq_ofNat_iff {ashmem : Ashmem} {offset n : ℕ}
    (hoffset : offset ≤ ashmem.content.length) (hn : n < 2 ^ 31) :
    ashmem.readInt (Int32.ofNat offset) = some (Int32.ofNat n) ↔ ashmem.HoldsInt offset n := by
  have hbytes : basicBytes (Int32.ofNat n) = leBytes 4 n := by
    have hnat : (Int32.ofNat n).toUInt32.toNat = n := by
      change n % 2 ^ 32 = n
      omega
    exact congrArg (leBytes 4) hnat
  have hfour : (4 : Int32) = Int32.ofNat 4 := rfl
  rw [readInt, hfour, Option.map_eq_some_iff]
  constructor
  · rintro ⟨bytes, hread, hword⟩
    obtain ⟨len, hlen, hgranted, hcount⟩ := granted_of_readFromAshmem hoffset hread
    obtain rfl : len = 4 := by
      have hcast : (Int32.ofNat len).toInt = len := Int32.toInt_ofNat_of_lt hgranted.len_lt
      have hfour : (Int32.ofNat 4).toInt = 4 := by decide
      rw [← hlen] at hcast
      omega
    rw [readFromAshmem_of_granted hgranted] at hread
    refine ⟨hgranted, ?_⟩
    rw [Option.some.inj hread, ← hbytes, ← hword]
    exact (basicBytes_ofBasicBytes hcount).symm
  · rintro ⟨hgranted, hword⟩
    refine ⟨_, readFromAshmem_of_granted hgranted, ?_⟩
    rw [hword, ← hbytes, ofBasicBytes_basicBytes]

theorem add_four_le {ashmem : Ashmem} {offset : ℕ} {v : Int32}
    (hoffset : offset ≤ ashmem.content.length)
    (h : ashmem.readInt (Int32.ofNat offset) = some v) : offset + 4 ≤ ashmem.content.length := by
  obtain ⟨bytes, hread, -⟩ := Option.map_eq_some_iff.mp h
  obtain ⟨len, hlen, hgranted, -⟩ := granted_of_readFromAshmem hoffset hread
  have hcast : (Int32.ofNat len).toInt = len := Int32.toInt_ofNat_of_lt hgranted.len_lt
  have hfour : (4 : Int32).toInt = 4 := by decide
  rw [← hlen] at hcast
  have hle := hgranted.le
  omega

theorem checkedAdd_offset {ashmem : Ashmem} {offset len : ℕ}
    (h : offset + len ≤ ashmem.content.length) :
    Rust.checkedAdd (Int32.ofNat offset) (Int32.ofNat len) = some (Int32.ofNat (offset + len)) := by
  have hlt := ashmem.size_lt
  have hoffset := toInt_ofNat (by omega : offset ≤ ashmem.content.length)
  have hlen := toInt_ofNat (by omega : len ≤ ashmem.content.length)
  have hsum := toInt_ofNat h
  rw [Rust.checkedAdd_eq (by omega) (by omega)]
  refine congrArg some (Int32.toInt_inj.mp ?_)
  rw [Rust.toInt_add_of_fits (by omega) (by omega)]
  omega

end Ashmem

/-! ## The loop -/

section Loop

variable {τ κ : Type} (text : List UInt8 → τ)

/-- A round stops where no item is, or it takes the item that is there. -/
theorem round_cases (ashmem : Ashmem) {offset : ℕ} (hoffset : offset ≤ ashmem.content.length) :
    ((∀ item items, ¬ashmem.Holds offset (item :: items)) ∧ ∀ n data,
      (deserializeItems text ashmem (n + 1) (Int32.ofNat offset) data).1 = .stopped) ∨
    ∃ bytes, offset + 4 + bytes.length ≤ ashmem.content.length ∧
      (∀ item items, ashmem.Holds offset (item :: items) ↔
        item = bytes ∧ ashmem.Holds (offset + 4 + bytes.length) items) ∧
      ∀ n data, deserializeItems text ashmem (n + 1) (Int32.ofNat offset) data =
        deserializeItems text ashmem n (Int32.ofNat (offset + 4 + bytes.length))
          (data ++ [text bytes]) := by
  simp only [deserializeItems]
  rcases hword : ashmem.readInt (Int32.ofNat offset) with - | dataLen
  · -- there is no word to read
    refine .inl ⟨fun item items hholds => ?_, fun _ _ => rfl⟩
    obtain ⟨hint, hgranted, -, -⟩ := hholds
    have hread := (Ashmem.readInt_eq_ofNat_iff hoffset hgranted.len_lt).mpr hint
    rw [hword] at hread
    cases hread
  have hnext : offset + 4 ≤ ashmem.content.length := Ashmem.add_four_le hoffset hword
  have hlength : ∀ item items, ashmem.Holds offset (item :: items) →
      dataLen = Int32.ofNat item.length ∧ ashmem.Granted (offset + 4) item.length := by
    rintro item items ⟨hint, hgranted, -, -⟩
    have hint' := (Ashmem.readInt_eq_ofNat_iff hoffset hgranted.len_lt).mpr hint
    exact ⟨Option.some.inj (hword.symm.trans hint'), hgranted⟩
  have hadd : Rust.checkedAdd (Int32.ofNat offset) 4 = some (Int32.ofNat (offset + 4)) :=
    Ashmem.checkedAdd_offset hnext
  dsimp only
  rw [hadd]
  dsimp only
  rcases hread : ashmem.readFromAshmem dataLen (Int32.ofNat (offset + 4)) with - | bytes
  · -- the bytes of the item are not in the region
    refine .inl ⟨fun item items hholds => ?_, fun _ _ => rfl⟩
    obtain ⟨rfl, hgranted⟩ := hlength item items hholds
    rw [Ashmem.readFromAshmem_of_granted hgranted] at hread
    cases hread
  obtain ⟨len, rfl, hgranted, rfl⟩ := Ashmem.granted_of_readFromAshmem hnext hread
  have hint := (Ashmem.readInt_eq_ofNat_iff hoffset hgranted.len_lt).mp hword
  have hbytes : (ashmem.content.drop (offset + 4)).take bytes.length = bytes :=
    Option.some.inj ((Ashmem.readFromAshmem_of_granted hgranted).symm.trans hread)
  refine .inr ⟨bytes, hgranted.le, fun item items => ⟨fun hholds => ?_, ?_⟩, fun n data => ?_⟩
  · obtain ⟨hsame, hgranted'⟩ := hlength item items hholds
    have hcast := congrArg Int32.toInt hsame
    rw [Int32.toInt_ofNat_of_lt hgranted.len_lt,
      Int32.toInt_ofNat_of_lt hgranted'.len_lt] at hcast
    have hlen : item.length = bytes.length := by omega
    obtain ⟨-, -, hitem, hrest⟩ := hholds
    rw [hlen] at hitem hrest
    exact ⟨hitem.symm.trans hbytes, hrest⟩
  · rintro ⟨rfl, hrest⟩
    exact ⟨hint, hgranted, hbytes, hrest⟩
  · rw [Ashmem.checkedAdd_offset hgranted.le]

/-- The loop comes to its end with the items that the region holds, as many as there are rounds,
or it stops because it does not hold them. -/
theorem deserializeItems_spec (ashmem : Ashmem) : ∀ (n offset : ℕ) (data : List τ),
    offset ≤ ashmem.content.length →
    (∃ items, items.length = n ∧
      (∀ items', items'.length = n → (ashmem.Holds offset items' ↔ items' = items)) ∧
      deserializeItems text ashmem n (Int32.ofNat offset) data =
        (.complete, data ++ items.map text)) ∨
    (∀ items, items.length = n → ¬ashmem.Holds offset items) ∧
      (deserializeItems text ashmem n (Int32.ofNat offset) data).1 = .stopped
  | 0, offset, data, _ => by
    refine .inl ⟨[], rfl, fun items' hlen => ?_, by simp [deserializeItems]⟩
    rw [List.length_eq_zero_iff.mp hlen]
    exact iff_of_true trivial rfl
  | n + 1, offset, data, hoffset => by
    rcases round_cases text ashmem hoffset with ⟨hnone, hrun⟩ | ⟨bytes, hle, hholds, hrun⟩
    · refine .inr ⟨fun items hlen => ?_, hrun n data⟩
      obtain ⟨item, items, rfl⟩ := List.exists_cons_of_length_eq_add_one hlen
      exact hnone item items
    rw [hrun n data]
    rcases deserializeItems_spec ashmem n _ (data ++ [text bytes]) hle with
      ⟨items, hitems, hiff, hend⟩ | ⟨hnone, hend⟩
    · refine .inl ⟨bytes :: items, by rw [List.length_cons, hitems], fun items' hlen => ?_, ?_⟩
      · obtain ⟨item, items', rfl⟩ := List.exists_cons_of_length_eq_add_one hlen
        rw [hholds, hiff items' (Nat.succ_injective hlen), List.cons.injEq]
      · rw [hend, List.map_cons, List.append_assoc, List.singleton_append]
    · refine .inr ⟨fun items hlen => ?_, hend⟩
      obtain ⟨item, items, rfl⟩ := List.exists_cons_of_length_eq_add_one hlen
      rw [hholds]
      exact fun h => hnone items (Nat.succ_injective hlen) h.2

/-- The region that the node refers to announces the items. -/
def SharedRdbChange.Announced (node : SharedRdbChange τ κ) (items : List (List UInt8)) : Prop :=
  ∃ ashmem, node.memory = some ashmem ∧ ashmem.Announces items

/-- The items are read as a whole, or reading stops, and the offset does not overflow. -/
theorem deserializeDataFromAshmem_spec (node : SharedRdbChange τ κ) :
    (∃ items, (∀ items', node.Announced items' ↔ items' = items) ∧
      deserializeDataFromAshmem text node =
        (.complete, { node with data := node.data ++ items.map text })) ∨
    (∀ items, ¬node.Announced items) ∧ (deserializeDataFromAshmem text node).1 = .stopped := by
  unfold deserializeDataFromAshmem SharedRdbChange.Announced
  rcases node.memory with - | ashmem
  · exact .inr ⟨by simp, rfl⟩
  dsimp only
  simp only [Option.some.injEq, exists_eq_left']
  cases hmaps : ashmem.maps with
  | false =>
    refine .inr ⟨fun items hitems => ?_, rfl⟩
    rw [hitems.maps] at hmaps
    cases hmaps
  | true =>
    have hcount : ∀ items, ashmem.Announces items →
        ashmem.readInt 0 = some (Int32.ofNat items.length) := fun items hitems => by
      have hle := hitems.length_le
      exact (Ashmem.readInt_eq_ofNat_iff (Nat.zero_le _) (by omega)).mpr hitems.count
    rw [Bool.not_true, if_neg Bool.false_ne_true]
    rcases hword : ashmem.readInt 0 with - | vecLen
    · refine .inr ⟨fun items hitems => ?_, rfl⟩
      have hread := hcount items hitems
      rw [hword] at hread
      cases hread
    have hbounds : vecLen > maxVecSize ∨ vecLen < 0 ↔ 1024 < vecLen.toInt ∨ vecLen.toInt < 0 := by
      have hmax : maxVecSize.toInt = 1024 := by decide
      rw [gt_iff_lt, Int32.lt_iff_toInt_lt, Int32.lt_iff_toInt_lt, hmax, Int32.toInt_zero]
    have hlength : ∀ items, ashmem.Announces items → vecLen.toInt = items.length :=
      fun items hitems => by
        have hle := hitems.length_le
        rw [Option.some.inj (hword.symm.trans (hcount items hitems)),
          Int32.toInt_ofNat_of_lt (by omega)]
    dsimp only
    split
    · next hbad =>
      refine .inr ⟨fun items hitems => ?_, rfl⟩
      have hlen := hlength items hitems
      have hle := hitems.length_le
      rw [hbounds] at hbad
      omega
    next hgood =>
    rw [hbounds] at hgood
    have hcast : vecLen = Int32.ofNat vecLen.toInt.toNat :=
      Int32.toInt_inj.mp (by rw [Int32.toInt_ofNat_of_lt (by omega)]; omega)
    have hint : ashmem.HoldsInt 0 vecLen.toInt.toNat :=
      (Ashmem.readInt_eq_ofNat_iff (Nat.zero_le _) (by omega)).mp (hcast ▸ hword)
    have hfirst : (4 : Int32) = Int32.ofNat 4 := rfl
    have hannounces : ∀ items, ashmem.Announces items ↔
        items.length = vecLen.toInt.toNat ∧ ashmem.Holds 4 items := by
      intro items
      constructor
      · intro hitems
        have hlen := hlength items hitems
        exact ⟨by omega, hitems.items⟩
      · rintro ⟨hlen, hholds⟩
        exact ⟨hmaps, hlen ▸ hint, by omega, hholds⟩
    rw [hfirst]
    rcases deserializeItems_spec text ashmem vecLen.toInt.toNat 4 node.data
      (Ashmem.add_four_le (Nat.zero_le _) hword) with ⟨items, hlen, hiff, hrun⟩ | ⟨hnone, hrun⟩
    · refine .inl ⟨items, fun items' => ?_, by rw [hrun]⟩
      rw [hannounces]
      constructor
      · rintro ⟨hlen', hholds⟩
        exact (hiff items' hlen').mp hholds
      · rintro rfl
        exact ⟨hlen, (hiff items' hlen).mpr rfl⟩
    · refine .inr ⟨fun items hitems => ?_, hrun⟩
      obtain ⟨hlen, hholds⟩ := (hannounces items).mp hitems
      exact hnone items hlen hholds

end Loop

/-! ## All or nothing -/

/-- A callback gets the announced items, after those that came with the node, or it is not
called. `bytes` are the bytes of a text. -/
structure AllOrNothing {τ κ : Type} (bytes : τ → List UInt8) (node : SharedRdbChange τ κ)
    (calls : Option (List (SharedRdbChange τ κ))) : Prop where
  noOverflow : calls.isSome
  whole : ∀ items, node.Announced items → ∃ texts : List τ, texts.map bytes = items ∧
    calls = some [{ node with data := node.data ++ texts }.detach]
  nothing : (∀ items, ¬node.Announced items) → calls = some []

/-- The C++ stub on a change in shared memory. -/
theorem Cpp.allOrNothing_onChangeFromRdb (node : Cpp.SharedRdbChange)
    (hshared : node.isSharedMemory = true) :
    AllOrNothing id node (Cpp.RdbObserverStub.onChangeFromRdb ⟨true⟩ node) := by
  unfold Cpp.RdbObserverStub.onChangeFromRdb Cpp.recoverRdbChangeNodeData
  rw [if_pos hshared]
  rcases deserializeDataFromAshmem_spec id node with ⟨items, hiff, hrun⟩ | ⟨hnone, hrun⟩
  · rw [hrun, List.map_id]
    refine ⟨rfl, fun items' hitems => ⟨items', List.map_id _, ?_⟩, fun h => ?_⟩
    · rw [(hiff items').mp hitems]
      rfl
    · exact absurd ((hiff items).mpr rfl) (h items)
  · obtain ⟨node', hrun'⟩ : ∃ node', deserializeDataFromAshmem id node = (.stopped, node') :=
      ⟨_, Prod.ext hrun rfl⟩
    rw [hrun']
    exact ⟨rfl, fun items hitems => absurd hitems (hnone items), fun _ => rfl⟩

namespace Rust

/-- What the Rust stub does with a change in shared memory. -/
theorem onChangeFromRdb_spec (node : SharedRdbChange) (hshared : node.isSharedMemory = true) :
    (∃ items, (∀ items', node.Announced items' ↔ items' = items) ∧
      RdbObserverStub.onChangeFromRdb ⟨true⟩ node =
        some [{ node with data := node.data ++ items.map fromUtf8Lossy }.detach]) ∨
    (∀ items, ¬node.Announced items) ∧
      ∃ node', RdbObserverStub.onChangeFromRdb ⟨true⟩ node = some [node'] := by
  unfold RdbObserverStub.onChangeFromRdb recoverRdbChangeNodeData
  rw [hshared, Bool.not_true, if_neg Bool.false_ne_true]
  rcases deserializeDataFromAshmem_spec fromUtf8Lossy node with ⟨items, hiff, hrun⟩ | ⟨hnone, hrun⟩
  · rw [hrun]
    exact .inl ⟨items, hiff, rfl⟩
  · obtain ⟨node', hrun'⟩ :
        ∃ node', deserializeDataFromAshmem fromUtf8Lossy node = (.stopped, node') :=
      ⟨_, Prod.ext hrun rfl⟩
    rw [hrun']
    exact .inr ⟨hnone, node'.detach, rfl⟩

/-- The callback gets all or nothing exactly if the region announces its items to the end and
each of them is UTF-8. -/
theorem allOrNothing_onChangeFromRdb_iff (node : SharedRdbChange) :
    (node.isSharedMemory = true →
        AllOrNothing utf8Bytes node (RdbObserverStub.onChangeFromRdb ⟨true⟩ node)) ↔
      (node.isSharedMemory = true →
        ∃ items, node.Announced items ∧ ∀ item ∈ items, (fromUtf8 item).isSome) := by
  refine imp_congr_right fun hshared => ?_
  rcases onChangeFromRdb_spec node hshared with ⟨items, hiff, hrun⟩ | ⟨hnone, node', hrun⟩
  · rw [hrun]
    have htexts : (∀ item ∈ items, (fromUtf8 item).isSome) ↔
        (items.map fromUtf8Lossy).map utf8Bytes = items := by
      have hmap : items.map (utf8Bytes ∘ fromUtf8Lossy) = items.map id ↔
          ∀ item ∈ items, utf8Bytes (fromUtf8Lossy item) = item := List.map_inj_left
      rw [List.map_id] at hmap
      rw [List.map_map, hmap]
      exact forall₂_congr fun item _ => utf8Bytes_fromUtf8Lossy_iff.symm
    constructor
    · intro h
      have hitems := (hiff items).mpr rfl
      obtain ⟨texts, hbytes, hcalls⟩ := h.whole items hitems
      refine ⟨items, hitems, htexts.mpr ?_⟩
      have hdata := congrArg DataShare.SharedRdbChange.data
        (List.singleton_inj.mp (Option.some.inj hcalls))
      rw [List.append_cancel_left hdata, hbytes]
    · rintro ⟨items', hitems, hvalid⟩
      obtain rfl := (hiff items').mp hitems
      refine ⟨rfl, fun items hitems => ⟨_, ?_, rfl⟩, fun h => absurd hitems (h items')⟩
      rw [(hiff items).mp hitems]
      exact htexts.mp hvalid
  · rw [hrun]
    refine iff_of_false (fun h => ?_) fun h => ?_
    · exact absurd (Option.some.inj (h.nothing hnone)) (List.cons_ne_nil _ _)
    · obtain ⟨items, hitems, -⟩ := h
      exact hnone items hitems

/-- A region that announces two items and holds one. -/
def truncatedChange : SharedRdbChange where
  uri := "datashareproxy://com.example/t"
  templateId := ⟨1, "com.example"⟩
  data := []
  isSharedMemory := true
  memory := some (.ofContent [2, 0, 0, 0, 1, 0, 0, 0, 0x61] (by decide))
  size := 2

/-- The callback is called with the one item. -/
theorem truncatedChange_delivered :
    ¬AllOrNothing utf8Bytes truncatedChange
      (RdbObserverStub.onChangeFromRdb ⟨true⟩ truncatedChange) := by
  have hnone : ∀ items, ¬truncatedChange.Announced items := by
    rintro items ⟨ashmem, hmemory, hitems⟩
    obtain rfl := Option.some.inj hmemory
    have hcount := congrArg leNat hitems.count.word
    have hle := hitems.length_le
    rw [leNat_leBytes, Nat.mod_eq_of_lt (by omega)] at hcount
    obtain ⟨a, b, rfl⟩ := List.length_eq_two.mp (hcount.symm.trans (by decide))
    obtain ⟨hfirst, hgranted, -, hsecond, -⟩ := hitems.items
    have hlen := congrArg leNat hfirst.word
    rw [leNat_leBytes, Nat.mod_eq_of_lt (hgranted.len_lt.trans (by decide))] at hlen
    have hone : a.length = 1 := hlen.symm.trans (by decide)
    have hend : 4 + 4 + a.length + 4 ≤ 9 := hsecond.granted.le
    omega
  intro h
  have hcalls := congrArg (Option.map List.length) (h.nothing hnone)
  exact absurd hcalls (by decide +kernel)

end Rust

end DataShare
