import DataShare.CppPredicates
import DataShare.RustPredicates
import Mathlib.Data.List.Basic

/-!
# Predicates between a C++ writer and a Rust reader

The two codecs share one wire format, positional parameter lists. `toRust` is what the Rust
reader makes of what the C++ writer sent, if it accepts it at all : strings have to be
UTF-8, and the limits on strings and lists hold on both sides.

Re-encoding what was read gives the bytes that were sent unless the C++ item has something
the Rust item has no place for (`reencode_iff`) : an empty string in the place of the field,
a second list, an empty list with an element type, or an operation code that is not
defined.
-/

namespace DataShare

open Cpp (StdString)

/-! ## What the Rust reader accepts -/

/-- A string that `read_string` accepts. -/
def RustString (bs : StdString) : Prop :=
  bs.length ≤ Rust.maxIpcSize ∧ ∃ s, fromUtf8 bs = some s

/-- The string that `read_string` returns. -/
def toRustString (bs : StdString) : String :=
  (fromUtf8 bs).getD ""

theorem utf8Bytes_toRustString {bs : StdString} (h : RustString bs) :
    utf8Bytes (toRustString bs) = bs := by
  obtain ⟨-, s, hs⟩ := h
  rw [toRustString, hs, Option.getD_some, utf8Bytes_of_fromUtf8 hs]

namespace Cpp

def SingleValue.Accepted : SingleValue → Prop
  | .string val => RustString val
  | _ => True

def SingleValue.toRust : SingleValue → Rust.SingleValue
  | .null => .null
  | .int val => .int val
  | .double val => .double val
  | .string val => .string (toRustString val)
  | .bool val => .bool val
  | .long val => .long val

def MutliValue.Accepted : MutliValue → Prop
  | .null => True
  | .int val => val.length ≤ Rust.maxIpcSize / BasicType.size Int32
  | .long val => val.length ≤ Rust.maxIpcSize / BasicType.size Int64
  | .double val => val.length ≤ Rust.maxIpcSize / BasicType.size Double
  | .string val => ∀ s ∈ val, RustString s

def MutliValue.toRust : MutliValue → List Rust.SingleValue
  | .null => []
  | .int val => val.map .int
  | .long val => val.map .long
  | .double val => val.map .double
  | .string val => val.map fun s => .string (toRustString s)

structure OperationItem.Accepted (item : OperationItem) : Prop where
  single : ∀ v ∈ item.singleParams, v.Accepted
  multi : ∀ m ∈ item.multiParams, m.Accepted

def OperationItem.toRust (item : OperationItem) : Rust.OperationItem :=
  .ofParams ((Rust.OperationType.fromI32 item.operation).getD .equalTo)
    (item.singleParams.map (·.toRust)) (item.multiParams.map (·.toRust))

structure DataSharePredicates.Accepted (p : DataSharePredicates) : Prop where
  operations : ∀ item ∈ p.operations, item.Accepted
  whereClause : RustString p.whereClause
  whereArgs : ∀ arg ∈ p.whereArgs, RustString arg
  order : RustString p.order

def DataSharePredicates.toRust (p : DataSharePredicates) : Rust.DataSharePredicates where
  operations := p.operations.map (·.toRust)
  whereClause := toRustString p.whereClause
  whereArgs := p.whereArgs.map toRustString
  order := toRustString p.order
  settingMode := p.settingMode

end Cpp

/-! ## Reading C++ bytes

Every part is read as its `toRust` if it is accepted and refused otherwise. -/

theorem reads_cppString (bs : StdString) (hlen : bs.length < 2 ^ 64) :
    (RustString bs → Reads Rust.readString (Cpp.marshalStringToBuffer bs) (toRustString bs)) ∧
      (¬RustString bs → Rejects Rust.readString (Cpp.marshalStringToBuffer bs)) := by
  by_cases hlimit : bs.length ≤ Rust.maxIpcSize
  · have hbuf := reads_bytes (σ := Rust.Cursor) hlimit hlen
    constructor
    · rintro ⟨-, s, hs⟩ rest
      rw [Rust.readString, Cpp.marshalStringToBuffer, Reader.run_bind_of_some (hbuf rest),
        toRustString, hs]
      rfl
    · intro h rest
      have hnone : fromUtf8 bs = none := by
        rw [Option.eq_none_iff_forall_ne_some]
        exact fun s hs => h ⟨hlimit, s, hs⟩
      rw [Rust.readString, Cpp.marshalStringToBuffer, Reader.run_bind_of_some (hbuf rest), hnone]
      rfl
  · exact ⟨fun h => absurd h.1 hlimit, fun _ => (rejects_bytes (not_le.mp hlimit) hlen).bind _⟩

/-- A container of parts that are accepted or refused. -/
theorem reads_cppVec {ι α : Type} {enc : ι → List UInt8} {p : Reader Rust.Cursor α} {val : ι → α}
    {ok : ι → Prop} {l : List ι} (hpos : ∀ x ∈ l, 0 < (enc x).length)
    (hlen : (vecBytes enc l).length < 2 ^ 64)
    (h : ∀ x ∈ l, (enc x).length < 2 ^ 64 →
      (ok x → Reads p (enc x) (val x)) ∧ (¬ok x → Rejects p (enc x))) :
    ((∀ x ∈ l, ok x) → Reads (readVec p) (vecBytes enc l) (l.map val)) ∧
      (¬(∀ x ∈ l, ok x) → Rejects (readVec p) (vecBytes enc l)) := by
  obtain ⟨hcount, helem⟩ := bounds_of_vecBytes hpos
  have hx := fun x hx => h x hx ((helem x hx).trans_lt hlen)
  constructor
  · exact fun hok => reads_vec (hcount.trans_lt hlen) fun x hm => (hx x hm).1 (hok x hm)
  · intro hok
    push Not at hok
    exact rejects_vec (hcount.trans_lt hlen) (fun x hm => (hx x hm).1) (fun x hm => (hx x hm).2) hok

theorem reads_cppStringVec (values : List StdString)
    (hlen : (Cpp.marshalStringVecToBuffer values).length < 2 ^ 64) :
    ((∀ s ∈ values, RustString s) → Reads Rust.readStringVec (Cpp.marshalStringVecToBuffer values)
        (values.map toRustString)) ∧
      (¬(∀ s ∈ values, RustString s) →
        Rejects Rust.readStringVec (Cpp.marshalStringVecToBuffer values)) := by
  refine reads_cppVec (fun s _ => by simp) hlen fun s _ hs => reads_cppString s ?_
  rw [Cpp.length_marshalStringToBuffer] at hs
  omega

theorem reads_cppBasicVec {α : Type} [BasicType α] {values : List α}
    (hpos : 0 < BasicType.size α) (hlen : (Cpp.marshalBasicTypeVecToBuffer values).length < 2 ^ 64) :
    (values.length ≤ Rust.maxIpcSize / BasicType.size α →
        Reads (Rust.readBasicVec α) (Cpp.marshalBasicTypeVecToBuffer values) values) ∧
      (¬values.length ≤ Rust.maxIpcSize / BasicType.size α →
        Rejects (Rust.readBasicVec α) (Cpp.marshalBasicTypeVecToBuffer values)) := by
  refine ⟨fun h => Rust.reads_basicVec h, fun h => rejects_boundedVec _ _ (not_le.mp h) ?_⟩
  have hcount := (bounds_of_vecBytes fun x (_ : x ∈ values) =>
    (by rwa [Cpp.length_marshalBasicTypeToBuffer] : 0 < (Cpp.marshalBasicTypeToBuffer x).length)).1
  exact hcount.trans_lt hlen

theorem reads_cppSingle (v : Cpp.SingleValue)
    (hlen : (Cpp.marshalSingleTypeToBuffer v).length < 2 ^ 64) :
    (v.Accepted → Reads Rust.readSingleValue (Cpp.marshalSingleTypeToBuffer v) v.toRust) ∧
      (¬v.Accepted → Rejects Rust.readSingleValue (Cpp.marshalSingleTypeToBuffer v)) := by
  have htag := reads_basic (σ := Rust.Cursor) v.index
  rw [Cpp.marshalSingleTypeToBuffer, List.length_append] at hlen
  cases v with
  | null => exact ⟨fun _ => htag.bind (Reads.pure _), fun h => absurd trivial h⟩
  | int val => exact ⟨fun _ => htag.bind (reads_basic val).bind_pure, fun h => absurd trivial h⟩
  | double val => exact ⟨fun _ => htag.bind (reads_basic val).bind_pure, fun h => absurd trivial h⟩
  | string val =>
    have hval : val.length < 2 ^ 64 := by
      rw [Cpp.SingleValue.marshalVal, Cpp.length_marshalStringToBuffer] at hlen
      omega
    exact ⟨fun h => htag.bind ((reads_cppString val hval).1 h).bind_pure,
      fun h => Rejects.bind_right htag (((reads_cppString val hval).2 h).bind _)⟩
  | bool val => exact ⟨fun _ => htag.bind (reads_basic val).bind_pure, fun h => absurd trivial h⟩
  | long val => exact ⟨fun _ => htag.bind (reads_basic val).bind_pure, fun h => absurd trivial h⟩

theorem reads_cppMulti (m : Cpp.MutliValue)
    (hlen : (Cpp.marshalMultiTypeToBuffer m).length < 2 ^ 64) :
    (m.Accepted → Reads Rust.readMultiValue (Cpp.marshalMultiTypeToBuffer m) m.toRust) ∧
      (¬m.Accepted → Rejects Rust.readMultiValue (Cpp.marshalMultiTypeToBuffer m)) := by
  have htag := reads_basic (σ := Rust.Cursor) m.index
  rw [Cpp.marshalMultiTypeToBuffer, List.length_append] at hlen
  have hval := Nat.lt_of_le_of_lt (Nat.le_add_left _ _) hlen
  cases m with
  | null => exact ⟨fun _ => htag.bind (Reads.pure _), fun h => absurd trivial h⟩
  | int val =>
    have hvec := reads_cppBasicVec (by decide) hval
    exact ⟨fun h => htag.bind (hvec.1 h).bind_pure,
      fun h => Rejects.bind_right htag ((hvec.2 h).bind _)⟩
  | long val =>
    have hvec := reads_cppBasicVec (by decide) hval
    exact ⟨fun h => htag.bind (hvec.1 h).bind_pure,
      fun h => Rejects.bind_right htag ((hvec.2 h).bind _)⟩
  | double val =>
    have hvec := reads_cppBasicVec (by decide) hval
    exact ⟨fun h => htag.bind (hvec.1 h).bind_pure,
      fun h => Rejects.bind_right htag ((hvec.2 h).bind _)⟩
  | string val =>
    have hvec := reads_cppStringVec val hval
    refine ⟨fun h => ?_, fun h => Rejects.bind_right htag ((hvec.2 h).bind _)⟩
    have hmap : (Cpp.MutliValue.string val).toRust = (val.map toRustString).map .string := by
      simp [Cpp.MutliValue.toRust]
    rw [hmap]
    exact htag.bind (hvec.1 h).bind_pure

theorem reads_cppItem (item : Cpp.OperationItem)
    (hlen : (Cpp.marshalOperationItemToBuffer item).length < 2 ^ 64) :
    (item.Accepted → Reads Rust.readOperationItem (Cpp.marshalOperationItemToBuffer item)
        item.toRust) ∧
      (¬item.Accepted →
        Rejects Rust.readOperationItem (Cpp.marshalOperationItemToBuffer item)) := by
  have hop := reads_basic (σ := Rust.Cursor) item.operation
  simp only [Cpp.marshalOperationItemToBuffer, List.length_append] at hlen
  have hsingle := reads_cppVec (l := item.singleParams)
    (fun v _ => Cpp.length_marshalSingleTypeToBuffer_pos v)
    (show (Cpp.marshalSingleTypeVecToBuffer _).length < _ by omega) fun v _ => reads_cppSingle v
  have hmulti := reads_cppVec (l := item.multiParams)
    (fun m _ => Cpp.length_marshalMultiTypeToBuffer_pos m)
    (show (Cpp.marshalMultiTypeVecToBuffer _).length < _ by omega) fun m _ => reads_cppMulti m
  constructor
  · exact fun h => hop.bind ((hsingle.1 h.single).bind (hmulti.1 h.multi).bind_pure)
  · intro h
    refine Rejects.bind_right hop ?_
    by_cases hs : ∀ v ∈ item.singleParams, v.Accepted
    · have hm : ¬∀ m ∈ item.multiParams, m.Accepted := fun hm => h ⟨hs, hm⟩
      exact Rejects.bind_right (hsingle.1 hs) ((hmulti.2 hm).bind _)
    · exact (hsingle.2 hs).bind_left _ _

theorem reads_cppPredicates (p : Cpp.DataSharePredicates)
    (hlen : (Cpp.marshalPredicatesToBuffer p).length < 2 ^ 64) :
    (p.Accepted → Reads Rust.readPredicates (Cpp.marshalPredicatesToBuffer p) p.toRust) ∧
      (¬p.Accepted → Rejects Rust.readPredicates (Cpp.marshalPredicatesToBuffer p)) := by
  simp only [Cpp.marshalPredicatesToBuffer, List.length_append,
    Cpp.length_marshalStringToBuffer] at hlen
  have hops := reads_cppVec (l := p.operations)
    (fun item _ => Cpp.length_marshalOperationItemToBuffer_pos item)
    (show (Cpp.marshalOperationItemVecToBuffer _).length < _ by omega) fun item _ =>
      reads_cppItem item
  have hclause := reads_cppString p.whereClause (by omega)
  have hargs := reads_cppStringVec p.whereArgs (by omega)
  have horder := reads_cppString p.order (by omega)
  constructor
  · exact fun h => (hops.1 h.operations).bind ((hclause.1 h.whereClause).bind
      ((hargs.1 h.whereArgs).bind ((horder.1 h.order).bind (reads_basic p.settingMode).bind_pure)))
  · intro h
    by_cases ho : ∀ item ∈ p.operations, item.Accepted
    · refine Rejects.bind_right (hops.1 ho) ?_
      by_cases hc : RustString p.whereClause
      · refine Rejects.bind_right (hclause.1 hc) ?_
        by_cases ha : ∀ arg ∈ p.whereArgs, RustString arg
        · refine Rejects.bind_right (hargs.1 ha) ?_
          have hr : ¬RustString p.order := fun hr => h ⟨ho, hc, ha, hr⟩
          exact (horder.2 hr).bind_left _ _
        · exact (hargs.2 ha).bind_left _ _
      · exact (hclause.2 hc).bind_left _ _
    · exact (hops.2 ho).bind_left _ _

/-! ## Writing it again -/

theorem writeString_toRustString {bs : StdString} (h : RustString bs) :
    Rust.writeString (toRustString bs) = Cpp.marshalStringToBuffer bs := by
  rw [Rust.writeString, utf8Bytes_toRustString h, Cpp.marshalStringToBuffer]

theorem writeStringVec_toRustString {values : List StdString} (h : ∀ s ∈ values, RustString s) :
    Rust.writeStringVec (values.map toRustString) = Cpp.marshalStringVecToBuffer values := by
  have hbytes : (values.map toRustString).flatMap Rust.writeString =
      values.flatMap Cpp.marshalStringToBuffer := by
    rw [List.flatMap_map]
    exact List.flatMap_congr fun s hs => writeString_toRustString (h s hs)
  rw [Rust.writeStringVec, vecBytes, hbytes, List.length_map]
  rfl

theorem writeSingleValue_toRust {v : Cpp.SingleValue} (h : v.Accepted) :
    Rust.writeSingleValue v.toRust = Cpp.marshalSingleTypeToBuffer v := by
  cases v with
  | string val =>
    exact congrArg (basicBytes Rust.singleTypeString ++ ·) (writeString_toRustString h)
  | _ => rfl

/-- A list with an element type and no elements, which a Rust item cannot express. -/
def Cpp.MutliValue.TypedEmpty (m : Cpp.MutliValue) : Prop :=
  m.toRust = [] ∧ m ≠ .null

/-- A list is written as it was sent, or as the single byte of a null. -/
theorem shrinks_multi {m : Cpp.MutliValue} (h : m.Accepted) :
    Shrinks (Rust.writeMultiValue m.toRust) (Cpp.marshalMultiTypeToBuffer m) (¬m.TypedEmpty) := by
  by_cases hne : m.TypedEmpty
  · have hwrite : (Rust.writeMultiValue m.toRust).length = 1 := by
      rw [hne.1]
      decide
    have hcount : 8 ≤ m.marshalVal.length := by
      cases m with
      | null => exact absurd rfl hne.2
      | string val =>
        rw [Cpp.MutliValue.marshalVal, Cpp.marshalStringVecToBuffer, Cpp.length_marshalVecToBuffer]
        omega
      | _ => simp [Cpp.MutliValue.marshalVal, Cpp.length_marshalBasicTypeVecToBuffer]
    refine Shrinks.of_lt ?_ (not_not.mpr hne)
    rw [hwrite, Cpp.marshalMultiTypeToBuffer, List.length_append]
    omega
  · refine Shrinks.of_eq ?_ hne
    cases m with
    | null => rfl
    | int val =>
      cases val with
      | nil => exact absurd ⟨rfl, by simp⟩ hne
      | cons x val =>
        exact congrArg (basicBytes Rust.multiTypeIntVec ++ Rust.writeI32Vec ·)
          (Rust.filterMap_asInt_map (x :: val))
    | long val =>
      cases val with
      | nil => exact absurd ⟨rfl, by simp⟩ hne
      | cons x val =>
        exact congrArg (basicBytes Rust.multiTypeLongVec ++ Rust.writeI64Vec ·)
          (Rust.filterMap_asLong_map (x :: val))
    | double val =>
      cases val with
      | nil => exact absurd ⟨rfl, by simp⟩ hne
      | cons x val =>
        exact congrArg (basicBytes Rust.multiTypeDoubleVec ++ Rust.writeF64Vec ·)
          (Rust.filterMap_asDouble_map (x :: val))
    | string val =>
      cases val with
      | nil => exact absurd ⟨rfl, by simp⟩ hne
      | cons x val =>
        have hmap : (Cpp.MutliValue.string (x :: val)).toRust =
            ((x :: val).map toRustString).map .string := by
          simp [Cpp.MutliValue.toRust]
        have hbytes := writeStringVec_toRustString h
        rw [← Rust.filterMap_asString_map ((x :: val).map toRustString), ← hmap] at hbytes
        exact congrArg (basicBytes Rust.multiTypeStringVec ++ ·) hbytes

theorem toRustString_eq_empty {bs : StdString} (h : RustString bs) :
    toRustString bs = "" ↔ bs = [] := by
  rw [← utf8Bytes_eq_nil, utf8Bytes_toRustString h]

theorem head_toRust_eq_empty {values : List Cpp.SingleValue} (h : ∀ v ∈ values, v.Accepted) :
    (values.map (·.toRust)).head? = some (.string "") ↔ values.head? = some (.string []) := by
  cases values with
  | nil => simp
  | cons v values =>
    have hv := h v List.mem_cons_self
    cases v with
    | string val => simpa [Cpp.SingleValue.toRust] using toRustString_eq_empty hv
    | _ => simp [Cpp.SingleValue.toRust]

/-- The operation codes whose first parameter never is a field. -/
def Cpp.OperationItem.Fieldless (item : Cpp.OperationItem) : Prop :=
  item.operation = OperationType.limit.code ∨ item.operation = OperationType.offset.code

theorem fieldless_iff (item : Cpp.OperationItem) :
    (item.toRust.operation = .limit ∨ item.toRust.operation = .offset) ↔ item.Fieldless := by
  have hop : item.toRust.operation =
      (Rust.OperationType.fromI32 item.operation).getD .equalTo := by
    rw [Cpp.OperationItem.toRust, Rust.OperationItem.operation_ofParams]
  have hcode : ∀ t : Rust.OperationType, t ≠ .equalTo →
      ((Rust.OperationType.fromI32 item.operation).getD .equalTo = t ↔ item.operation = t.toI32) := by
    intro t ht
    constructor
    · intro h
      cases hf : Rust.OperationType.fromI32 item.operation with
      | none =>
        rw [hf] at h
        exact absurd h.symm ht
      | some t' =>
        rw [hf, Option.getD_some] at h
        rw [← h, Rust.OperationType.toI32_of_fromI32 hf]
    · intro h
      rw [h, Rust.OperationType.fromI32_toI32, Option.getD_some]
  rw [hop, hcode _ (by decide), hcode _ (by decide)]
  rfl

/-- The Rust item has a place for everything in the item. -/
structure Cpp.OperationItem.Preserved (item : Cpp.OperationItem) : Prop where
  operation : ∃ t, Rust.OperationType.fromI32 item.operation = some t
  field : ¬(¬item.Fieldless ∧ item.singleParams.head? = some (.string []))
  multi : item.multiParams.length ≤ 1
  typed : ∀ m ∈ item.multiParams, ¬m.TypedEmpty

theorem shrinks_operation (item : Cpp.OperationItem) :
    Shrinks (Rust.writeBasic item.toRust.operation.toI32)
      (Cpp.marshalBasicTypeToBuffer item.operation)
      (∃ t, Rust.OperationType.fromI32 item.operation = some t) := by
  rw [Cpp.OperationItem.toRust, Rust.OperationItem.operation_ofParams]
  refine ⟨by rw [Rust.writeBasic, length_basicBytes, Cpp.length_marshalBasicTypeToBuffer],
    basicBytes_injective.eq_iff.trans ?_⟩
  constructor
  · intro h
    rw [← h]
    exact ⟨_, Rust.OperationType.fromI32_toI32 _⟩
  · rintro ⟨t, ht⟩
    rw [ht, Option.getD_some, Rust.OperationType.toI32_of_fromI32 ht]

/-- The single parameters lose an empty string in the place of the field. -/
theorem shrinks_singleParams {item : Cpp.OperationItem} (h : item.Accepted) :
    Shrinks (Rust.writeSingleValueVec item.toRust.singleParams)
      (Cpp.marshalSingleTypeVecToBuffer item.singleParams)
      (¬(¬item.Fieldless ∧ item.singleParams.head? = some (.string []))) := by
  have hall : Rust.writeSingleValueVec (item.singleParams.map (·.toRust)) =
      Cpp.marshalSingleTypeVecToBuffer item.singleParams :=
    (Shrinks.vecBytes (c := fun _ => True) fun v hv =>
      Shrinks.of_eq (writeSingleValue_toRust (h.single v hv)) trivial).eq_iff.mpr (by simp)
  have hparams := Rust.OperationItem.singleParams_ofParams
    ((Rust.OperationType.fromI32 item.operation).getD .equalTo)
    (item.singleParams.map (·.toRust)) (item.multiParams.map (·.toRust))
  have hfieldless := fieldless_iff item
  rw [Cpp.OperationItem.toRust, Rust.OperationItem.operation_ofParams] at hfieldless
  rw [← Cpp.OperationItem.toRust] at hparams
  rw [← hfieldless, ← head_toRust_eq_empty h.single, hparams, ← hall]
  split
  · next hdrop =>
    refine Shrinks.of_lt ?_ (not_not.mpr hdrop)
    obtain ⟨-, hhead⟩ := hdrop
    cases hs : item.singleParams with
    | nil => simp [hs] at hhead
    | cons v values =>
      have hpos := Rust.length_writeSingleValue_pos v.toRust
      simp only [Rust.writeSingleValueVec, length_vecBytes, List.map_cons, List.tail_cons,
        List.flatMap_cons, List.length_append]
      omega
  · next hkeep => exact Shrinks.of_eq rfl hkeep

/-- Of the lists, only the first one is kept. -/
theorem shrinks_multiParams {values : List Cpp.MutliValue} (h : ∀ m ∈ values, m.Accepted) :
    Shrinks (Rust.writeMultiValueVec (values.map (·.toRust)).head?.toList)
      (Cpp.marshalMultiTypeVecToBuffer values)
      (values.length ≤ 1 ∧ ∀ m ∈ values, ¬m.TypedEmpty) := by
  match values, h with
  | [], _ => exact Shrinks.of_eq rfl (by simp)
  | [m], h =>
    have hvec := Shrinks.vecBytes (l := [m]) (φ := fun m : Cpp.MutliValue => m.toRust)
      fun x hx => shrinks_multi (h x hx)
    exact hvec.congr (by simp)
  | m :: m' :: values, h =>
    refine Shrinks.of_lt ?_ (by simp)
    have hle := (shrinks_multi (h m List.mem_cons_self)).length_le
    have hpos := Cpp.length_marshalMultiTypeToBuffer_pos m'
    simp only [Rust.writeMultiValueVec, Cpp.marshalMultiTypeVecToBuffer, length_vecBytes,
      Cpp.length_marshalVecToBuffer, List.map_cons, List.head?_cons, Option.toList_some,
      List.flatMap_cons, List.flatMap_nil, List.length_append, List.length_nil]
    omega

theorem shrinks_item {item : Cpp.OperationItem} (h : item.Accepted) :
    Shrinks (Rust.writeOperationItem item.toRust) (Cpp.marshalOperationItemToBuffer item)
      item.Preserved := by
  have hmulti := shrinks_multiParams h.multi
  rw [← Rust.OperationItem.multiValues_ofParams
    ((Rust.OperationType.fromI32 item.operation).getD .equalTo)
    (item.singleParams.map (·.toRust)), ← Cpp.OperationItem.toRust] at hmulti
  have hitem := (shrinks_operation item).append ((shrinks_singleParams h).append hmulti)
  exact hitem.congr
    ⟨fun ⟨hop, hfield, hone, htyped⟩ => ⟨hop, hfield, hone, htyped⟩,
      fun ⟨hop, hfield, hone, htyped⟩ => ⟨hop, hfield, hone, htyped⟩⟩

/-- What the C++ writer sent survives a Rust peer. -/
structure Cpp.DataSharePredicates.WireCompatible (p : Cpp.DataSharePredicates) : Prop where
  accepted : p.Accepted
  preserved : ∀ item ∈ p.operations, item.Preserved

theorem marshal_toRust_eq_iff {p : Cpp.DataSharePredicates} (h : p.Accepted) :
    Rust.marshalPredicatesToBuffer p.toRust = Cpp.marshalPredicatesToBuffer p ↔
      ∀ item ∈ p.operations, item.Preserved := by
  have hops := Shrinks.vecBytes (φ := fun item : Cpp.OperationItem => item.toRust)
    fun item hi => shrinks_item (h.operations item hi)
  have hrest := Shrinks.of_eq (c := True) (congrArg₂ (· ++ ·) (writeString_toRustString h.whereClause)
    (congrArg₂ (· ++ ·) (writeStringVec_toRustString h.whereArgs)
      (congrArg₂ (· ++ ·) (writeString_toRustString h.order)
        (rfl : Rust.writeBasic p.settingMode = Cpp.marshalBasicTypeToBuffer p.settingMode)))) trivial
  exact (hops.append hrest).eq_iff.trans (iff_of_eq (and_true _))

theorem unmarshal_cppPredicates (p : Cpp.DataSharePredicates)
    (hlen : (Cpp.marshalPredicatesToBuffer p).length < 2 ^ 64) :
    (p.Accepted →
        Rust.unmarshalPredicatesFromBuffer (Cpp.marshalPredicatesToBuffer p) = some p.toRust) ∧
      (¬p.Accepted →
        Rust.unmarshalPredicatesFromBuffer (Cpp.marshalPredicatesToBuffer p) = none) := by
  obtain ⟨hread, hreject⟩ := reads_cppPredicates p hlen
  rw [Rust.unmarshalPredicatesFromBuffer, ← Rust.Cursor.feed_eq]
  exact ⟨fun h => by rw [(hread h).run_feed], fun h => (hreject h).run_feed⟩

/-- A Rust peer that decodes a buffer a C++ peer wrote and encodes the result again
produces the same bytes exactly when the predicates are `WireCompatible`. -/
theorem reencode_iff (p : Cpp.DataSharePredicates)
    (hlen : (Cpp.marshalPredicatesToBuffer p).length < 2 ^ 64) :
    (Rust.unmarshalPredicatesFromBuffer (Cpp.marshalPredicatesToBuffer p)).map
        Rust.marshalPredicatesToBuffer = some (Cpp.marshalPredicatesToBuffer p) ↔
      p.WireCompatible := by
  obtain ⟨hread, hreject⟩ := unmarshal_cppPredicates p hlen
  by_cases h : p.Accepted
  · rw [hread h, Option.map_some, Option.some.injEq, marshal_toRust_eq_iff h]
    exact ⟨fun hp => ⟨h, hp⟩, fun hp => hp.preserved⟩
  · rw [hreject h]
    exact ⟨fun hp => (Option.some_ne_none _ hp.symm).elim, fun hp => absurd hp.accepted h⟩

theorem reencode_iff_equalTo :
    (Rust.unmarshalPredicatesFromBuffer (Cpp.marshalPredicatesToBuffer
        (Cpp.buildPredicates [.equalTo [105] (.int 7)]))).map Rust.marshalPredicatesToBuffer =
        some (Cpp.marshalPredicatesToBuffer (Cpp.buildPredicates [.equalTo [105] (.int 7)])) ↔
      (Cpp.buildPredicates [.equalTo [105] (.int 7)]).WireCompatible :=
  reencode_iff (Cpp.buildPredicates [.equalTo [105] (.int 7)]) (by decide)

theorem rustString_nil : RustString [] :=
  ⟨by decide, "", fromUtf8_utf8Bytes ""⟩

/-- `KeyPrefix("")` loses its parameter. -/
theorem reencode_keyPrefix_empty :
    ¬∀ calls, (Cpp.marshalPredicatesToBuffer (Cpp.buildPredicates calls)).length < 2 ^ 64 →
      (Rust.unmarshalPredicatesFromBuffer (Cpp.marshalPredicatesToBuffer
        (Cpp.buildPredicates calls))).map Rust.marshalPredicatesToBuffer =
        some (Cpp.marshalPredicatesToBuffer (Cpp.buildPredicates calls)) := by
  intro h
  have hlen : (Cpp.marshalPredicatesToBuffer (Cpp.buildPredicates [.keyPrefix []])).length <
      2 ^ 64 := by decide
  have hsame := h [.keyPrefix []] hlen
  have haccepted : (Cpp.buildPredicates [.keyPrefix []]).Accepted := by
    refine ⟨fun item hi => ?_, rustString_nil, fun arg ha => absurd ha List.not_mem_nil,
      rustString_nil⟩
    obtain rfl := List.mem_singleton.mp hi
    refine ⟨fun v hv => ?_, fun m hm => absurd hm List.not_mem_nil⟩
    rcases List.mem_cons.mp hv with rfl | hv
    · exact rustString_nil
    · obtain rfl : v = .null := by simpa using hv
      exact trivial
  rw [(unmarshal_cppPredicates _ hlen).1 haccepted, Option.map_some, Option.some.injEq,
    marshal_toRust_eq_iff haccepted] at hsame
  exact (hsame _ List.mem_cons_self).field (by simp [Cpp.OperationItem.Fieldless]; decide)

end DataShare
