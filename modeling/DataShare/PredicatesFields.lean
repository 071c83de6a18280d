import DataShare.OperationCodes
import DataShare.RustParcel

/-!
# The fields of encoded predicates

Both wire paths of `DataSharePredicates` have the same fields in the same order : a count, a
code, a tag, a value. `WirePredicates` is a message of such fields, with operation codes and
tags that need not be known, and `DataSharePredicates.wire` the message that both writers
write (`marshalPredicates_eq`, `serialize_eq`). The paths differ in the layout of a field
(`WireField.bytes`, `WireField.parcel`) and in what they make of a message.

The latter is a `WirePath` : a limit on strings and lists, what becomes of an operation
code, and how an item is made of its parameters. `WirePredicates.decode` is the message as a
path reads it, and `isSome_decode` says which messages the path accepts.
-/

namespace DataShare

namespace Rust

/-! ## Fields -/

inductive WireField
  | count (n : ℕ)
  | code (c : Int32)
  | tag (t : UInt8)
  | int (v : Int32)
  | long (v : Int64)
  | double (v : Double)
  | bool (v : Bool)
  | string (s : String)
  | mode (m : Int16)

/-- A field in a buffer. -/
def WireField.bytes : WireField → List UInt8
  | .count n => sizeBytes n
  | .code c => writeBasic c
  | .tag t => writeBasic t
  | .int v => writeBasic v
  | .long v => writeBasic v
  | .double v => writeBasic v
  | .bool v => writeBasic v
  | .string s => writeString s
  | .mode m => writeBasic m

/-- A field in a parcel. -/
def WireField.parcel : WireField → ParcelField
  | .count n => countField n
  | .code c => ⟨.i32, c⟩
  | .tag t => ⟨.u32, t.toUInt32⟩
  | .int v => ⟨.i32, v⟩
  | .long v => ⟨.i64, v⟩
  | .double v => ⟨.f64, v⟩
  | .bool v => ⟨.bool, v⟩
  | .string s => ⟨.string, s⟩
  | .mode m => ⟨.i16, m⟩

def bufferBytes (fs : List WireField) : List UInt8 :=
  fs.flatMap WireField.bytes

def parcelFields (fs : List WireField) : List ParcelField :=
  fs.map WireField.parcel

@[simp] theorem bufferBytes_nil : bufferBytes [] = [] :=
  rfl

@[simp] theorem bufferBytes_cons (f : WireField) (fs : List WireField) :
    bufferBytes (f :: fs) = f.bytes ++ bufferBytes fs :=
  rfl

@[simp] theorem bufferBytes_append (fs gs : List WireField) :
    bufferBytes (fs ++ gs) = bufferBytes fs ++ bufferBytes gs :=
  List.flatMap_append

@[simp] theorem parcelFields_nil : parcelFields [] = [] :=
  rfl

@[simp] theorem parcelFields_cons (f : WireField) (fs : List WireField) :
    parcelFields (f :: fs) = [f.parcel] ++ parcelFields fs :=
  rfl

@[simp] theorem parcelFields_append (fs gs : List WireField) :
    parcelFields (fs ++ gs) = parcelFields fs ++ parcelFields gs :=
  List.map_append

theorem WireField.bytes_ne_nil (f : WireField) : f.bytes ≠ [] := by
  refine List.ne_nil_of_length_pos ?_
  cases f <;> simp [WireField.bytes, writeBasic, writeString, BasicType.size]

/-- A list behind its count. -/
def countedFields {ι : Type} (enc : ι → List WireField) (l : List ι) : List WireField :=
  .count l.length :: l.flatMap enc

theorem bufferBytes_flatMap {ι : Type} (enc : ι → List WireField) :
    ∀ l : List ι, bufferBytes (l.flatMap enc) = l.flatMap fun x => bufferBytes (enc x)
  | [] => rfl
  | x :: l => by
    rw [List.flatMap_cons, List.flatMap_cons, bufferBytes_append, bufferBytes_flatMap enc l]

theorem parcelFields_flatMap {ι : Type} (enc : ι → List WireField) :
    ∀ l : List ι, parcelFields (l.flatMap enc) = l.flatMap fun x => parcelFields (enc x)
  | [] => rfl
  | x :: l => by
    rw [List.flatMap_cons, List.flatMap_cons, parcelFields_append, parcelFields_flatMap enc l]

theorem bufferBytes_counted {ι : Type} (enc : ι → List WireField) (l : List ι) :
    bufferBytes (countedFields enc l) = vecBytes (fun x => bufferBytes (enc x)) l := by
  rw [countedFields, bufferBytes_cons, bufferBytes_flatMap]
  rfl

theorem parcelFields_counted {ι : Type} (enc : ι → List WireField) (l : List ι) :
    parcelFields (countedFields enc l) =
      [countField l.length] ++ l.flatMap fun x => parcelFields (enc x) := by
  rw [countedFields, parcelFields_cons, parcelFields_flatMap]
  rfl

/-! ## Messages -/

inductive WireSingle
  | null
  | int (v : Int32)
  | double (v : Double)
  | string (v : String)
  | bool (v : Bool)
  | long (v : Int64)
  | unknown (tag : UInt8) (h : singleTypeLong < tag)

inductive WireMulti
  | null
  | ints (vs : List Int32)
  | longs (vs : List Int64)
  | doubles (vs : List Double)
  | strings (vs : List String)
  | unknown (tag : UInt8) (h : multiTypeStringVec < tag)

structure WireItem where
  op : Int32
  singles : List WireSingle
  multis : List WireMulti

structure WirePredicates where
  items : List WireItem
  whereClause : String
  whereArgs : List String
  order : String
  mode : Int16

/-- A value of an unknown type has no fields behind its tag. -/
def WireSingle.fields : WireSingle → List WireField
  | .null => [.tag singleTypeNull]
  | .int v => [.tag singleTypeInt, .int v]
  | .double v => [.tag singleTypeDouble, .double v]
  | .string v => [.tag singleTypeString, .string v]
  | .bool v => [.tag singleTypeBool, .bool v]
  | .long v => [.tag singleTypeLong, .long v]
  | .unknown tag _ => [.tag tag]

def WireMulti.fields : WireMulti → List WireField
  | .null => [.tag multiTypeNull]
  | .ints vs => .tag multiTypeIntVec :: countedFields (fun v => [.int v]) vs
  | .longs vs => .tag multiTypeLongVec :: countedFields (fun v => [.long v]) vs
  | .doubles vs => .tag multiTypeDoubleVec :: countedFields (fun v => [.double v]) vs
  | .strings vs => .tag multiTypeStringVec :: countedFields (fun v => [.string v]) vs
  | .unknown tag _ => [.tag tag]

def WireItem.fields (item : WireItem) : List WireField :=
  .code item.op :: (countedFields WireSingle.fields item.singles ++
    countedFields WireMulti.fields item.multis)

def WirePredicates.fields (t : WirePredicates) : List WireField :=
  countedFields WireItem.fields t.items ++ (.string t.whereClause ::
    (countedFields (fun arg => [.string arg]) t.whereArgs ++ [.string t.order, .mode t.mode]))

/-! ## What is written -/

/-- A blob is written as a null. -/
def SingleValue.wire : SingleValue → WireSingle
  | .null => .null
  | .int v => .int v
  | .double v => .double v
  | .string v => .string v
  | .bool v => .bool v
  | .long v => .long v
  | .blob _ => .null

def wireMulti (values : List SingleValue) : WireMulti :=
  match values.head? with
  | some (.int _) => .ints (values.filterMap (·.asInt?))
  | some (.long _) => .longs (values.filterMap (·.asLong?))
  | some (.double _) => .doubles (values.filterMap (·.asDouble?))
  | some (.string _) => .strings (values.filterMap (·.asString?))
  | _ => .null

def OperationItem.wire (item : OperationItem) : WireItem where
  op := item.operation.toI32
  singles := item.singleParams.map (·.wire)
  multis := item.multiValues.toList.map wireMulti

/-- The message that predicates are written as. -/
def DataSharePredicates.wire (p : DataSharePredicates) : WirePredicates where
  items := p.operations.map (·.wire)
  whereClause := p.whereClause
  whereArgs := p.whereArgs
  order := p.order
  mode := p.settingMode

theorem vecBytes_map {ι κ : Type} (enc : κ → List UInt8) (φ : ι → κ) (l : List ι) :
    vecBytes enc (l.map φ) = vecBytes (fun x => enc (φ x)) l := by
  rw [vecBytes, vecBytes, List.length_map, List.flatMap_map]

theorem vecBytes_congr {ι : Type} {enc enc' : ι → List UInt8} {l : List ι}
    (h : ∀ x ∈ l, enc x = enc' x) : vecBytes enc l = vecBytes enc' l := by
  rw [vecBytes, vecBytes, List.flatMap_congr h]

theorem bufferBytes_countedBasic {α : Type} [BasicType α] {field : α → WireField}
    (h : ∀ v, (field v).bytes = writeBasic v) (vs : List α) :
    bufferBytes (countedFields (fun v => [field v]) vs) = vecBytes writeBasic vs := by
  rw [bufferBytes_counted]
  refine vecBytes_congr fun v _ => ?_
  rw [bufferBytes_cons, bufferBytes_nil, List.append_nil, h]

theorem bufferBytes_countedStrings (vs : List String) :
    bufferBytes (countedFields (fun v => [.string v]) vs) = writeStringVec vs := by
  rw [bufferBytes_counted, writeStringVec]
  refine vecBytes_congr fun v _ => ?_
  rw [bufferBytes_cons, bufferBytes_nil, List.append_nil, WireField.bytes]

theorem writeSingleValue_eq (v : SingleValue) : writeSingleValue v = bufferBytes v.wire.fields := by
  cases v <;> simp [writeSingleValue, SingleValue.wire, WireSingle.fields, WireField.bytes]

theorem writeMultiValue_eq (values : List SingleValue) :
    writeMultiValue values = bufferBytes (wireMulti values).fields := by
  unfold writeMultiValue wireMulti
  rcases values.head? with - | v
  · rfl
  cases v with
  | int _ => exact congrArg _ (bufferBytes_countedBasic (fun _ => rfl) _).symm
  | long _ => exact congrArg _ (bufferBytes_countedBasic (fun _ => rfl) _).symm
  | double _ => exact congrArg _ (bufferBytes_countedBasic (fun _ => rfl) _).symm
  | string _ => exact congrArg _ (bufferBytes_countedStrings _).symm
  | _ => rfl

theorem writeOperationItem_eq (item : OperationItem) :
    writeOperationItem item = bufferBytes item.wire.fields := by
  simp only [writeOperationItem, OperationItem.wire, WireItem.fields, bufferBytes_cons,
    bufferBytes_append, bufferBytes_counted, vecBytes_map, writeSingleValueVec, writeMultiValueVec]
  rw [vecBytes_congr fun v _ => writeSingleValue_eq v,
    vecBytes_congr fun values _ => writeMultiValue_eq values]
  rfl

/-- The buffer has the fields of the message. -/
theorem marshalPredicates_eq (p : DataSharePredicates) :
    marshalPredicatesToBuffer p = bufferBytes p.wire.fields := by
  have hargs := bufferBytes_countedStrings p.whereArgs
  have hops : bufferBytes (countedFields WireItem.fields (p.operations.map (·.wire))) =
      writeOperationItemVec p.operations := by
    rw [bufferBytes_counted, vecBytes_map, writeOperationItemVec]
    exact vecBytes_congr fun item _ => (writeOperationItem_eq item).symm
  simp only [marshalPredicatesToBuffer, DataSharePredicates.wire, WirePredicates.fields,
    bufferBytes_cons, bufferBytes_append, bufferBytes_nil, List.append_nil, hargs, hops]
  rfl

theorem writeSingleValueVariant_eq (v : SingleValue) :
    writeSingleValueVariant v = parcelFields v.wire.fields := by
  cases v <;> rfl

theorem parcelFields_countedMap {α : Type} (field : α → WireField) (vs : List α) :
    parcelFields (countedFields (fun v => [field v]) vs) =
      countField vs.length :: vs.map fun v => (field v).parcel := by
  rw [parcelFields_counted]
  refine congrArg (countField vs.length :: ·) ?_
  exact (List.map_eq_flatMap).symm

theorem writeMultiValueVariant_eq (values : List SingleValue) :
    writeMultiValueVariant values = parcelFields (wireMulti values).fields := by
  unfold writeMultiValueVariant wireMulti
  rcases values.head? with - | v
  · rfl
  cases v with
  | int _ => exact congrArg (_ :: ·) (parcelFields_countedMap .int _).symm
  | long _ => exact congrArg (_ :: ·) (parcelFields_countedMap .long _).symm
  | double _ => exact congrArg (_ :: ·) (parcelFields_countedMap .double _).symm
  | string _ => exact congrArg (_ :: ·) (parcelFields_countedMap .string _).symm
  | _ => rfl

theorem spCount_eq (item : OperationItem) :
    item.spCount = Int32.ofNat item.singleParams.length := by
  rw [OperationItem.spCount, OperationItem.singleParams, List.length_append, List.length_append,
    Int32.ofNat_add, Int32.ofNat_add]
  have hfield : (if item.field = "" then 0 else 1 : Int32) = Int32.ofNat
      (if item.field = "" then [] else [SingleValue.string item.field]).length := by
    split <;> rfl
  have hvalue : (if item.value.isSome then 1 else 0 : Int32) =
      Int32.ofNat item.value.toList.length := by
    cases item.value <;> rfl
  rw [hfield, hvalue, Int32.add_assoc]

theorem serializeItem_eq (item : OperationItem) :
    serializeItem item = parcelFields item.wire.fields := by
  have hmulti : (⟨.i32, if item.multiValues.isSome then 1 else 0⟩ : ParcelField) =
      countField item.multiValues.toList.length := by
    cases item.multiValues <;> rfl
  have hcount : (⟨.i32, Int32.ofNat item.singleParams.length⟩ : ParcelField) =
      countField item.singleParams.length :=
    rfl
  simp only [serializeItem, OperationItem.wire, WireItem.fields, parcelFields_cons,
    parcelFields_append, parcelFields_counted, List.length_map, List.flatMap_map, spCount_eq]
  rw [hmulti, hcount, List.flatMap_congr fun v _ => writeSingleValueVariant_eq v,
    List.flatMap_congr fun values _ => writeMultiValueVariant_eq values]
  simp [WireField.parcel]

/-- The parcel has the fields of the message. -/
theorem serialize_eq (p : DataSharePredicates) : serialize p = parcelFields p.wire.fields := by
  have hargs := parcelFields_countedMap .string p.whereArgs
  have hops : parcelFields (countedFields WireItem.fields (p.operations.map (·.wire))) =
      countField p.operations.length :: p.operations.flatMap serializeItem := by
    rw [parcelFields_counted, List.length_map, List.flatMap_map,
      List.flatMap_congr fun item _ => serializeItem_eq item]
    rfl
  simp only [serialize, DataSharePredicates.wire, WirePredicates.fields, parcelFields_cons,
    parcelFields_append, parcelFields_nil, List.append_nil, hargs, hops]
  rfl

/-! ## What a path makes of a message -/

/-- A limit on strings, the meaning of an operation code and the making of an item. -/
structure WirePath where
  limit : Option ℕ
  operation : Int32 → Option OperationType
  item : OperationType → List SingleValue → List (List SingleValue) → OperationItem

/-- `unmarshal_predicates_from_buffer`. -/
def bufferPath : WirePath where
  limit := some maxIpcSize
  operation op := some (.ofCode op)
  item := .ofParams

/-- `deserialize`. -/
def parcelPath : WirePath where
  limit := none
  operation := OperationType.fromI32
  item operation singleParams multiParams :=
    .ofVariants operation singleParams (multiParams.head?.bind dropEmpty)

/-- A length within a limit, if there is one. -/
def Allows (limit : Option ℕ) (n : ℕ) : Prop :=
  ∀ m ∈ limit, n ≤ m

instance (limit : Option ℕ) (n : ℕ) : Decidable (Allows limit n) :=
  inferInstanceAs (Decidable (∀ m ∈ limit, n ≤ m))

theorem allows_none (n : ℕ) : Allows none n :=
  fun _ h => nomatch h

theorem allows_some {m n : ℕ} : Allows (some m) n ↔ n ≤ m := by
  simp [Allows]

def decodeString (limit : Option ℕ) (s : String) : Option String :=
  if Allows limit (utf8Bytes s).length then some s else none

/-- A list of scalars of `size` bytes. -/
def decodeBasics {α : Type} [BasicType α] (limit : Option ℕ) (vs : List α) : Option (List α) :=
  if Allows (limit.map (· / BasicType.size α)) vs.length then some vs else none

def WireSingle.decode (limit : Option ℕ) : WireSingle → Option SingleValue
  | .null => some .null
  | .int v => some (.int v)
  | .double v => some (.double v)
  | .string v => (decodeString limit v).map .string
  | .bool v => some (.bool v)
  | .long v => some (.long v)
  | .unknown _ _ => none

def WireMulti.decode (limit : Option ℕ) : WireMulti → Option (List SingleValue)
  | .null => some []
  | .ints vs => (decodeBasics limit vs).map (List.map .int)
  | .longs vs => (decodeBasics limit vs).map (List.map .long)
  | .doubles vs => (decodeBasics limit vs).map (List.map .double)
  | .strings vs => (vs.mapM (decodeString limit)).map (List.map .string)
  | .unknown _ _ => none

def WireItem.decode (path : WirePath) (item : WireItem) : Option OperationItem :=
  (path.operation item.op).bind fun operation =>
    (item.singles.mapM (WireSingle.decode path.limit)).bind fun singleParams =>
      (item.multis.mapM (WireMulti.decode path.limit)).map fun multiParams =>
        path.item operation singleParams multiParams

def WirePredicates.decode (path : WirePath) (t : WirePredicates) : Option DataSharePredicates :=
  (t.items.mapM (WireItem.decode path)).bind fun operations =>
    (decodeString path.limit t.whereClause).bind fun whereClause =>
      (t.whereArgs.mapM (decodeString path.limit)).bind fun whereArgs =>
        (decodeString path.limit t.order).map fun order =>
          ⟨operations, whereClause, whereArgs, order, t.mode⟩

/-! ## Which messages a path accepts -/

def WireSingle.Known : WireSingle → Prop
  | .unknown _ _ => False
  | _ => True

def WireMulti.Known : WireMulti → Prop
  | .unknown _ _ => False
  | _ => True

def WireSingle.Within (limit : Option ℕ) : WireSingle → Prop
  | .string v => Allows limit (utf8Bytes v).length
  | _ => True

def WireMulti.Within (limit : Option ℕ) : WireMulti → Prop
  | .ints vs => Allows (limit.map (· / BasicType.size Int32)) vs.length
  | .longs vs => Allows (limit.map (· / BasicType.size Int64)) vs.length
  | .doubles vs => Allows (limit.map (· / BasicType.size Double)) vs.length
  | .strings vs => ∀ v ∈ vs, Allows limit (utf8Bytes v).length
  | _ => True

namespace WirePredicates

/-- Every value and list is of a known type. -/
def KnownTags (t : WirePredicates) : Prop :=
  ∀ item ∈ t.items, (∀ v ∈ item.singles, v.Known) ∧ ∀ m ∈ item.multis, m.Known

/-- Every operation code is one of `OperationType`. -/
def KnownCodes (t : WirePredicates) : Prop :=
  ∀ item ∈ t.items, ∃ operation, OperationType.fromI32 item.op = some operation

/-- No string or list is longer than the limit allows. -/
structure Within (limit : Option ℕ) (t : WirePredicates) : Prop where
  items : ∀ item ∈ t.items, (∀ v ∈ item.singles, v.Within limit) ∧ ∀ m ∈ item.multis, m.Within limit
  whereClause : Allows limit (utf8Bytes t.whereClause).length
  whereArgs : ∀ arg ∈ t.whereArgs, Allows limit (utf8Bytes arg).length
  order : Allows limit (utf8Bytes t.order).length

end WirePredicates

theorem isSome_decodeString {limit : Option ℕ} {s : String} :
    (decodeString limit s).isSome ↔ Allows limit (utf8Bytes s).length := by
  unfold decodeString
  split <;> simp [*]

theorem isSome_decodeBasics {α : Type} [BasicType α] {limit : Option ℕ} {vs : List α} :
    (decodeBasics limit vs).isSome ↔ Allows (limit.map (· / BasicType.size α)) vs.length := by
  unfold decodeBasics
  split <;> simp [*]

theorem WireSingle.isSome_decode {limit : Option ℕ} (v : WireSingle) :
    (v.decode limit).isSome ↔ v.Known ∧ v.Within limit := by
  cases v <;> simp [WireSingle.decode, WireSingle.Known, WireSingle.Within, isSome_decodeString]

theorem WireMulti.isSome_decode {limit : Option ℕ} (m : WireMulti) :
    (m.decode limit).isSome ↔ m.Known ∧ m.Within limit := by
  cases m <;> simp [WireMulti.decode, WireMulti.Known, WireMulti.Within, isSome_decodeString,
    isSome_decodeBasics, isSome_mapM_iff]

theorem isSome_bind_iff {α β : Type} {o : Option α} {f : α → Option β} {c : Prop}
    (h : ∀ a, (f a).isSome ↔ c) : (o.bind f).isSome ↔ o.isSome ∧ c := by
  cases o <;> simp [h]

theorem isSome_map_iff {α β : Type} {o : Option α} {f : α → β} :
    (o.map f).isSome ↔ o.isSome := by
  rw [Option.isSome_map]

theorem WireItem.isSome_decode {path : WirePath} (item : WireItem) :
    (item.decode path).isSome ↔ (path.operation item.op).isSome ∧
      (∀ v ∈ item.singles, (v.decode path.limit).isSome) ∧
        ∀ m ∈ item.multis, (m.decode path.limit).isSome := by
  unfold WireItem.decode
  rw [isSome_bind_iff fun operation => isSome_bind_iff fun singleParams => isSome_map_iff,
    isSome_mapM_iff, isSome_mapM_iff]

/-- A path accepts a message if it knows the operations and the types, and the strings and
lists are within its limit. -/
theorem isSome_decode (path : WirePath) (t : WirePredicates) :
    (t.decode path).isSome ↔ (∀ item ∈ t.items, (path.operation item.op).isSome) ∧
      t.KnownTags ∧ t.Within path.limit := by
  have hdecode : (t.decode path).isSome ↔ (∀ item ∈ t.items, (item.decode path).isSome) ∧
      Allows path.limit (utf8Bytes t.whereClause).length ∧
        (∀ arg ∈ t.whereArgs, Allows path.limit (utf8Bytes arg).length) ∧
          Allows path.limit (utf8Bytes t.order).length := by
    unfold WirePredicates.decode
    rw [isSome_bind_iff fun operations => isSome_bind_iff fun whereClause =>
      isSome_bind_iff fun whereArgs => isSome_map_iff]
    simp only [isSome_mapM_iff, isSome_decodeString]
  rw [hdecode]
  simp only [WireItem.isSome_decode, WireSingle.isSome_decode, WireMulti.isSome_decode]
  constructor
  · rintro ⟨hitems, hclause, hargs, horder⟩
    refine ⟨fun item hi => (hitems item hi).1, fun item hi => ?_, fun item hi => ?_, hclause,
      hargs, horder⟩
    · obtain ⟨-, hsingle, hmulti⟩ := hitems item hi
      exact ⟨fun v hv => (hsingle v hv).1, fun m hm => (hmulti m hm).1⟩
    · obtain ⟨-, hsingle, hmulti⟩ := hitems item hi
      exact ⟨fun v hv => (hsingle v hv).2, fun m hm => (hmulti m hm).2⟩
  · rintro ⟨hops, htags, hwithin⟩
    refine ⟨fun item hi => ⟨hops item hi, fun v hv => ?_, fun m hm => ?_⟩, hwithin.whereClause,
      hwithin.whereArgs, hwithin.order⟩
    · exact ⟨(htags item hi).1 v hv, (hwithin.items item hi).1 v hv⟩
    · exact ⟨(htags item hi).2 m hm, (hwithin.items item hi).2 m hm⟩

theorem isSome_decode_buffer (t : WirePredicates) :
    (t.decode bufferPath).isSome ↔ t.KnownTags ∧ t.Within (some maxIpcSize) := by
  rw [isSome_decode]
  exact and_iff_right fun _ _ => rfl

theorem WirePredicates.within_none (t : WirePredicates) : t.Within none where
  items _ _ := by
    refine ⟨fun v _ => ?_, fun m _ => ?_⟩
    · cases v <;> simp [WireSingle.Within, allows_none]
    · cases m <;> simp [WireMulti.Within, allows_none]
  whereClause := allows_none _
  whereArgs _ _ := allows_none _
  order := allows_none _

theorem isSome_decode_parcel (t : WirePredicates) :
    (t.decode parcelPath).isSome ↔ t.KnownTags ∧ t.KnownCodes := by
  have hcodes : (∀ item ∈ t.items, (parcelPath.operation item.op).isSome) ↔ t.KnownCodes :=
    forall₂_congr fun item _ => Option.isSome_iff_exists
  rw [isSome_decode, hcodes]
  constructor
  · rintro ⟨hknown, htags, -⟩
    exact ⟨htags, hknown⟩
  · rintro ⟨htags, hknown⟩
    exact ⟨hknown, htags, t.within_none⟩

end Rust

end DataShare
