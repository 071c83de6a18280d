import DataShare.ByteCodec

/-!
# Rust predicates and their binary codec

`DataSharePredicates` of `datashare_common_rust` keeps an operation as a field name, an
optional value, an optional list and extra values (`predicates/operations.rs`). The wire
format of `ipc/itypes_utils.rs` has positional parameters only. The writer joins field,
value and extras into one list and picks the type of a list from its first element ; the
reader takes the first parameter for the field if it is a string.

What comes back is the `normalize`d value : a blob is a null, and a list keeps the elements
of the type of its first one (`unmarshalPredicates_marshalPredicates_normalize`). An item
without a field whose value is a string is read back with the value as its field.
-/

namespace DataShare

namespace Rust

/-- `MAX_IPC_SIZE`. -/
def maxIpcSize : ℕ := 128 * 1024 * 1024

theorem maxIpcSize_lt : maxIpcSize < 2 ^ 64 := by decide

/-! ## The data model -/

inductive OperationType
  | invalidOperation | equalTo | notEqualTo | greaterThan | lessThan | greaterThanOrEqualTo
  | lessThanOrEqualTo | and | or | isNull | isNotNull | in | notIn | like | unlike
  | orderByAsc | orderByDesc | limit | offset | beginWarp | endWarp | beginWith | endWith
  | inKey | distinct | groupBy | indexedBy | contains | glob | between | notBetween
  | keyPrefix | crossJoin | innerJoin | leftOuterJoin | using | on
deriving DecidableEq, Repr

/-- `operation as i32`. -/
def OperationType.toI32 (t : OperationType) : Int32 :=
  Int32.ofNat t.ctorIdx

/-- The match of `from_i32`, arm by arm. -/
def OperationType.fromI32 (val : Int32) : Option OperationType :=
  [invalidOperation, equalTo, notEqualTo, greaterThan, lessThan, greaterThanOrEqualTo,
    lessThanOrEqualTo, and, or, isNull, isNotNull, .in, notIn, like, unlike, orderByAsc,
    orderByDesc, limit, offset, beginWarp, endWarp, beginWith, endWith, inKey, distinct,
    groupBy, indexedBy, contains, glob, between, notBetween, keyPrefix, crossJoin, innerJoin,
    leftOuterJoin, .using, on].find? fun t => t.toI32 == val

@[simp] theorem OperationType.fromI32_toI32 (t : OperationType) : fromI32 t.toI32 = some t := by
  cases t <;> decide

theorem OperationType.toI32_of_fromI32 {val : Int32} {t : OperationType}
    (h : fromI32 val = some t) : t.toI32 = val := by
  simpa using List.find?_some h

inductive SingleValue
  | null
  | int (v : Int32)
  | double (v : Double)
  | string (v : String)
  | bool (v : Bool)
  | long (v : Int64)
  | blob (v : List UInt8)
deriving DecidableEq

structure OperationItem where
  operation : OperationType
  field : String
  value : Option SingleValue
  multiValues : Option (List SingleValue)
  extraSingleParams : List SingleValue
deriving DecidableEq

/-- `INVALID_MODE`. -/
def invalidMode : Int16 := -1

structure DataSharePredicates where
  operations : List OperationItem := []
  whereClause : String := ""
  whereArgs : List String := []
  order : String := ""
  settingMode : Int16 := invalidMode
deriving DecidableEq

/-! ## Builders -/

namespace DataSharePredicates

def push (p : DataSharePredicates) (item : OperationItem) : DataSharePredicates :=
  { p with operations := p.operations ++ [item] }

def equalTo (p : DataSharePredicates) (field : String) (value : SingleValue) :
    DataSharePredicates :=
  p.push ⟨.equalTo, field, some value, none, []⟩

def notEqualTo (p : DataSharePredicates) (field : String) (value : SingleValue) :
    DataSharePredicates :=
  p.push ⟨.notEqualTo, field, some value, none, []⟩

def greaterThan (p : DataSharePredicates) (field : String) (value : SingleValue) :
    DataSharePredicates :=
  p.push ⟨.greaterThan, field, some value, none, []⟩

def lessThan (p : DataSharePredicates) (field : String) (value : SingleValue) :
    DataSharePredicates :=
  p.push ⟨.lessThan, field, some value, none, []⟩

def inSet (p : DataSharePredicates) (field : String) (values : List SingleValue) :
    DataSharePredicates :=
  p.push ⟨.in, field, none, some values, []⟩

def orderByAsc (p : DataSharePredicates) (field : String) : DataSharePredicates :=
  p.push ⟨.orderByAsc, field, none, none, []⟩

def orderByDesc (p : DataSharePredicates) (field : String) : DataSharePredicates :=
  p.push ⟨.orderByDesc, field, none, none, []⟩

def limit (p : DataSharePredicates) (count : Int64) : DataSharePredicates :=
  p.push ⟨.limit, "", some (.long count), none, []⟩

def offset (p : DataSharePredicates) (offset : Int64) : DataSharePredicates :=
  p.push ⟨.offset, "", some (.long offset), none, []⟩

def setWhereClause (p : DataSharePredicates) (clause : String) : DataSharePredicates :=
  { p with whereClause := clause }

def setWhereArgs (p : DataSharePredicates) (args : List String) : DataSharePredicates :=
  { p with whereArgs := args }

def setOrder (p : DataSharePredicates) (order : String) : DataSharePredicates :=
  { p with order := order }

def setSettingMode (p : DataSharePredicates) (mode : Int16) : DataSharePredicates :=
  { p with settingMode := mode }

def clear (p : DataSharePredicates) : DataSharePredicates :=
  { p with operations := [] }

/-- `from_operations`. -/
def fromOperations (operations : List OperationItem) : DataSharePredicates :=
  { operations := operations }

end DataSharePredicates

/-- The builder methods, and the setters of the other fields. -/
inductive BuilderCall
  | equalTo (field : String) (value : SingleValue)
  | notEqualTo (field : String) (value : SingleValue)
  | greaterThan (field : String) (value : SingleValue)
  | lessThan (field : String) (value : SingleValue)
  | inSet (field : String) (values : List SingleValue)
  | orderByAsc (field : String)
  | orderByDesc (field : String)
  | limit (count : Int64)
  | offset (offset : Int64)
  | setWhereClause (clause : String)
  | setWhereArgs (args : List String)
  | setOrder (order : String)
  | setSettingMode (mode : Int16)
  | clear

def BuilderCall.apply (p : DataSharePredicates) : BuilderCall → DataSharePredicates
  | .equalTo field value => p.equalTo field value
  | .notEqualTo field value => p.notEqualTo field value
  | .greaterThan field value => p.greaterThan field value
  | .lessThan field value => p.lessThan field value
  | .inSet field values => p.inSet field values
  | .orderByAsc field => p.orderByAsc field
  | .orderByDesc field => p.orderByDesc field
  | .limit count => p.limit count
  | .offset rows => p.offset rows
  | .setWhereClause clause => p.setWhereClause clause
  | .setWhereArgs args => p.setWhereArgs args
  | .setOrder order => p.setOrder order
  | .setSettingMode mode => p.setSettingMode mode
  | .clear => p.clear

/-- The value a chain of calls builds, from `new()`. -/
def buildPredicates (calls : List BuilderCall) : DataSharePredicates :=
  calls.foldl BuilderCall.apply {}

/-! ## Writing -/

def writeBasic {α : Type} [BasicType α] (val : α) : List UInt8 :=
  basicBytes val

def writeString (s : String) : List UInt8 :=
  stringBytes (utf8Bytes s)

def writeStringVec (values : List String) : List UInt8 :=
  vecBytes writeString values

def writeI32Vec (values : List Int32) : List UInt8 :=
  vecBytes writeBasic values

def writeI64Vec (values : List Int64) : List UInt8 :=
  vecBytes writeBasic values

def writeF64Vec (values : List Double) : List UInt8 :=
  vecBytes writeBasic values

/-- The `SINGLE_TYPE_...` constants. -/
def singleTypeNull : UInt8 := 0

def singleTypeInt : UInt8 := 1

def singleTypeDouble : UInt8 := 2

def singleTypeString : UInt8 := 3

def singleTypeBool : UInt8 := 4

def singleTypeLong : UInt8 := 5

/-- A blob is not part of the wire format and is written as a null. -/
def writeSingleValue : SingleValue → List UInt8
  | .null => writeBasic singleTypeNull
  | .int v => writeBasic singleTypeInt ++ writeBasic v
  | .double v => writeBasic singleTypeDouble ++ writeBasic v
  | .string v => writeBasic singleTypeString ++ writeString v
  | .bool v => writeBasic singleTypeBool ++ writeBasic v
  | .long v => writeBasic singleTypeLong ++ writeBasic v
  | .blob _ => writeBasic singleTypeNull

def writeSingleValueVec (values : List SingleValue) : List UInt8 :=
  vecBytes writeSingleValue values

/-- The `MULTI_TYPE_...` constants. -/
def multiTypeNull : UInt8 := 0

def multiTypeIntVec : UInt8 := 1

def multiTypeLongVec : UInt8 := 2

def multiTypeDoubleVec : UInt8 := 3

def multiTypeStringVec : UInt8 := 4

/-! The closures given to `filter_map`. -/

def SingleValue.asInt? : SingleValue → Option Int32
  | .int v => some v
  | _ => none

def SingleValue.asLong? : SingleValue → Option Int64
  | .long v => some v
  | _ => none

def SingleValue.asDouble? : SingleValue → Option Double
  | .double v => some v
  | _ => none

def SingleValue.asString? : SingleValue → Option String
  | .string v => some v
  | _ => none

@[simp] theorem filterMap_asInt_map (vs : List Int32) :
    (vs.map SingleValue.int).filterMap (·.asInt?) = vs :=
  List.filterMap_map.trans List.filterMap_some

@[simp] theorem filterMap_asLong_map (vs : List Int64) :
    (vs.map SingleValue.long).filterMap (·.asLong?) = vs :=
  List.filterMap_map.trans List.filterMap_some

@[simp] theorem filterMap_asDouble_map (vs : List Double) :
    (vs.map SingleValue.double).filterMap (·.asDouble?) = vs :=
  List.filterMap_map.trans List.filterMap_some

@[simp] theorem filterMap_asString_map (vs : List String) :
    (vs.map SingleValue.string).filterMap (·.asString?) = vs :=
  List.filterMap_map.trans List.filterMap_some

/-- The type of a list is determined from its first element. -/
def writeMultiValue (values : List SingleValue) : List UInt8 :=
  match values.head? with
  | some (.int _) => writeBasic multiTypeIntVec ++ writeI32Vec (values.filterMap (·.asInt?))
  | some (.long _) => writeBasic multiTypeLongVec ++ writeI64Vec (values.filterMap (·.asLong?))
  | some (.double _) => writeBasic multiTypeDoubleVec ++ writeF64Vec (values.filterMap (·.asDouble?))
  | some (.string _) =>
    writeBasic multiTypeStringVec ++ writeStringVec (values.filterMap (·.asString?))
  | _ => writeBasic multiTypeNull

def writeMultiValueVec (values : List (List SingleValue)) : List UInt8 :=
  vecBytes writeMultiValue values

/-- The `single_params` of an item : the field unless it is empty, the value and the extras. -/
def OperationItem.singleParams (item : OperationItem) : List SingleValue :=
  (if item.field = "" then [] else [.string item.field]) ++
    (item.value.toList ++ item.extraSingleParams)

def writeOperationItem (item : OperationItem) : List UInt8 :=
  writeBasic item.operation.toI32 ++ (writeSingleValueVec item.singleParams ++
    writeMultiValueVec item.multiValues.toList)

def writeOperationItemVec (items : List OperationItem) : List UInt8 :=
  vecBytes writeOperationItem items

/-- No write to a `Vec<u8>` fails, so the result is always `Some`. -/
def marshalPredicatesToBuffer (predicates : DataSharePredicates) : List UInt8 :=
  writeOperationItemVec predicates.operations ++
    (writeString predicates.whereClause ++
      (writeStringVec predicates.whereArgs ++
        (writeString predicates.order ++ writeBasic predicates.settingMode)))

/-! ## Reading -/

/-- `Cursor<&[u8]>` : the unread bytes. -/
structure Cursor where
  rest : List UInt8

def Cursor.readExact (n : ℕ) : Reader Cursor (List UInt8) where
  run s :=
    if n ≤ s.rest.length then (some (s.rest.take n), ⟨s.rest.drop n⟩) else (none, ⟨[]⟩)

instance : ByteFeed Cursor where
  feed := Cursor.mk
  take := Cursor.readExact
  run_take bs rest := by simp [Cursor.readExact]

theorem Cursor.feed_eq (bs : List UInt8) : (ByteFeed.feed bs : Cursor) = ⟨bs⟩ :=
  rfl

def readString : Reader Cursor String := do
  let buf ← readBytes Cursor maxIpcSize
  Reader.ofOption (fromUtf8 buf)

def readStringVec : Reader Cursor (List String) :=
  readVec readString

/-- `read_i32_vec`, `read_i64_vec` and `read_f64_vec`. -/
def readBasicVec (α : Type) [BasicType α] : Reader Cursor (List α) :=
  readBoundedVec (maxIpcSize / BasicType.size α) (readBasic Cursor α)

def readI32Vec : Reader Cursor (List Int32) :=
  readBasicVec Int32

def readI64Vec : Reader Cursor (List Int64) :=
  readBasicVec Int64

def readF64Vec : Reader Cursor (List Double) :=
  readBasicVec Double

def readSingleValue : Reader Cursor SingleValue := do
  let typeId ← readBasic Cursor UInt8
  if typeId = singleTypeNull then pure .null
  else if typeId = singleTypeInt then do
    let v ← readBasic Cursor Int32
    pure (.int v)
  else if typeId = singleTypeDouble then do
    let v ← readBasic Cursor Double
    pure (.double v)
  else if typeId = singleTypeString then do
    let v ← readString
    pure (.string v)
  else if typeId = singleTypeBool then do
    let v ← readBasic Cursor Bool
    pure (.bool v)
  else if typeId = singleTypeLong then do
    let v ← readBasic Cursor Int64
    pure (.long v)
  else Reader.fail

def readSingleValueVec : Reader Cursor (List SingleValue) :=
  readVec readSingleValue

def readMultiValue : Reader Cursor (List SingleValue) := do
  let typeId ← readBasic Cursor UInt8
  if typeId = multiTypeNull then pure []
  else if typeId = multiTypeIntVec then do
    let ints ← readI32Vec
    pure (ints.map .int)
  else if typeId = multiTypeLongVec then do
    let longs ← readI64Vec
    pure (longs.map .long)
  else if typeId = multiTypeDoubleVec then do
    let doubles ← readF64Vec
    pure (doubles.map .double)
  else if typeId = multiTypeStringVec then do
    let strings ← readStringVec
    pure (strings.map .string)
  else Reader.fail

def readMultiValueVec : Reader Cursor (List (List SingleValue)) :=
  readVec readMultiValue

/-- How `read_operation_item` makes an item of the parameters. -/
def OperationItem.ofParams (operation : OperationType) (singleParams : List SingleValue)
    (multiParams : List (List SingleValue)) : OperationItem :=
  let item (field : String) (value : Option SingleValue) (extra : List SingleValue) :=
    ⟨operation, field, value, multiParams.head?, extra⟩
  match singleParams with
  | [] => item "" none []
  | first :: rest =>
    if operation = .limit ∨ operation = .offset then item "" (some first) rest
    else
      match first with
      | .string s => item s rest.head? rest.tail
      | first => item "" (some first) rest

/-- The parameters an item is made of are its parameters again, unless the first is an
empty string in the place of the field. -/
theorem OperationItem.singleParams_ofParams (operation : OperationType)
    (singleParams : List SingleValue) (multiParams : List (List SingleValue)) :
    (ofParams operation singleParams multiParams).singleParams =
      if ¬(operation = .limit ∨ operation = .offset) ∧ singleParams.head? = some (.string "") then
        singleParams.tail
      else singleParams := by
  have hrest : ∀ rest : List SingleValue, rest.head?.toList ++ rest.tail = rest := by
    intro rest
    cases rest <;> rfl
  cases singleParams with
  | nil => simp [ofParams, OperationItem.singleParams]
  | cons first rest =>
    by_cases hop : operation = .limit ∨ operation = .offset
    · simp [ofParams, OperationItem.singleParams, hop]
    · cases first with
      | string s => by_cases hs : s = "" <;> simp [ofParams, OperationItem.singleParams, hop, hs, hrest]
      | _ => simp [ofParams, OperationItem.singleParams, hop]

@[simp] theorem OperationItem.operation_ofParams (operation : OperationType)
    (singleParams : List SingleValue) (multiParams : List (List SingleValue)) :
    (ofParams operation singleParams multiParams).operation = operation := by
  rw [ofParams.eq_def]
  split
  · rfl
  · split
    · rfl
    · split <;> rfl

@[simp] theorem OperationItem.multiValues_ofParams (operation : OperationType)
    (singleParams : List SingleValue) (multiParams : List (List SingleValue)) :
    (ofParams operation singleParams multiParams).multiValues = multiParams.head? := by
  rw [ofParams.eq_def]
  split
  · rfl
  · split
    · rfl
    · split <;> rfl

/-- An unknown operation is taken for `EqualTo`. -/
def readOperationItem : Reader Cursor OperationItem := do
  let op ← readBasic Cursor Int32
  let operation := (OperationType.fromI32 op).getD .equalTo
  let singleParams ← readSingleValueVec
  let multiParams ← readMultiValueVec
  pure (.ofParams operation singleParams multiParams)

def readOperationItemVec : Reader Cursor (List OperationItem) :=
  readVec readOperationItem

def readPredicates : Reader Cursor DataSharePredicates := do
  let operations ← readOperationItemVec
  let whereClause ← readString
  let whereArgs ← readStringVec
  let order ← readString
  let mode ← readBasic Cursor Int16
  pure (((((DataSharePredicates.fromOperations operations).setWhereClause whereClause).setWhereArgs
    whereArgs).setOrder order).setSettingMode mode)

def unmarshalPredicatesFromBuffer (data : List UInt8) : Option DataSharePredicates :=
  (readPredicates.run ⟨data⟩).1

/-! ## What is written is read back -/

theorem reads_string {s : String} (h : (utf8Bytes s).length ≤ maxIpcSize) :
    Reads readString (writeString s) s := by
  have hmax := maxIpcSize_lt
  have hbuf := reads_bytes (σ := Cursor) h (by omega)
  intro rest
  rw [readString, writeString, Reader.run_bind_of_some (hbuf rest), fromUtf8_utf8Bytes]
  rfl

theorem reads_stringVec (values : List String) (hlen : values.length < 2 ^ 64)
    (h : ∀ s ∈ values, (utf8Bytes s).length ≤ maxIpcSize) :
    Reads readStringVec (writeStringVec values) values := by
  have hread := reads_vec hlen fun s hs => reads_string (h s hs)
  rwa [List.map_id'] at hread

theorem reads_basicVec {α : Type} [BasicType α] {values : List α}
    (h : values.length ≤ maxIpcSize / BasicType.size α) :
    Reads (readBasicVec α) (vecBytes writeBasic values) values := by
  have hlen : values.length < 2 ^ 64 :=
    (h.trans (Nat.div_le_self _ _)).trans_lt maxIpcSize_lt
  have hread := reads_boundedVec (σ := Cursor) h hlen fun x _ => reads_basic x
  rwa [List.map_id'] at hread

/-- No string is longer than the reader accepts. -/
def SingleValue.Fits : SingleValue → Prop
  | .string v => (utf8Bytes v).length ≤ maxIpcSize
  | _ => True

/-- What is left of a value. -/
def SingleValue.normalize : SingleValue → SingleValue
  | .blob _ => .null
  | v => v

theorem reads_singleValue (v : SingleValue) (h : v.Fits) :
    Reads readSingleValue (writeSingleValue v) v.normalize := by
  have htag := fun tag : UInt8 => reads_basic (σ := Cursor) tag
  cases v with
  | null => exact (htag singleTypeNull).bind (Reads.pure _)
  | int v => exact (htag singleTypeInt).bind (reads_basic v).bind_pure
  | double v => exact (htag singleTypeDouble).bind (reads_basic v).bind_pure
  | string v => exact (htag singleTypeString).bind (reads_string h).bind_pure
  | bool v => exact (htag singleTypeBool).bind (reads_basic v).bind_pure
  | long v => exact (htag singleTypeLong).bind (reads_basic v).bind_pure
  | blob v => exact (htag singleTypeNull).bind (Reads.pure _)

/-- No list or string is longer than the reader accepts. -/
def FitsMulti (values : List SingleValue) : Prop :=
  match values.head? with
  | some (.int _) => (values.filterMap (·.asInt?)).length ≤ maxIpcSize / BasicType.size Int32
  | some (.long _) => (values.filterMap (·.asLong?)).length ≤ maxIpcSize / BasicType.size Int64
  | some (.double _) =>
    (values.filterMap (·.asDouble?)).length ≤ maxIpcSize / BasicType.size Double
  | some (.string _) => ∀ s ∈ values.filterMap (·.asString?), (utf8Bytes s).length ≤ maxIpcSize
  | _ => True

/-- What is left of a list : the elements of the type of the first one. -/
def normalizeMulti (values : List SingleValue) : List SingleValue :=
  match values.head? with
  | some (.int _) => (values.filterMap (·.asInt?)).map .int
  | some (.long _) => (values.filterMap (·.asLong?)).map .long
  | some (.double _) => (values.filterMap (·.asDouble?)).map .double
  | some (.string _) => (values.filterMap (·.asString?)).map .string
  | _ => []

theorem length_writeString_pos (s : String) : 0 < (writeString s).length := by
  rw [writeString, length_stringBytes]
  omega

theorem length_writeSingleValue_pos (v : SingleValue) : 0 < (writeSingleValue v).length := by
  cases v <;> simp [writeSingleValue, writeBasic, BasicType.size]

theorem length_writeMultiValue_pos (values : List SingleValue) :
    0 < (writeMultiValue values).length := by
  rw [writeMultiValue]
  split <;> simp [writeBasic, BasicType.size]

theorem length_writeOperationItem_pos (item : OperationItem) :
    0 < (writeOperationItem item).length := by
  simp [writeOperationItem, writeBasic, BasicType.size]

theorem reads_multiValue (values : List SingleValue) (h : FitsMulti values)
    (hlen : (writeMultiValue values).length < 2 ^ 64) :
    Reads readMultiValue (writeMultiValue values) (normalizeMulti values) := by
  have htag := fun tag : UInt8 => reads_basic (σ := Cursor) tag
  rw [FitsMulti] at h
  rw [writeMultiValue] at hlen ⊢
  rw [normalizeMulti]
  split at h
  · exact (htag multiTypeIntVec).bind (reads_basicVec h).bind_pure
  · exact (htag multiTypeLongVec).bind (reads_basicVec h).bind_pure
  · exact (htag multiTypeDoubleVec).bind (reads_basicVec h).bind_pure
  · next hhead =>
    have hcount := (bounds_of_vecBytes (l := values.filterMap (·.asString?))
      fun s _ => length_writeString_pos s).1
    simp only [hhead, List.length_append] at hlen
    have hvec := reads_stringVec _ (Nat.lt_of_le_of_lt hcount (Nat.lt_of_le_of_lt
      (Nat.le_add_left _ _) hlen)) h
    exact (htag multiTypeStringVec).bind hvec.bind_pure
  · exact (htag multiTypeNull).bind (Reads.pure _)

namespace OperationItem

/-- The parameters of the item are accepted by the reader. -/
structure Fits (item : OperationItem) : Prop where
  single : ∀ v ∈ item.singleParams, v.Fits
  multi : ∀ values ∈ item.multiValues.toList, FitsMulti values

/-- What is left of an item. -/
def normalize (item : OperationItem) : OperationItem where
  operation := item.operation
  field := item.field
  value := item.value.map (·.normalize)
  multiValues := item.multiValues.map normalizeMulti
  extraSingleParams := item.extraSingleParams.map (·.normalize)

/-- The position of a parameter tells whether it is the field, the value or an extra. -/
structure Positional (item : OperationItem) : Prop where
  extra : item.value = none → item.extraSingleParams = []
  limit : item.operation = .limit ∨ item.operation = .offset → item.field = ""
  field : item.field = "" → ∀ s, item.value ≠ some (.string s)

/-- What the reader makes of the parameters an item is written with. -/
def readBack (item : OperationItem) : OperationItem :=
  ofParams item.operation (item.singleParams.map (·.normalize))
    (item.multiValues.toList.map normalizeMulti)

/-- The reader makes the item of its own parameters again. -/
theorem readBack_of_positional {item : OperationItem} (h : item.Positional) :
    item.readBack = item.normalize := by
  unfold readBack
  obtain ⟨operation, field, value, multiValues, extra⟩ := item
  have hmulti : (multiValues.toList.map normalizeMulti).head? = multiValues.map normalizeMulti := by
    cases multiValues <;> rfl
  obtain ⟨hextra, hlimit, hfield⟩ := h
  dsimp only at hextra hlimit hfield
  by_cases hf : field = ""
  · cases value with
    | none => simp [ofParams, singleParams, normalize, hf, hextra rfl, hmulti]
    | some v =>
      have hv := hfield hf
      cases v with
      | string s => exact absurd rfl (hv s)
      | _ => simp [ofParams, singleParams, normalize, hf, hmulti, SingleValue.normalize]
  · have hop : ¬(operation = .limit ∨ operation = .offset) := fun hop => hf (hlimit hop)
    cases value with
    | none =>
      simp [ofParams, singleParams, normalize, hf, hop, hextra rfl, hmulti, SingleValue.normalize]
    | some v => simp [ofParams, singleParams, normalize, hf, hop, hmulti, SingleValue.normalize]

end OperationItem

theorem reads_operationItem (item : OperationItem) (h : item.Fits)
    (hlen : (writeOperationItem item).length < 2 ^ 64) :
    Reads readOperationItem (writeOperationItem item) item.readBack := by
  simp only [writeOperationItem, List.length_append] at hlen
  obtain ⟨hcount, -⟩ := bounds_of_vecBytes (l := item.singleParams)
    fun v _ => length_writeSingleValue_pos v
  obtain ⟨hmcount, hmlen⟩ := bounds_of_vecBytes (l := item.multiValues.toList)
    fun values _ => length_writeMultiValue_pos values
  rw [writeSingleValueVec, writeMultiValueVec] at hlen
  have hsingle := reads_vec (by omega) fun v hv => reads_singleValue v (h.single v hv)
  have hmulti := reads_vec (by omega) fun values hv => reads_multiValue values (h.multi values hv)
    (by have := hmlen values hv; omega)
  refine (reads_basic item.operation.toI32).bind ?_
  simp only [OperationType.fromI32_toI32, Option.getD_some]
  exact hsingle.bind hmulti.bind_pure

namespace DataSharePredicates

/-- Every string and list is accepted by the reader. -/
structure Fits (p : DataSharePredicates) : Prop where
  operations : ∀ item ∈ p.operations, item.Fits
  whereClause : (utf8Bytes p.whereClause).length ≤ maxIpcSize
  whereArgs : ∀ arg ∈ p.whereArgs, (utf8Bytes arg).length ≤ maxIpcSize
  order : (utf8Bytes p.order).length ≤ maxIpcSize

/-- What the reader makes of a predicates value. -/
def readBack (p : DataSharePredicates) : DataSharePredicates :=
  { p with operations := p.operations.map (·.readBack) }

/-- What is left of a predicates value. -/
def normalize (p : DataSharePredicates) : DataSharePredicates :=
  { p with operations := p.operations.map (·.normalize) }

end DataSharePredicates

theorem reads_predicates (p : DataSharePredicates) (h : p.Fits)
    (hlen : (marshalPredicatesToBuffer p).length < 2 ^ 64) :
    Reads readPredicates (marshalPredicatesToBuffer p) p.readBack := by
  have hsplit := hlen
  simp only [marshalPredicatesToBuffer, List.length_append] at hsplit
  obtain ⟨hcount, hitem⟩ := bounds_of_vecBytes (l := p.operations)
    fun item _ => length_writeOperationItem_pos item
  obtain ⟨hargs, -⟩ := bounds_of_vecBytes (l := p.whereArgs) fun arg _ => length_writeString_pos arg
  rw [writeOperationItemVec, writeStringVec] at hsplit
  have hops := reads_vec (by omega) fun item hi => reads_operationItem item (h.operations item hi)
    (by have := hitem item hi; omega)
  have hclause := reads_string h.whereClause
  have hwhere := reads_stringVec p.whereArgs (by omega) h.whereArgs
  have horder := reads_string h.order
  exact hops.bind (hclause.bind (hwhere.bind (horder.bind (reads_basic p.settingMode).bind_pure)))

theorem unmarshalPredicates_marshalPredicates (p : DataSharePredicates) (h : p.Fits)
    (hlen : (marshalPredicatesToBuffer p).length < 2 ^ 64) :
    unmarshalPredicatesFromBuffer (marshalPredicatesToBuffer p) = some p.readBack := by
  have hrun := (reads_predicates p h hlen).run_feed
  rw [Cursor.feed_eq] at hrun
  rw [unmarshalPredicatesFromBuffer, hrun]

theorem unmarshalPredicates_of_positional (p : DataSharePredicates) (h : p.Fits)
    (hpos : ∀ item ∈ p.operations, item.Positional)
    (hlen : (marshalPredicatesToBuffer p).length < 2 ^ 64) :
    unmarshalPredicatesFromBuffer (marshalPredicatesToBuffer p) = some p.normalize := by
  have hback : p.readBack = p.normalize := by
    rw [DataSharePredicates.readBack, DataSharePredicates.normalize,
      List.map_congr_left fun item hi => OperationItem.readBack_of_positional (hpos item hi)]
  rw [unmarshalPredicates_marshalPredicates p h hlen, hback]

/-! ## A buffer of the allowed size

Nothing in a buffer of at most `maxIpcSize` bytes is too long for the reader. -/

theorem length_flatMap_basic {α : Type} [BasicType α] : ∀ values : List α,
    (values.flatMap writeBasic).length = values.length * BasicType.size α
  | [] => by simp
  | v :: values => by
    rw [List.flatMap_cons, List.length_append, length_flatMap_basic values, List.length_cons,
      Nat.succ_mul, writeBasic, length_basicBytes, Nat.add_comm]

theorem length_vecBytes_basic {α : Type} [BasicType α] (values : List α) :
    (vecBytes writeBasic values).length = 8 + values.length * BasicType.size α := by
  rw [length_vecBytes, length_flatMap_basic]

theorem length_le_of_basicVec {α : Type} [BasicType α] {values : List α} {n : ℕ}
    (hsize : 0 < BasicType.size α) (h : (vecBytes writeBasic values).length ≤ n) :
    values.length ≤ n / BasicType.size α := by
  rw [length_vecBytes_basic] at h
  exact (Nat.le_div_iff_mul_le hsize).mpr (by omega)

theorem SingleValue.fits_of_length_le {v : SingleValue}
    (h : (writeSingleValue v).length ≤ maxIpcSize) : v.Fits := by
  cases v with
  | string s =>
    simp only [writeSingleValue, writeString, List.length_append, length_stringBytes] at h
    exact (by omega : (utf8Bytes s).length ≤ maxIpcSize)
  | _ => exact trivial

theorem fitsStrings_of_length_le {values : List String}
    (h : (writeStringVec values).length ≤ maxIpcSize) :
    ∀ s ∈ values, (utf8Bytes s).length ≤ maxIpcSize := by
  intro s hs
  have hle := (bounds_of_vecBytes (l := values) fun s _ => length_writeString_pos s).2 s hs
  rw [writeString, length_stringBytes] at hle
  rw [writeStringVec] at h
  omega

theorem fitsMulti_of_length_le {values : List SingleValue}
    (h : (writeMultiValue values).length ≤ maxIpcSize) : FitsMulti values := by
  rw [writeMultiValue] at h
  rw [FitsMulti]
  split at h <;> try rw [List.length_append] at h
  · exact length_le_of_basicVec (by decide) (by rw [← writeI32Vec]; omega)
  · exact length_le_of_basicVec (by decide) (by rw [← writeI64Vec]; omega)
  · exact length_le_of_basicVec (by decide) (by rw [← writeF64Vec]; omega)
  · exact fitsStrings_of_length_le (by omega)
  · trivial

theorem OperationItem.fits_of_length_le {item : OperationItem}
    (h : (writeOperationItem item).length ≤ maxIpcSize) : item.Fits := by
  simp only [writeOperationItem, List.length_append, writeSingleValueVec, writeMultiValueVec] at h
  constructor
  · intro v hv
    have hle := (bounds_of_vecBytes fun v _ => length_writeSingleValue_pos v).2 v hv
    exact SingleValue.fits_of_length_le (by omega)
  · intro values hv
    have hle := (bounds_of_vecBytes fun values _ => length_writeMultiValue_pos values).2 values hv
    exact fitsMulti_of_length_le (by omega)

theorem DataSharePredicates.fits_of_length_le {p : DataSharePredicates}
    (h : (marshalPredicatesToBuffer p).length ≤ maxIpcSize) : p.Fits := by
  simp only [marshalPredicatesToBuffer, List.length_append, writeOperationItemVec] at h
  constructor
  · intro item hi
    have hle := (bounds_of_vecBytes fun item _ => length_writeOperationItem_pos item).2 item hi
    exact OperationItem.fits_of_length_le (by omega)
  · rw [writeString, length_stringBytes] at h
    omega
  · exact fitsStrings_of_length_le (by omega)
  · simp only [writeString, length_stringBytes] at h
    omega

/-! ## Predicates built by the public methods -/

/-- An item as a builder method makes it. -/
structure OperationItem.Built (item : OperationItem) : Prop where
  extra : item.extraSingleParams = []
  limit : item.operation = .limit ∨ item.operation = .offset → item.field = ""

theorem built_of_mem_apply {p : DataSharePredicates} (h : ∀ item ∈ p.operations, item.Built)
    (call : BuilderCall) : ∀ item ∈ (call.apply p).operations, item.Built := by
  have hpush : ∀ item : OperationItem, item.Built →
      ∀ i ∈ (p.push item).operations, i.Built := by
    intro item hitem i hi
    rcases List.mem_append.mp hi with hi | hi
    · exact h i hi
    · rwa [List.mem_singleton.mp hi]
  cases call with
  | setWhereClause clause => exact h
  | setWhereArgs args => exact h
  | setOrder order => exact h
  | setSettingMode mode => exact h
  | clear => exact fun i hi => absurd hi List.not_mem_nil
  | _ => exact hpush _ ⟨rfl, by simp⟩

theorem built_of_mem_foldl : ∀ (calls : List BuilderCall) (p : DataSharePredicates),
    (∀ item ∈ p.operations, item.Built) →
      ∀ item ∈ (calls.foldl BuilderCall.apply p).operations, item.Built
  | [], _, h => h
  | call :: calls, p, h => built_of_mem_foldl calls (call.apply p) (built_of_mem_apply h call)

theorem built_of_mem_buildPredicates (calls : List BuilderCall) :
    ∀ item ∈ (buildPredicates calls).operations, item.Built :=
  built_of_mem_foldl calls {} (by simp)

/-- A list with elements of one type, which the wire format has. -/
inductive Uniform : List SingleValue → Prop
  | ints (vs : List Int32) : Uniform (vs.map .int)
  | longs (vs : List Int64) : Uniform (vs.map .long)
  | doubles (vs : List Double) : Uniform (vs.map .double)
  | strings (vs : List String) : Uniform (vs.map .string)

theorem Uniform.normalizeMulti_eq {values : List SingleValue} (h : Uniform values) :
    normalizeMulti values = values := by
  cases h with
  | ints vs =>
    cases vs with
    | nil => rfl
    | cons v vs => exact congrArg (List.map SingleValue.int) (filterMap_asInt_map (v :: vs))
  | longs vs =>
    cases vs with
    | nil => rfl
    | cons v vs => exact congrArg (List.map SingleValue.long) (filterMap_asLong_map (v :: vs))
  | doubles vs =>
    cases vs with
    | nil => rfl
    | cons v vs => exact congrArg (List.map SingleValue.double) (filterMap_asDouble_map (v :: vs))
  | strings vs =>
    cases vs with
    | nil => rfl
    | cons v vs => exact congrArg (List.map SingleValue.string) (filterMap_asString_map (v :: vs))

/-- An item of which the wire format has every value : no blobs, and uniform lists. -/
structure OperationItem.Representable (item : OperationItem) : Prop where
  value : ∀ bytes, item.value ≠ some (.blob bytes)
  extra : ∀ bytes, .blob bytes ∉ item.extraSingleParams
  multi : ∀ values, item.multiValues = some values → Uniform values

theorem SingleValue.normalize_eq_self {v : SingleValue} (h : ∀ bytes, v ≠ .blob bytes) :
    v.normalize = v := by
  cases v with
  | blob bytes => exact absurd rfl (h bytes)
  | _ => rfl

theorem OperationItem.Representable.normalize_eq {item : OperationItem} (h : item.Representable) :
    item.normalize = item := by
  have hvalue : item.value.map (·.normalize) = item.value := by
    rcases hv : item.value with - | v
    · rfl
    · have hblob : ∀ bytes, v ≠ .blob bytes := fun bytes hb => h.value bytes (hv.trans (hb ▸ rfl))
      rw [Option.map_some, SingleValue.normalize_eq_self hblob]
  have hmulti : item.multiValues.map normalizeMulti = item.multiValues := by
    rcases hv : item.multiValues with - | values
    · rfl
    · rw [Option.map_some, (h.multi values hv).normalizeMulti_eq]
  have hextra : item.extraSingleParams.map (·.normalize) = item.extraSingleParams := by
    refine (List.map_congr_left fun v hv => ?_).trans (List.map_id _)
    exact SingleValue.normalize_eq_self fun bytes hb => h.extra bytes (hb ▸ hv)
  rw [OperationItem.normalize, hvalue, hmulti, hextra]

theorem DataSharePredicates.normalize_eq_self {p : DataSharePredicates}
    (h : ∀ item ∈ p.operations, item.Representable) : p.normalize = p := by
  have hmap : p.operations.map (·.normalize) = p.operations :=
    (List.map_congr_left fun item hi => (h item hi).normalize_eq).trans (List.map_id _)
  rw [DataSharePredicates.normalize, hmap]

/-- Predicates built by the public methods come back as their `normalize`d form, provided
no item without a field has a string for its value. That form is the value itself when
there are no blobs and all lists are uniform. -/
theorem unmarshalPredicates_marshalPredicates_normalize (calls : List BuilderCall)
    (hfits : (buildPredicates calls).Fits)
    (hlen : (marshalPredicatesToBuffer (buildPredicates calls)).length < 2 ^ 64)
    (hfield : ∀ item ∈ (buildPredicates calls).operations, item.field = "" →
      ∀ s, item.value ≠ some (.string s)) :
    unmarshalPredicatesFromBuffer (marshalPredicatesToBuffer (buildPredicates calls)) =
        some (buildPredicates calls).normalize ∧
      ((∀ item ∈ (buildPredicates calls).operations, item.Representable) →
        (buildPredicates calls).normalize = buildPredicates calls) := by
  refine ⟨unmarshalPredicates_of_positional _ hfits (fun item hi => ?_) hlen,
    DataSharePredicates.normalize_eq_self⟩
  have hbuilt := built_of_mem_buildPredicates calls item hi
  exact ⟨fun _ => hbuilt.extra, hbuilt.limit, hfield item hi⟩

/-- `equal_to("a", blob)`. -/
def blobCalls : List BuilderCall :=
  [.equalTo "a" (.blob [7])]

theorem fits_blobCalls : (buildPredicates blobCalls).Fits where
  operations item hi := by
    obtain rfl := List.mem_singleton.mp hi
    refine ⟨fun v hv => ?_, fun values hv => absurd hv List.not_mem_nil⟩
    have hparams : v = .string "a" ∨ v = .blob [7] := by
      simpa [OperationItem.singleParams] using hv
    rcases hparams with rfl | rfl
    · exact (by decide : (utf8Bytes "a").length ≤ maxIpcSize)
    · exact trivial
  whereClause := by decide
  whereArgs := by decide
  order := by decide

theorem unmarshalPredicates_marshalPredicates_blobCalls :
    unmarshalPredicatesFromBuffer (marshalPredicatesToBuffer (buildPredicates blobCalls)) =
        some (buildPredicates blobCalls).normalize ∧
      ((∀ item ∈ (buildPredicates blobCalls).operations, item.Representable) →
        (buildPredicates blobCalls).normalize = buildPredicates blobCalls) :=
  unmarshalPredicates_marshalPredicates_normalize blobCalls fits_blobCalls (by decide)
    (by simp [blobCalls, buildPredicates, BuilderCall.apply, DataSharePredicates.equalTo,
      DataSharePredicates.push])

/-- A blob does not come back. -/
theorem unmarshalPredicates_marshalPredicates_blob :
    ¬∀ calls, unmarshalPredicatesFromBuffer (marshalPredicatesToBuffer (buildPredicates calls)) =
      some (buildPredicates calls) := by
  intro h
  have hback := h blobCalls
  rw [unmarshalPredicates_of_positional _ fits_blobCalls
    (fun item hi => by
      obtain rfl := List.mem_singleton.mp hi
      exact ⟨fun _ => rfl, by decide, by simp⟩) (by decide)] at hback
  exact absurd (Option.some.inj hback) (by decide)

end Rust

end DataShare
