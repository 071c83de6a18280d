import DataShare.CppStatements
import DataShare.PredicatesFields
import DataShare.RustStatements
import Mathlib.Data.List.Forall2

/-!
# Batch requests

The Rust proxy sends a batch of operation statements in two ways. `execute_batch` writes their count
and each statement value by value, `execute_batch_blob` the size of an encoded vector and the vector
as raw data. The C++ stub reads raw data only, whose size is in front of it twice.

What is assumed of the parcel of the IPC library is `ParcelLayout` : an `i32` is its four bytes, a
buffer is as it is, with padding behind it, and one value is behind the other ; the bytes of other
values may be any. The C++ stub reads that raw data back whose size it asks for, if there are so
many bytes.

So it refuses every request of the first kind (`executeBatch_refused`) : what it takes for the size
of the raw data is the operation of the first statement. From a blob it reads the same statements if
they hold nothing that the format has no place for : no blob as a parameter, no list of mixed types,
and no null column (`batch_requests`).
-/

namespace DataShare

open Cpp (StdString)

namespace Rust

/-! ## Requests -/

/-- What is written to a request : a value, or the bytes of a buffer. -/
inductive RequestField
  | value (field : ParcelField)
  | buffer (bytes : List UInt8)

/-- The format of a value in a bucket, whose type is an `i32`. -/
def serializeValue : DataShareValue → List RequestField
  | .null => [.value ⟨.i32, 0⟩]
  | .int v => [.value ⟨.i32, 1⟩, .value ⟨.i64, v⟩]
  | .double v => [.value ⟨.i32, 2⟩, .value ⟨.f64, v⟩]
  | .string v => [.value ⟨.i32, 3⟩, .value ⟨.string, v⟩]
  | .bool v => [.value ⟨.i32, 4⟩, .value ⟨.bool, v⟩]
  | .blob v => [.value ⟨.i32, 5⟩, .value (countField v.length), .buffer v]

def serializeBucket (bucket : DataShareValuesBucket) : List RequestField :=
  .value (countField bucket.values.entries.length) ::
    bucket.values.entries.flatMap fun column =>
      .value ⟨.string, column.1⟩ :: serializeValue column.2

/-- The back reference is not written. -/
def serializeStatement (stmt : OperationStatement) : List RequestField :=
  .value ⟨.i32, stmt.operationType.toI32⟩ :: .value ⟨.string, stmt.uri⟩ ::
    (serializeBucket stmt.valuesBucket ++ (serialize stmt.predicates).map .value)

/-- What `execute_batch` writes after the interface token. -/
def executeBatch (statements : List OperationStatement) : List RequestField :=
  .value (countField statements.length) :: statements.flatMap serializeStatement

/-- What `execute_batch_blob` writes after the interface token. -/
def executeBatchBlob (blob : List UInt8) : List RequestField :=
  [.value (countField blob.length), .value (countField blob.length), .buffer blob]

/-- How a parcel lays out what is written to it : an `i32` as its four bytes, a buffer as it is with
some padding behind. -/
structure ParcelLayout where
  value : ParcelField → List UInt8
  padding : List UInt8 → List UInt8
  value_i32 : ∀ val : Int32, value ⟨.i32, val⟩ = basicBytes val

namespace ParcelLayout

variable (layout : ParcelLayout)

def bytes : RequestField → List UInt8
  | .value field => layout.value field
  | .buffer bytes => bytes ++ layout.padding bytes

/-- The bytes of a request. -/
def request (fields : List RequestField) : List UInt8 :=
  fields.flatMap layout.bytes

end ParcelLayout

/-! ## What the bytes of a statement say

The encoder of Rust writes what that of C++ writes for the same parameters, a null for a blob, and of
a list the elements that have the type of the first one. -/

def SingleValue.toCpp : SingleValue → Cpp.SingleValue
  | .null => .null
  | .int v => .int v
  | .double v => .double v
  | .string v => .string (utf8Bytes v)
  | .bool v => .bool v
  | .long v => .long v
  | .blob _ => .null

def multiToCpp (values : List SingleValue) : Cpp.MutliValue :=
  match values.head? with
  | some (.int _) => .int (values.filterMap (·.asInt?))
  | some (.long _) => .long (values.filterMap (·.asLong?))
  | some (.double _) => .double (values.filterMap (·.asDouble?))
  | some (.string _) => .string ((values.filterMap (·.asString?)).map utf8Bytes)
  | _ => .null

def OperationItem.toCpp (item : OperationItem) : Cpp.OperationItem where
  operation := item.operation.toI32
  singleParams := item.singleParams.map (·.toCpp)
  multiParams := item.multiValues.toList.map multiToCpp

def DataSharePredicates.toCpp (p : DataSharePredicates) : Cpp.DataSharePredicates where
  operations := p.operations.map (·.toCpp)
  whereClause := utf8Bytes p.whereClause
  whereArgs := p.whereArgs.map utf8Bytes
  order := utf8Bytes p.order
  settingMode := p.settingMode

def DataShareValue.toCpp : DataShareValue → Cpp.ValueObject
  | .null => .null
  | .int v => .int v
  | .double v => .double v
  | .string v => .string (utf8Bytes v)
  | .bool v => .bool v
  | .blob v => .blob v

/-- The columns of the bucket in the order of Rust. -/
def DataShareValuesBucket.columns (bucket : DataShareValuesBucket) :
    List (StdString × Cpp.ValueObject) :=
  bucket.values.entries.map fun column => (utf8Bytes column.1, column.2.toCpp)

/-- What C++ reads. -/
def OperationStatement.toCpp (stmt : OperationStatement) : Cpp.OperationStatement where
  operationType := stmt.operationType.toI32
  uri := utf8Bytes stmt.uri
  predicates := stmt.predicates.toCpp
  valuesBucket := ⟨stmt.valuesBucket.columns.foldl Cpp.addColumn .empty⟩
  backReference := ⟨utf8Bytes stmt.backReference.column, stmt.backReference.fromIndex⟩

theorem writeSingleValue_toCpp (v : SingleValue) :
    writeSingleValue v = Cpp.marshalSingleTypeToBuffer v.toCpp := by
  cases v with
  | null | blob _ => rfl
  | _ => rfl

theorem writeStringVec_toCpp (values : List String) :
    writeStringVec values = Cpp.marshalStringVecToBuffer (values.map utf8Bytes) :=
  (vecBytes_map Cpp.marshalStringToBuffer utf8Bytes values).symm

theorem writeMultiValue_toCpp (values : List SingleValue) :
    writeMultiValue values = Cpp.marshalMultiTypeToBuffer (multiToCpp values) := by
  unfold writeMultiValue multiToCpp
  rcases values.head? with - | v
  · rfl
  cases v with
  | string _ => exact congrArg _ (writeStringVec_toCpp _)
  | _ => rfl

theorem writeOperationItem_toCpp (item : OperationItem) :
    writeOperationItem item = Cpp.marshalOperationItemToBuffer item.toCpp := by
  simp only [writeOperationItem, Cpp.marshalOperationItemToBuffer, OperationItem.toCpp,
    writeSingleValueVec, writeMultiValueVec, Cpp.marshalSingleTypeVecToBuffer,
    Cpp.marshalMultiTypeVecToBuffer, Cpp.marshalVecToBuffer, vecBytes_map]
  rw [vecBytes_congr fun v _ => writeSingleValue_toCpp v,
    vecBytes_congr fun values _ => writeMultiValue_toCpp values]
  rfl

theorem marshalPredicatesToBuffer_toCpp (p : DataSharePredicates) :
    marshalPredicatesToBuffer p = Cpp.marshalPredicatesToBuffer p.toCpp := by
  simp only [marshalPredicatesToBuffer, Cpp.marshalPredicatesToBuffer, DataSharePredicates.toCpp,
    writeOperationItemVec, Cpp.marshalOperationItemVecToBuffer, Cpp.marshalVecToBuffer, vecBytes_map,
    writeStringVec_toCpp]
  rw [vecBytes_congr fun item _ => writeOperationItem_toCpp item]
  rfl

theorem stringBytes_eq_vecBytes (bytes : List UInt8) :
    stringBytes bytes = Cpp.marshalBasicTypeVecToBuffer bytes := by
  have hbytes : bytes.flatMap Cpp.marshalBasicTypeToBuffer = bytes := by
    induction bytes with
    | nil => rfl
    | cons b bytes ih =>
      rw [List.flatMap_cons, ih]
      simp [Cpp.marshalBasicTypeToBuffer, basicBytes, BasicType.size, BasicType.toNat, leBytes]
  rw [Cpp.marshalBasicTypeVecToBuffer, Cpp.marshalVecToBuffer, vecBytes, hbytes, stringBytes]

theorem writeValuesBucketToBuffer_toCpp (bucket : DataShareValuesBucket) :
    writeValuesBucketToBuffer bucket =
      Cpp.marshalVecToBuffer Cpp.marshalColumnToBuffer bucket.columns := by
  rw [Cpp.marshalVecToBuffer, DataShareValuesBucket.columns, vecBytes_map, writeValuesBucketToBuffer]
  refine vecBytes_congr fun column _ => ?_
  rw [writeDatashareValue, Cpp.marshalColumnToBuffer]
  cases column.2 with
  | blob bytes => exact congrArg _ (congrArg _ (stringBytes_eq_vecBytes bytes))
  | _ => rfl

/-- C++ reads a statement from the bytes that Rust writes. -/
theorem reads_writeOperationStatement (stmt : OperationStatement)
    (h : (writeOperationStatement stmt).length ≤ Cpp.maxIpcSize) :
    Reads Cpp.unmarshalOperationStatementToBuffer (writeOperationStatement stmt) stmt.toCpp := by
  have heq : writeOperationStatement stmt =
      Cpp.marshalBasicTypeToBuffer stmt.operationType.toI32 ++
        (Cpp.marshalStringToBuffer (utf8Bytes stmt.uri) ++
          (Cpp.marshalPredicatesToBuffer stmt.predicates.toCpp ++
            (Cpp.marshalVecToBuffer Cpp.marshalColumnToBuffer stmt.valuesBucket.columns ++
              Cpp.marshalBackReferenceToBuffer stmt.toCpp.backReference))) := by
    rw [writeOperationStatement, marshalPredicatesToBuffer_toCpp, writeValuesBucketToBuffer_toCpp]
    rfl
  rw [heq] at h ⊢
  exact Cpp.reads_statementParts h

/-- C++ reads the statements from the vector that Rust writes. -/
theorem unmarshal_marshalOperationStatementVec_toCpp {stmts : List OperationStatement}
    {blob : List UInt8} (h : marshalOperationStatementVec stmts = some blob) :
    (Cpp.unmarshalOperationStatementVecToBuffer.run ⟨blob, true⟩).1 =
      some (stmts.map (·.toCpp)) := by
  obtain ⟨rfl, hlen⟩ := of_marshalOperationStatementVec h
  have hmax : maxIpcSize = Cpp.maxIpcSize := rfl
  rw [hmax] at hlen
  have hread := (Cpp.reads_statementVec length_writeOperationStatement_pos hlen
    reads_writeOperationStatement).run_feed
  rw [Cpp.IStream.feed_eq] at hread
  rw [← Cpp.marshalVecToBuffer, hread]

end Rust

/-! ## The same statements -/

/-- A parameter of C++ for one of Rust. A blob has none. -/
inductive SameSingle : Rust.SingleValue → Cpp.SingleValue → Prop
  | null : SameSingle .null .null
  | int (v : Int32) : SameSingle (.int v) (.int v)
  | double (v : Double) : SameSingle (.double v) (.double v)
  | string (s : String) : SameSingle (.string s) (.string (utf8Bytes s))
  | bool (v : Bool) : SameSingle (.bool v) (.bool v)
  | long (v : Int64) : SameSingle (.long v) (.long v)

/-- A multi parameter of C++ for a list of Rust. -/
inductive SameMulti : List Rust.SingleValue → Cpp.MutliValue → Prop
  | null : SameMulti [] .null
  | ints (vs : List Int32) : SameMulti (vs.map .int) (.int vs)
  | longs (vs : List Int64) : SameMulti (vs.map .long) (.long vs)
  | doubles (vs : List Double) : SameMulti (vs.map .double) (.double vs)
  | strings (vs : List String) : SameMulti (vs.map .string) (.string (vs.map utf8Bytes))

/-- The field of a Rust item, unless it is empty, its value and its extras are the single parameters. -/
structure SameItem (item : Rust.OperationItem) (item' : Cpp.OperationItem) : Prop where
  operation : item'.operation = item.operation.toI32
  single : List.Forall₂ SameSingle item.singleParams item'.singleParams
  multi : List.Forall₂ SameMulti item.multiValues.toList item'.multiParams

structure SamePredicates (p : Rust.DataSharePredicates) (p' : Cpp.DataSharePredicates) : Prop where
  operations : List.Forall₂ SameItem p.operations p'.operations
  whereClause : p'.whereClause = utf8Bytes p.whereClause
  whereArgs : p'.whereArgs = p.whereArgs.map utf8Bytes
  order : p'.order = utf8Bytes p.order
  settingMode : p'.settingMode = p.settingMode

/-- Both buckets have the same columns with the same values. -/
def SameBucket (bucket : Rust.DataShareValuesBucket) (bucket' : Cpp.DataShareValuesBucket) : Prop :=
  ∀ name, bucket'.valuesMap.find? name =
    (fromUtf8 name).bind fun column => (bucket.values.find? column).map (·.toCpp)

structure SameStatement (stmt : Rust.OperationStatement) (stmt' : Cpp.OperationStatement) :
    Prop where
  operationType : stmt'.operationType = stmt.operationType.toI32
  uri : stmt'.uri = utf8Bytes stmt.uri
  predicates : SamePredicates stmt.predicates stmt'.predicates
  valuesBucket : SameBucket stmt.valuesBucket stmt'.valuesBucket
  column : stmt'.backReference.column = utf8Bytes stmt.backReference.column
  fromIndex : stmt'.backReference.fromIndex = stmt.backReference.fromIndex

namespace Rust

/-- The statement has nothing that the format of a batch has no place for : every item is
`Representable`, and no column is null. -/
structure OperationStatement.Deliverable (stmt : OperationStatement) : Prop where
  items : ∀ item ∈ stmt.predicates.operations, item.Representable
  columns : ∀ column ∈ stmt.valuesBucket.values.entries, column.2 ≠ .null

theorem sameSingle_toCpp {v : SingleValue} : SameSingle v v.toCpp ↔ ∀ bytes, v ≠ .blob bytes := by
  cases v with
  | blob bytes =>
    refine iff_of_false ?_ fun h => h bytes rfl
    rintro ⟨⟩
  | _ =>
    refine iff_of_true ?_ (by simp)
    constructor

theorem sameMulti_toCpp {values : List SingleValue} : SameMulti values (multiToCpp values) ↔
    Uniform values := by
  constructor
  · intro h
    generalize multiToCpp values = value at h
    cases h with
    | null => exact .ints []
    | ints vs => exact .ints vs
    | longs vs => exact .longs vs
    | doubles vs => exact .doubles vs
    | strings vs => exact .strings vs
  · intro h
    cases h with
    | ints vs =>
      cases vs with
      | nil => exact .null
      | cons v vs =>
        rw [show multiToCpp ((v :: vs).map .int) = .int (v :: vs) from
          congrArg Cpp.MutliValue.int (filterMap_asInt_map (v :: vs))]
        exact .ints (v :: vs)
    | longs vs =>
      cases vs with
      | nil => exact .null
      | cons v vs =>
        rw [show multiToCpp ((v :: vs).map .long) = .long (v :: vs) from
          congrArg Cpp.MutliValue.long (filterMap_asLong_map (v :: vs))]
        exact .longs (v :: vs)
    | doubles vs =>
      cases vs with
      | nil => exact .null
      | cons v vs =>
        rw [show multiToCpp ((v :: vs).map .double) = .double (v :: vs) from
          congrArg Cpp.MutliValue.double (filterMap_asDouble_map (v :: vs))]
        exact .doubles (v :: vs)
    | strings vs =>
      cases vs with
      | nil => exact .null
      | cons v vs =>
        rw [show multiToCpp ((v :: vs).map .string) = .string ((v :: vs).map utf8Bytes) from
          congrArg (fun l : List String => Cpp.MutliValue.string (l.map utf8Bytes))
            (filterMap_asString_map (v :: vs))]
        exact .strings (v :: vs)

theorem sameItem_toCpp {item : OperationItem} : SameItem item item.toCpp ↔ item.Representable := by
  have hsingle : List.Forall₂ SameSingle item.singleParams (item.singleParams.map (·.toCpp)) ↔
      (∀ bytes, item.value ≠ some (.blob bytes)) ∧
        ∀ bytes, .blob bytes ∉ item.extraSingleParams := by
    simp only [List.forall₂_map_right_iff, List.forall₂_same, sameSingle_toCpp,
      OperationItem.singleParams]
    constructor
    · refine fun h => ⟨fun bytes hvalue => ?_, fun bytes hextra => ?_⟩
      · exact h (.blob bytes) (by simp [hvalue]) bytes rfl
      · exact h (.blob bytes) (by simp [hextra]) bytes rfl
    · rintro ⟨hvalue, hextra⟩ v hv bytes rfl
      rcases List.mem_append.mp hv with hfield | hrest
      · split at hfield <;> simp at hfield
      · rcases List.mem_append.mp hrest with hv | hv
        · exact hvalue bytes (by simpa using hv)
        · exact hextra bytes hv
  have hmulti : List.Forall₂ SameMulti item.multiValues.toList
      (item.multiValues.toList.map multiToCpp) ↔
        ∀ values, item.multiValues = some values → Uniform values := by
    simp [List.forall₂_map_right_iff, List.forall₂_same, sameMulti_toCpp]
  constructor
  · rintro ⟨-, hs, hm⟩
    exact ⟨(hsingle.mp hs).1, (hsingle.mp hs).2, hmulti.mp hm⟩
  · rintro ⟨hvalue, hextra, hm⟩
    exact ⟨rfl, hsingle.mpr ⟨hvalue, hextra⟩, hmulti.mpr hm⟩

theorem samePredicates_toCpp {p : DataSharePredicates} : SamePredicates p p.toCpp ↔
    ∀ item ∈ p.operations, item.Representable := by
  have hoperations : List.Forall₂ SameItem p.operations (p.operations.map (·.toCpp)) ↔
      ∀ item ∈ p.operations, item.Representable := by
    simp only [List.forall₂_map_right_iff, List.forall₂_same, sameItem_toCpp]
  exact ⟨fun h => hoperations.mp h.operations, fun h => ⟨hoperations.mpr h, rfl, rfl, rfl, rfl⟩⟩

/-- A column is found if it is among those that are added and not null. -/
theorem find?_foldl_addColumn (name : StdString) : ∀ (columns : List (StdString × Cpp.ValueObject))
    (valuesMap : OrderedMap StdString Cpp.ValueObject),
    (columns.foldl Cpp.addColumn valuesMap).find? name = (valuesMap.find? name).or
      ((columns.find? fun column => column.1 = name ∧ column.2 ≠ .null).map Prod.snd)
  | [], valuesMap => by simp
  | column :: columns, valuesMap => by
    rw [List.foldl_cons, find?_foldl_addColumn name columns, Cpp.addColumn]
    by_cases hnull : column.2 = .null
    · rw [if_neg (by simpa using hnull), List.find?_cons_of_neg (by simp [hnull])]
    · rw [if_pos hnull, OrderedMap.insert, OrderedMap.find?_upsert]
      by_cases hname : column.1 = name
      · rw [List.find?_cons_of_pos (by simp [hname, hnull])]
        subst hname
        rcases valuesMap.find? column.1 with _ | value <;> simp
      · rw [List.find?_cons_of_neg (by simp [hname]), if_neg ?_]
        exact fun heq => hname (Std.LawfulEqOrd.eq_of_compare heq).symm

theorem toCpp_eq_null {value : DataShareValue} : value.toCpp = .null ↔ value = .null := by
  cases value <;> simp [DataShareValue.toCpp]

/-- What is found among the columns at a name. -/
def DataShareValuesBucket.columnAt (bucket : DataShareValuesBucket) (name : StdString) :
    Option (StdString × Cpp.ValueObject) :=
  bucket.columns.find? fun column => column.1 = name ∧ column.2 ≠ .null

theorem columnAt_eq_some {bucket : DataShareValuesBucket} {name : StdString}
    {column : StdString × Cpp.ValueObject} (h : bucket.columnAt name = some column) :
    ∃ key value, bucket.values.find? key = some value ∧ utf8Bytes key = name ∧
      column.2 = value.toCpp ∧ value ≠ .null := by
  have hmem := List.mem_of_find?_eq_some h
  have hprop := List.find?_some h
  rw [DataShareValuesBucket.columns, List.mem_map] at hmem
  obtain ⟨⟨key, value⟩, hentry, rfl⟩ := hmem
  simp only [decide_eq_true_eq, ne_eq, toCpp_eq_null] at hprop
  exact ⟨key, value, OrderedMap.mem_entries_iff.mp hentry, hprop.1, rfl, hprop.2⟩

theorem isSome_columnAt {bucket : DataShareValuesBucket} {key : String} {value : DataShareValue}
    (h : bucket.values.find? key = some value) (hvalue : value ≠ .null) :
    (bucket.columnAt (utf8Bytes key)).isSome := by
  rw [DataShareValuesBucket.columnAt, List.find?_isSome]
  refine ⟨(utf8Bytes key, value.toCpp), ?_, by simpa [toCpp_eq_null] using hvalue⟩
  exact List.mem_map.mpr ⟨(key, value), OrderedMap.mem_entries_iff.mpr h, rfl⟩

theorem sameBucket_toCpp {bucket : DataShareValuesBucket} :
    SameBucket bucket ⟨bucket.columns.foldl Cpp.addColumn .empty⟩ ↔
      ∀ column ∈ bucket.values.entries, column.2 ≠ .null := by
  have hfind : ∀ name, (bucket.columns.foldl Cpp.addColumn .empty).find? name =
      (bucket.columnAt name).map Prod.snd := by
    intro name
    rw [find?_foldl_addColumn, OrderedMap.find?_empty, Option.none_or]
    rfl
  simp only [SameBucket, hfind]
  constructor
  · rintro h ⟨key, value⟩ hentry rfl
    have hkey := h (utf8Bytes key)
    rw [fromUtf8_utf8Bytes, Option.bind_some, OrderedMap.mem_entries_iff.mp hentry] at hkey
    obtain ⟨column, hcolumn, hnull⟩ := Option.map_eq_some_iff.mp hkey
    obtain ⟨key', value, -, -, hvalue, hne⟩ := columnAt_eq_some hcolumn
    exact hne (toCpp_eq_null.mp (hvalue.symm.trans hnull))
  · intro h name
    rcases hname : bucket.columnAt name with _ | column
    · rcases hutf : fromUtf8 name with _ | key
      · rfl
      · obtain rfl := utf8Bytes_of_fromUtf8 hutf
        rcases hvalue : bucket.values.find? key with _ | value
        · simp [hvalue]
        · have hsome := isSome_columnAt hvalue (h (key, value) (OrderedMap.mem_entries_iff.mpr hvalue))
          rw [hname] at hsome
          cases hsome
    · obtain ⟨key, value, hvalue, rfl, hcolumn, -⟩ := columnAt_eq_some hname
      rw [fromUtf8_utf8Bytes, Option.bind_some, hvalue]
      exact congrArg some hcolumn

theorem sameStatement_toCpp {stmt : OperationStatement} :
    SameStatement stmt stmt.toCpp ↔ stmt.Deliverable := by
  constructor
  · exact fun h => ⟨samePredicates_toCpp.mp h.predicates, sameBucket_toCpp.mp h.valuesBucket⟩
  · exact fun h => ⟨rfl, rfl, samePredicates_toCpp.mpr h.items, sameBucket_toCpp.mpr h.columns,
      rfl, rfl⟩

/-! ## Both requests -/

/-- The stub accepts the request, and it gets the same statements in the same order. -/
def Arrives (layout : ParcelLayout) (fields : List RequestField) (stmts : List OperationStatement) :
    Prop :=
  ∃ decoded, Cpp.cmdExecuteBatch (layout.request fields) = some decoded ∧
    List.Forall₂ SameStatement stmts decoded

/-- The request of `execute_batch_blob` on the encoded vector arrives. -/
def BlobArrives (layout : ParcelLayout) (stmts : List OperationStatement) : Prop :=
  ∃ blob, marshalOperationStatementVec stmts = some blob ∧
    Arrives layout (executeBatchBlob blob) stmts

/-- What stands in the place of the size of the raw data is the code of an operation. -/
theorem executeBatch_refused (layout : ParcelLayout) (stmts : List OperationStatement) :
    Cpp.cmdExecuteBatch (layout.request (executeBatch stmts)) = none := by
  cases stmts with
  | nil =>
    have hbytes : layout.request (executeBatch []) = basicBytes (0 : Int32) ++ [] := by
      simp [ParcelLayout.request, executeBatch, ParcelLayout.bytes, countField, layout.value_i32]
    rw [hbytes]
    exact Cpp.rejects_length (.inl (by decide)) []
  | cons stmt stmts =>
    obtain ⟨rest, hbytes⟩ : ∃ rest, layout.request (executeBatch (stmt :: stmts)) =
        basicBytes (Int32.ofNat (stmt :: stmts).length) ++
          (basicBytes stmt.operationType.toI32 ++ rest) := by
      simp only [ParcelLayout.request, executeBatch, serializeStatement, List.flatMap_cons,
        List.cons_append, ParcelLayout.bytes, countField, layout.value_i32]
      exact ⟨_, rfl⟩
    rw [hbytes]
    refine Cpp.refused_of_size ?_ rest
    cases stmt.operationType <;> decide

theorem blobArrives_iff (layout : ParcelLayout) (stmts : List OperationStatement) :
    BlobArrives layout stmts ↔
      (marshalOperationStatementVec stmts).isSome ∧ ∀ stmt ∈ stmts, stmt.Deliverable := by
  have hsame : List.Forall₂ SameStatement stmts (stmts.map (·.toCpp)) ↔
      ∀ stmt ∈ stmts, stmt.Deliverable := by
    simp only [List.forall₂_map_right_iff, List.forall₂_same, sameStatement_toCpp]
  have hdecode : ∀ blob, marshalOperationStatementVec stmts = some blob →
      Cpp.cmdExecuteBatch (layout.request (executeBatchBlob blob)) = some (stmts.map (·.toCpp)) := by
    intro blob hblob
    obtain ⟨heq, hmax⟩ := of_marshalOperationStatementVec hblob
    have hpos : 0 < blob.length := by
      rw [heq, length_vecBytes]
      omega
    rw [← unmarshal_marshalOperationStatementVec_toCpp hblob,
      ← Cpp.read_request hpos hmax (layout.padding blob)]
    simp [ParcelLayout.request, executeBatchBlob, ParcelLayout.bytes, countField, layout.value_i32]
  constructor
  · rintro ⟨blob, hblob, decoded, hdecoded, hstmts⟩
    obtain rfl := Option.some.inj (hdecoded.symm.trans (hdecode blob hblob))
    exact ⟨by rw [hblob]; rfl, hsame.mp hstmts⟩
  · rintro ⟨hsome, hdeliverable⟩
    obtain ⟨blob, hblob⟩ := Option.isSome_iff_exists.mp hsome
    exact ⟨blob, hblob, _, hdecode blob hblob, hsame.mpr hdeliverable⟩

/-- For every list of statements, `execute_batch` does not get it through to the stub, so that not
both requests arrive. That of `execute_batch_blob` arrives exactly if the encoding is within the limit
and every statement can be delivered. -/
theorem batch_requests (layout : ParcelLayout) (stmts : List OperationStatement) :
    ¬ (Arrives layout (executeBatch stmts) stmts ∧ BlobArrives layout stmts) ∧
      Cpp.cmdExecuteBatch (layout.request (executeBatch stmts)) = none ∧
      (BlobArrives layout stmts ↔
        (marshalOperationStatementVec stmts).isSome ∧ ∀ stmt ∈ stmts, stmt.Deliverable) := by
  refine ⟨?_, executeBatch_refused layout stmts, blobArrives_iff layout stmts⟩
  rintro ⟨⟨decoded, hdecoded, -⟩, -⟩
  rw [executeBatch_refused] at hdecoded
  cases hdecoded

/-- A layout with numbers as words and strings as their length and bytes. -/
def plainLayout : ParcelLayout where
  value
    | ⟨.i16, val⟩ => basicBytes val
    | ⟨.i32, val⟩ => basicBytes val
    | ⟨.i64, val⟩ => basicBytes val
    | ⟨.u32, val⟩ => basicBytes val
    | ⟨.f64, val⟩ => basicBytes val
    | ⟨.bool, val⟩ => basicBytes val
    | ⟨.string, val⟩ => basicBytes (Int32.ofNat val.utf8ByteSize) ++ utf8Bytes val
  padding := fun _ => []
  value_i32 _ := rfl

/-- One insertion of the column `id`. -/
def singleInsert : List OperationStatement :=
  [{ operationType := .insert, uri := "a",
     valuesBucket := ({} : DataShareValuesBucket).put "id" (.int 7) }]

/-- It does not get through from `execute_batch`. -/
theorem execute_batch_speaks_other_format :
    ¬ ∀ stmts, Arrives plainLayout (executeBatch stmts) stmts ∧ BlobArrives plainLayout stmts := by
  intro h
  obtain ⟨⟨decoded, hdecoded, -⟩, -⟩ := h singleInsert
  have hnone : Cpp.cmdExecuteBatch (plainLayout.request (executeBatch singleInsert)) = none :=
    Option.isNone_iff_eq_none.mp (by decide +kernel)
  rw [hnone] at hdecoded
  cases hdecoded

end Rust

end DataShare
