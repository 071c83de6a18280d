import DataShare.FieldStream
import DataShare.OrderedMap
import DataShare.RustPredicates

/-!
# Rust values buckets and operation statements

The buffer codecs of `ipc/itypes_utils.rs` for `DataShareValuesBucket`, a `BTreeMap` of
tagged values, and for `OperationStatement`, which carries predicates, a values bucket and a
back reference.

A vector of buckets whose encoding is within `MAX_IPC_SIZE` is read back as it was, and so
is a vector of statements up to its predicates : each of them comes back with what the
predicates codec makes of its predicates alone (`unmarshal_marshal_statements`).
-/

namespace DataShare

namespace Rust

/-! ## Values buckets -/

inductive DataShareValue
  | null
  | int (v : Int64)
  | double (v : Double)
  | string (v : String)
  | bool (v : Bool)
  | blob (v : List UInt8)
deriving DecidableEq

/-- `BTreeMap<String, DataShareValue>`. -/
@[ext] structure DataShareValuesBucket where
  values : OrderedMap String DataShareValue := .empty

/-- `put` : the last value of a column wins. -/
def DataShareValuesBucket.put (bucket : DataShareValuesBucket) (column : String)
    (value : DataShareValue) : DataShareValuesBucket :=
  ⟨bucket.values.assign column value⟩

/-- The `VALUE_TYPE_...` constants. -/
def valueTypeNull : UInt8 := 0

def valueTypeInt : UInt8 := 1

def valueTypeDouble : UInt8 := 2

def valueTypeString : UInt8 := 3

def valueTypeBool : UInt8 := 4

def valueTypeBlob : UInt8 := 5

def writeU8Vec (values : List UInt8) : List UInt8 :=
  stringBytes values

def readU8Vec : Reader Cursor (List UInt8) :=
  readBytes Cursor maxIpcSize

/-- What follows the key. -/
def DataShareValue.bytes : DataShareValue → List UInt8
  | .null => writeBasic valueTypeNull
  | .int v => writeBasic valueTypeInt ++ writeBasic v
  | .double v => writeBasic valueTypeDouble ++ writeBasic v
  | .string v => writeBasic valueTypeString ++ writeString v
  | .bool v => writeBasic valueTypeBool ++ writeBasic v
  | .blob v => writeBasic valueTypeBlob ++ writeU8Vec v

def writeDatashareValue (column : String × DataShareValue) : List UInt8 :=
  writeString column.1 ++ column.2.bytes

def readDatashareValue : Reader Cursor (String × DataShareValue) := do
  let key ← readString
  let typeId ← readBasic Cursor UInt8
  if typeId = valueTypeNull then pure (key, .null)
  else if typeId = valueTypeInt then do
    let v ← readBasic Cursor Int64
    pure (key, .int v)
  else if typeId = valueTypeDouble then do
    let v ← readBasic Cursor Double
    pure (key, .double v)
  else if typeId = valueTypeString then do
    let v ← readString
    pure (key, .string v)
  else if typeId = valueTypeBool then do
    let v ← readBasic Cursor Bool
    pure (key, .bool v)
  else if typeId = valueTypeBlob then do
    let v ← readU8Vec
    pure (key, .blob v)
  else Reader.fail

def writeValuesBucketToBuffer (bucket : DataShareValuesBucket) : List UInt8 :=
  vecBytes writeDatashareValue bucket.values.entries

/-- One round of the loop of the bucket reader. -/
def readColumn (bucket : DataShareValuesBucket) : Reader Cursor DataShareValuesBucket := do
  let column ← readDatashareValue
  pure (bucket.put column.1 column.2)

def readValuesBucketFromBuffer : Reader Cursor DataShareValuesBucket := do
  let mapSize ← readSize Cursor
  Reader.foldN readColumn mapSize {}

/-- No write to a `Vec<u8>` fails, so the result is always `Some`. -/
def marshalValuesBucketVecToBuffer (values : List DataShareValuesBucket) : List UInt8 :=
  vecBytes writeValuesBucketToBuffer values

def readValuesBucketVec : Reader Cursor (List DataShareValuesBucket) :=
  readVec readValuesBucketFromBuffer

def unmarshalValuesBucketVecFromBuffer (data : List UInt8) :
    Option (List DataShareValuesBucket) :=
  (readValuesBucketVec.run ⟨data⟩).1

/-! ## Operation statements -/

inductive Operation
  | insert | update | delete
deriving DecidableEq, Repr

/-- `operation_type as i32`. -/
def Operation.toI32 (t : Operation) : Int32 :=
  Int32.ofNat t.ctorIdx

def Operation.fromI32 (val : Int32) : Option Operation :=
  [insert, update, delete].find? fun t => t.toI32 == val

@[simp] theorem Operation.fromI32_toI32 (t : Operation) : fromI32 t.toI32 = some t := by
  cases t <;> decide

theorem Operation.toI32_of_fromI32 {val : Int32} {t : Operation}
    (h : fromI32 val = some t) : t.toI32 = val := by
  simpa using List.find?_some h

structure BackReference where
  column : String := ""
  fromIndex : Int32 := -1
deriving DecidableEq

structure OperationStatement where
  operationType : Operation
  uri : String
  predicates : DataSharePredicates := {}
  valuesBucket : DataShareValuesBucket := {}
  backReference : BackReference := {}

def writeBackReference (br : BackReference) : List UInt8 :=
  writeString br.column ++ writeBasic br.fromIndex

def readBackReference : Reader Cursor BackReference := do
  let column ← readString
  let fromIndex ← readBasic Cursor Int32
  pure ⟨column, fromIndex⟩

/-- One round of the loop of `marshal_operation_statement_vec_to_buffer`. -/
def writeOperationStatement (stmt : OperationStatement) : List UInt8 :=
  writeBasic stmt.operationType.toI32 ++ (writeString stmt.uri ++
    (marshalPredicatesToBuffer stmt.predicates ++
      (writeValuesBucketToBuffer stmt.valuesBucket ++ writeBackReference stmt.backReference)))

/-- One round of the loop of `unmarshal_operation_statement_vec_from_buffer`. An unknown
operation is taken for `Insert`. -/
def readOperationStatement : Reader Cursor OperationStatement := do
  let op ← readBasic Cursor Int32
  let operationType := (Operation.fromI32 op).getD .insert
  let uri ← readString
  let predicates ← readPredicates
  let valuesBucket ← readValuesBucketFromBuffer
  let backReference ← readBackReference
  pure ⟨operationType, uri, predicates, valuesBucket, backReference⟩

def readOperationStatementVec : Reader Cursor (List OperationStatement) :=
  readVec readOperationStatement

def unmarshalOperationStatementVecFromBuffer (data : List UInt8) :
    Option (List OperationStatement) :=
  (readOperationStatementVec.run ⟨data⟩).1

def marshalOperationStatementVecToBuffer (stmts : List OperationStatement) : List UInt8 :=
  vecBytes writeOperationStatement stmts

def marshalOperationStatementVec (stmts : List OperationStatement) : Option (List UInt8) :=
  let buf := marshalOperationStatementVecToBuffer stmts
  if buf.length > maxIpcSize then none else some buf

def unmarshalOperationStatementVec (data : List UInt8) : Option (List OperationStatement) :=
  if data.isEmpty ∨ data.length > maxIpcSize then none
  else unmarshalOperationStatementVecFromBuffer data

/-! ## What is written is read back -/

theorem reads_vec_of_length_le {ι α : Type} {enc : ι → List UInt8} {p : Reader Cursor α}
    {val : ι → α} {l : List ι} (hpos : ∀ x, 0 < (enc x).length)
    (hlen : (vecBytes enc l).length ≤ maxIpcSize)
    (h : ∀ x, (enc x).length ≤ maxIpcSize → Reads p (enc x) (val x)) :
    Reads (readVec p) (vecBytes enc l) (l.map val) := by
  obtain ⟨hcount, hitem⟩ := bounds_of_vecBytes (l := l) fun x _ => hpos x
  have hmax := maxIpcSize_lt
  exact reads_vec (by omega) fun x hx => h x ((hitem x hx).trans hlen)

theorem reads_u8Vec {values : List UInt8} (h : values.length ≤ maxIpcSize) :
    Reads readU8Vec (writeU8Vec values) values :=
  reads_bytes h (h.trans_lt maxIpcSize_lt)

theorem length_writeDatashareValue_pos (column : String × DataShareValue) :
    0 < (writeDatashareValue column).length := by
  rw [writeDatashareValue, List.length_append]
  have := length_writeString_pos column.1
  omega

theorem reads_datashareValue (column : String × DataShareValue)
    (h : (writeDatashareValue column).length ≤ maxIpcSize) :
    Reads readDatashareValue (writeDatashareValue column) column := by
  obtain ⟨key, value⟩ := column
  have htag := fun tag : UInt8 => reads_basic (σ := Cursor) tag
  simp only [writeDatashareValue, writeString, List.length_append, length_stringBytes] at h
  have hkey : Reads readString (writeString key) key := reads_string (by omega)
  refine hkey.bind ?_
  cases value with
  | null => exact (htag valueTypeNull).bind (Reads.pure _)
  | int v => exact (htag valueTypeInt).bind (reads_basic v).bind_pure
  | double v => exact (htag valueTypeDouble).bind (reads_basic v).bind_pure
  | string v =>
    simp only [DataShareValue.bytes, writeString, List.length_append, length_stringBytes] at h
    have hv : Reads readString (writeString v) v := reads_string (by omega)
    exact (htag valueTypeString).bind hv.bind_pure
  | bool v => exact (htag valueTypeBool).bind (reads_basic v).bind_pure
  | blob v =>
    simp only [DataShareValue.bytes, writeU8Vec, List.length_append, length_stringBytes] at h
    have hv : Reads readU8Vec (writeU8Vec v) v := reads_u8Vec (by omega)
    exact (htag valueTypeBlob).bind hv.bind_pure

theorem length_writeValuesBucketToBuffer_pos (bucket : DataShareValuesBucket) :
    0 < (writeValuesBucketToBuffer bucket).length := by
  rw [writeValuesBucketToBuffer, length_vecBytes]
  omega

/-- Putting the columns of a bucket in order gives the bucket. -/
theorem foldl_put_entries (bucket : DataShareValuesBucket) :
    bucket.values.entries.foldl (fun b column => b.put column.1 column.2)
      ({} : DataShareValuesBucket) = bucket := by
  have hfold : ∀ (entries : List (String × DataShareValue)) (m : OrderedMap String DataShareValue),
      entries.foldl (fun b column => b.put column.1 column.2) (⟨m⟩ : DataShareValuesBucket) =
        ⟨entries.foldl (fun m column => m.assign column.1 column.2) m⟩ := by
    intro entries
    induction entries with
    | nil => exact fun m => rfl
    | cons column entries ih => exact fun m => ih _
  have h := OrderedMap.entries_foldl_upsert Prod.fst (fun _ : String × DataShareValue => True)
    (fun column _ => column.2) (m := .empty) bucket.values.sorted (by simp)
  refine (hfold _ _).trans ?_
  ext1
  apply OrderedMap.ext
  simpa [OrderedMap.assign] using h

theorem reads_valuesBucket (bucket : DataShareValuesBucket)
    (h : (writeValuesBucketToBuffer bucket).length ≤ maxIpcSize) :
    Reads readValuesBucketFromBuffer (writeValuesBucketToBuffer bucket) bucket := by
  have hmax := maxIpcSize_lt
  obtain ⟨hcount, hitem⟩ := bounds_of_vecBytes (l := bucket.values.entries)
    fun column _ => length_writeDatashareValue_pos column
  rw [writeValuesBucketToBuffer] at h
  have hround : ∀ column ∈ bucket.values.entries, ∀ b : DataShareValuesBucket,
      Reads (readColumn b) (writeDatashareValue column) (b.put column.1 column.2) :=
    fun column hc b => (reads_datashareValue column ((hitem column hc).trans h)).bind_pure
  have hloop := Reads.foldN (a := {}) hround
  rw [foldl_put_entries] at hloop
  exact (reads_size (by omega)).bind hloop

theorem reads_valuesBucketVec (values : List DataShareValuesBucket)
    (h : (marshalValuesBucketVecToBuffer values).length ≤ maxIpcSize) :
    Reads readValuesBucketVec (marshalValuesBucketVecToBuffer values) values := by
  have hread := reads_vec_of_length_le length_writeValuesBucketToBuffer_pos h reads_valuesBucket
  rwa [List.map_id'] at hread

/-- A statement with what the reader makes of its predicates. -/
def OperationStatement.readBack (stmt : OperationStatement) : OperationStatement :=
  { stmt with predicates := stmt.predicates.readBack }

theorem length_writeOperationStatement_pos (stmt : OperationStatement) :
    0 < (writeOperationStatement stmt).length := by
  simp [writeOperationStatement, writeBasic, BasicType.size]

theorem reads_operationStatement (stmt : OperationStatement)
    (h : (writeOperationStatement stmt).length ≤ maxIpcSize) :
    Reads readOperationStatement (writeOperationStatement stmt) stmt.readBack := by
  have hmax := maxIpcSize_lt
  simp only [writeOperationStatement, writeBackReference, writeString, List.length_append,
    length_stringBytes] at h
  have huri : Reads readString (writeString stmt.uri) stmt.uri := reads_string (by omega)
  have hpreds := reads_predicates stmt.predicates
    (DataSharePredicates.fits_of_length_le (by omega)) (by omega)
  have hbucket := reads_valuesBucket stmt.valuesBucket (by omega)
  have hcolumn : Reads readString (writeString stmt.backReference.column)
      stmt.backReference.column := reads_string (by omega)
  have hback : Reads readBackReference (writeBackReference stmt.backReference)
      stmt.backReference :=
    hcolumn.bind (reads_basic stmt.backReference.fromIndex).bind_pure
  have hop := reads_basic (σ := Cursor) stmt.operationType.toI32
  refine hop.bind ?_
  rw [Operation.fromI32_toI32]
  exact huri.bind (hpreds.bind (hbucket.bind hback.bind_pure))

theorem of_marshalOperationStatementVec {stmts : List OperationStatement} {data : List UInt8}
    (h : marshalOperationStatementVec stmts = some data) :
    data = vecBytes writeOperationStatement stmts ∧ data.length ≤ maxIpcSize := by
  unfold marshalOperationStatementVec marshalOperationStatementVecToBuffer at h
  dsimp only at h
  split at h
  · cases h
  · obtain rfl := Option.some.inj h
    exact ⟨rfl, by omega⟩

theorem unmarshal_marshalOperationStatementVec {stmts : List OperationStatement}
    {data : List UInt8} (h : marshalOperationStatementVec stmts = some data) :
    unmarshalOperationStatementVec data = some (stmts.map (·.readBack)) := by
  obtain ⟨rfl, hsize⟩ := of_marshalOperationStatementVec h
  have hempty : (vecBytes writeOperationStatement stmts).isEmpty = false := by
    rw [List.isEmpty_eq_false_iff_exists_mem]
    exact List.exists_mem_of_length_pos (by rw [length_vecBytes]; omega)
  have hread := (reads_vec_of_length_le length_writeOperationStatement_pos hsize
    reads_operationStatement).run_feed
  rw [Cursor.feed_eq] at hread
  rw [unmarshalOperationStatementVec, if_neg (by rw [hempty]; simpa using hsize),
    unmarshalOperationStatementVecFromBuffer, readOperationStatementVec, hread]

/-- The predicates of a written statement are within the limits of their own codec. -/
theorem unmarshalPredicates_of_mem {stmts : List OperationStatement} {data : List UInt8}
    (h : marshalOperationStatementVec stmts = some data) {stmt : OperationStatement}
    (hmem : stmt ∈ stmts) :
    unmarshalPredicatesFromBuffer (marshalPredicatesToBuffer stmt.predicates) =
      some stmt.predicates.readBack := by
  obtain ⟨rfl, hsize⟩ := of_marshalOperationStatementVec h
  have hmax := maxIpcSize_lt
  have hle := (bounds_of_vecBytes fun stmt _ => length_writeOperationStatement_pos stmt).2 stmt hmem
  simp only [writeOperationStatement, List.length_append] at hle
  exact unmarshalPredicates_marshalPredicates _
    (DataSharePredicates.fits_of_length_le (by omega)) (by omega)

/-- What is within the limit is marshalled. -/
theorem marshalOperationStatementVec_of_length_le {stmts : List OperationStatement}
    (h : (marshalOperationStatementVecToBuffer stmts).length ≤ maxIpcSize) :
    marshalOperationStatementVec stmts = some (marshalOperationStatementVecToBuffer stmts) :=
  if_neg (Nat.not_lt.mpr h)

/-- The round trip of both codecs, for all that fits the limit. The predicates of the statements come
back as their own codec gives them back, so unchanged if that codec does not change them. -/
theorem unmarshal_marshal_statements :
    (∀ values : List DataShareValuesBucket,
      (marshalValuesBucketVecToBuffer values).length ≤ maxIpcSize →
        unmarshalValuesBucketVecFromBuffer (marshalValuesBucketVecToBuffer values) = some values) ∧
    ∀ stmts : List OperationStatement,
      (marshalOperationStatementVecToBuffer stmts).length ≤ maxIpcSize →
        ∃ data, marshalOperationStatementVec stmts = some data ∧
          (unmarshalOperationStatementVec data = stmts.mapM fun stmt =>
            (unmarshalPredicatesFromBuffer (marshalPredicatesToBuffer stmt.predicates)).map
              fun predicates => { stmt with predicates := predicates }) ∧
          ((∀ stmt ∈ stmts, unmarshalPredicatesFromBuffer
              (marshalPredicatesToBuffer stmt.predicates) = some stmt.predicates) →
            unmarshalOperationStatementVec data = some stmts) := by
  refine ⟨fun values h => ?_, fun stmts hfits => ?_⟩
  · have hrun := (reads_valuesBucketVec values h).run_feed
    rw [Cursor.feed_eq] at hrun
    rw [unmarshalValuesBucketVecFromBuffer, hrun]
  have h := marshalOperationStatementVec_of_length_le hfits
  refine ⟨_, h, ?_, fun hround => ?_⟩
  · rw [unmarshal_marshalOperationStatementVec h]
    refine (mapM_eq_some_map fun stmt hs => ?_).symm
    rw [unmarshalPredicates_of_mem h hs]
    rfl
  · rw [unmarshal_marshalOperationStatementVec h]
    refine congrArg some ((List.map_congr_left fun stmt hs => ?_).trans (List.map_id _))
    have hback := (unmarshalPredicates_of_mem h hs).symm.trans (hround stmt hs)
    rw [OperationStatement.readBack, Option.some.inj hback]
    rfl

/-- A row with a null column, an update that refers to the result of the statement before it, and a
deletion. -/
def sampleBucket : DataShareValuesBucket :=
  (({} : DataShareValuesBucket).put "tag" .null).put "id" (.int 7)

def sampleStatement : OperationStatement where
  operationType := .update
  uri := "u"
  predicates := ({} : DataSharePredicates).equalTo "id" (.int 7)
  valuesBucket := sampleBucket
  backReference := ⟨"id", 0⟩

def sampleDelete : OperationStatement where
  operationType := .delete
  uri := "v"

theorem unmarshal_marshal_sampleStatement :
    unmarshalValuesBucketVecFromBuffer (marshalValuesBucketVecToBuffer [sampleBucket]) =
        some [sampleBucket] ∧
      ∃ data, marshalOperationStatementVec [sampleStatement, sampleDelete] = some data ∧
        unmarshalOperationStatementVec data = some [sampleStatement, sampleDelete] := by
  refine ⟨unmarshal_marshal_statements.1 [sampleBucket] (by decide +kernel), ?_⟩
  obtain ⟨data, hdata, -, hback⟩ :=
    unmarshal_marshal_statements.2 [sampleStatement, sampleDelete] (by decide +kernel)
  refine ⟨data, hdata, hback ?_⟩
  decide +kernel

end Rust

end DataShare
