import DataShare.CppBuffer
import DataShare.OrderedMap

/-!
# The C++ values-bucket codec

`DataShareValuesBucket` maps column names to values. The encoder of
`datashare_itypes_utils.cpp` writes every column, and for a null one only its name and
tag. The decoder skips a column with a null tag before it reaches the `insert`, so what
comes back is the bucket without its null columns (`reads_valuesBucket`), and the codec
is lossless exactly on the buckets that have none
(`unmarshal_marshalValuesBucketVec_iff`).
-/

namespace DataShare

namespace Cpp

/-! ## The data model -/

/-- `DataShareValueObject::Type`, alternatives in index order. -/
inductive ValueObject
  | null
  | int (val : Int64)
  | double (val : Double)
  | string (val : StdString)
  | bool (val : Bool)
  | blob (val : List UInt8)
deriving DecidableEq, Repr

structure DataShareValuesBucket where
  valuesMap : OrderedMap StdString ValueObject := .empty
deriving DecidableEq

namespace DataShareValuesBucket

def put (bucket : DataShareValuesBucket) (columnName : StdString) (value : ValueObject := .null) :
    DataShareValuesBucket :=
  { bucket with valuesMap := bucket.valuesMap.insert columnName value }

/-- The bucket without its null columns. -/
def dropNulls (bucket : DataShareValuesBucket) : DataShareValuesBucket where
  valuesMap := bucket.valuesMap.filterValues (· ≠ .null)

/-- No column is explicitly set to null. -/
def NoNulls (bucket : DataShareValuesBucket) : Prop :=
  ∀ column ∈ bucket.valuesMap.entries, column.2 ≠ .null

instance (bucket : DataShareValuesBucket) : Decidable bucket.NoNulls :=
  inferInstanceAs (Decidable (∀ column ∈ bucket.valuesMap.entries, column.2 ≠ .null))

theorem dropNulls_eq_self {bucket : DataShareValuesBucket} :
    bucket.dropNulls = bucket ↔ bucket.NoNulls := by
  have h : bucket.dropNulls = bucket ↔
      bucket.valuesMap.filterValues (· ≠ .null) = bucket.valuesMap :=
    ⟨fun h => congrArg valuesMap h, fun h => congrArg mk h⟩
  rw [h, OrderedMap.filterValues_eq_self]
  simp [NoNulls]

end DataShareValuesBucket

/-! ## The codec -/

/-- `value.index()`. -/
def ValueObject.index : ValueObject → UInt8
  | .null => 0
  | .int _ => 1
  | .double _ => 2
  | .string _ => 3
  | .bool _ => 4
  | .blob _ => 5

/-- What follows the type byte. -/
def ValueObject.marshalVal : ValueObject → List UInt8
  | .null => []
  | .int val => marshalBasicTypeToBuffer val
  | .double val => marshalBasicTypeToBuffer val
  | .string val => marshalStringToBuffer val
  | .bool val => marshalBasicTypeToBuffer val
  | .blob val => marshalBasicTypeVecToBuffer val

/-- One round of the loop of `MarshalValuesBucketToBuffer`. -/
def marshalColumnToBuffer (column : StdString × ValueObject) : List UInt8 :=
  marshalStringToBuffer column.1 ++
    (marshalBasicTypeToBuffer column.2.index ++ column.2.marshalVal)

def marshalValuesBucketToBuffer (bucket : DataShareValuesBucket) : List UInt8 :=
  marshalVecToBuffer marshalColumnToBuffer bucket.valuesMap.entries

def marshalValuesBucketVecToBuffer (values : List DataShareValuesBucket) : List UInt8 :=
  marshalVecToBuffer marshalValuesBucketToBuffer values

/-- One round of the loop of `UnmarshalValuesBucketToBuffer`. The results of the reads are
ignored. The variable a failed read leaves unset is given a default here ; the stream is
no longer good then, and the final `iss.good()` fails. -/
def unmarshalColumnToBuffer (valuesMap : OrderedMap StdString ValueObject) :
    Reader IStream (OrderedMap StdString ValueObject) := do
  let key ← unmarshalStringToBuffer.orDefault []
  let typeId ← (unmarshalBasicTypeToBuffer UInt8).orDefault 0
  match typeId.toNat with
  | 0 => pure valuesMap
  | 1 => do
    let val ← (unmarshalBasicTypeToBuffer Int64).orDefault 0
    pure (valuesMap.insert key (.int val))
  | 2 => do
    let val ← (unmarshalBasicTypeToBuffer Double).orDefault ⟨0⟩
    pure (valuesMap.insert key (.double val))
  | 3 => do
    let val ← unmarshalStringToBuffer.orDefault []
    pure (valuesMap.insert key (.string val))
  | 4 => do
    let val ← (unmarshalBasicTypeToBuffer Bool).orDefault false
    pure (valuesMap.insert key (.bool val))
  | 5 => do
    let val ← (unmarshalBasicTypeVecToBuffer UInt8).orDefault []
    pure (valuesMap.insert key (.blob val))
  | _ => Reader.fail

def unmarshalValuesBucketToBuffer (bucket : DataShareValuesBucket) :
    Reader IStream DataShareValuesBucket := do
  let mapSize ← unmarshalSizeToBuffer
  let valuesMap ← Reader.foldN unmarshalColumnToBuffer mapSize bucket.valuesMap
  IStream.checkGood
  pure ⟨valuesMap⟩

/-- `values` is the vector the caller passes in, and every bucket is pushed onto it. -/
def unmarshalValuesBucketVecToBuffer (values : List DataShareValuesBucket) :
    Reader IStream (List DataShareValuesBucket) := do
  let size ← unmarshalSizeToBuffer
  let buckets ← (unmarshalValuesBucketToBuffer {}).readN size
  IStream.checkGood
  pure (values ++ buckets)

/-! ## What comes back -/

theorem length_marshalColumnToBuffer_pos (column : StdString × ValueObject) :
    0 < (marshalColumnToBuffer column).length := by
  rw [marshalColumnToBuffer, List.length_append, length_marshalStringToBuffer]
  omega

theorem length_marshalValuesBucketToBuffer_pos (bucket : DataShareValuesBucket) :
    0 < (marshalValuesBucketToBuffer bucket).length := by
  rw [marshalValuesBucketToBuffer, length_marshalVecToBuffer]
  omega

/-- What one round of the decoder makes of a column. -/
def addColumn (valuesMap : OrderedMap StdString ValueObject) (column : StdString × ValueObject) :
    OrderedMap StdString ValueObject :=
  if column.2 ≠ .null then valuesMap.insert column.1 column.2 else valuesMap

theorem reads_column (column : StdString × ValueObject)
    (h : (marshalColumnToBuffer column).length ≤ maxIpcSize)
    (valuesMap : OrderedMap StdString ValueObject) :
    Reads (unmarshalColumnToBuffer valuesMap) (marshalColumnToBuffer column)
      (addColumn valuesMap column) := by
  obtain ⟨key, value⟩ := column
  simp only [marshalColumnToBuffer, List.length_append] at h
  have hkey := (reads_string key (by omega)).orDefault []
  have htag := (reads_basicType value.index).orDefault 0
  have hval : value.marshalVal.length ≤ maxIpcSize := by omega
  refine hkey.bind ?_
  cases value with
  | null => exact htag.bind (Reads.pure _)
  | int val => exact htag.bind ((reads_basicType val).orDefault _).bind_pure
  | double val => exact htag.bind ((reads_basicType val).orDefault _).bind_pure
  | string val => exact htag.bind ((reads_string _ hval).orDefault _).bind_pure
  | bool val => exact htag.bind ((reads_basicType val).orDefault _).bind_pure
  | blob val =>
    exact htag.bind ((reads_basicTypeVec (by decide) hval).orDefault _).bind_pure

/-- Decoding the columns of a bucket in order keeps those that are not null. -/
theorem foldl_addColumn (bucket : DataShareValuesBucket) :
    bucket.valuesMap.entries.foldl addColumn .empty = bucket.dropNulls.valuesMap := by
  apply OrderedMap.ext
  have h := OrderedMap.entries_foldl_upsert Prod.fst
    (fun column : StdString × ValueObject => column.2 ≠ .null)
    (fun column old => old.getD column.2) (m := .empty) bucket.valuesMap.sorted (by simp)
  refine h.trans ?_
  simp [DataShareValuesBucket.dropNulls, OrderedMap.filterValues]

/-- The columns of a bucket, in any order, are added one after the other. -/
theorem reads_columns {columns : List (StdString × ValueObject)}
    (h : (marshalVecToBuffer marshalColumnToBuffer columns).length ≤ maxIpcSize) :
    Reads (unmarshalValuesBucketToBuffer {}) (marshalVecToBuffer marshalColumnToBuffer columns)
      ⟨columns.foldl addColumn .empty⟩ := by
  obtain ⟨hlen, hfits⟩ := fits_of_marshalVecToBuffer length_marshalColumnToBuffer_pos h
  have hloop := Reads.foldN (a := .empty) fun column hc m => reads_column column (hfits column hc) m
  exact (reads_size hlen).bind (reads_bind_checkGood hloop)

theorem reads_valuesBucket (bucket : DataShareValuesBucket)
    (h : (marshalValuesBucketToBuffer bucket).length ≤ maxIpcSize) :
    Reads (unmarshalValuesBucketToBuffer {}) (marshalValuesBucketToBuffer bucket)
      bucket.dropNulls := by
  have hcolumns := reads_columns h
  rwa [foldl_addColumn] at hcolumns

theorem reads_valuesBucketVec (values : List DataShareValuesBucket)
    (h : (marshalValuesBucketVecToBuffer values).length ≤ maxIpcSize) :
    Reads (unmarshalValuesBucketVecToBuffer []) (marshalValuesBucketVecToBuffer values)
      (values.map DataShareValuesBucket.dropNulls) := by
  obtain ⟨hlen, hfits⟩ := fits_of_marshalVecToBuffer length_marshalValuesBucketToBuffer_pos h
  have hloop := Reads.readN fun bucket hb => reads_valuesBucket bucket (hfits bucket hb)
  exact (reads_size hlen).bind (reads_bind_checkGood hloop)

/-- Decoding gives the encoded vector back exactly when no column is null. -/
theorem unmarshal_marshalValuesBucketVec_iff (values : List DataShareValuesBucket)
    (h : (marshalValuesBucketVecToBuffer values).length ≤ maxIpcSize) :
    (unmarshalValuesBucketVecToBuffer []).run ⟨marshalValuesBucketVecToBuffer values, true⟩ =
        (some values, ⟨[], true⟩) ↔
      ∀ bucket ∈ values, bucket.NoNulls := by
  have hrun := (reads_valuesBucketVec values h).run_feed
  rw [IStream.feed_eq, IStream.feed_eq] at hrun
  have hmap : values.map DataShareValuesBucket.dropNulls = values ↔
      ∀ bucket ∈ values, bucket.dropNulls = bucket := by
    simpa using List.map_inj_left (l := values) (f := DataShareValuesBucket.dropNulls) (g := id)
  simp [hrun, hmap, DataShareValuesBucket.dropNulls_eq_self]

/-- One bucket with the column `id` and, explicitly null, the column `tag`. -/
def nullColumnBucket : DataShareValuesBucket :=
  ((({} : DataShareValuesBucket).put [105, 100] (.int 7)).put [116, 97, 103])

/-- Buckets with columns of every kind. -/
def mixedBuckets : List DataShareValuesBucket :=
  [(((({} : DataShareValuesBucket).put [105] (.bool true)).put [106] (.int (-3))).put [107]
      (.string [120])),
    {},
    (({} : DataShareValuesBucket).put [105] (.double ⟨0⟩)).put [98] (.blob [1, 2])]

theorem unmarshal_marshalValuesBucketVec_mixed :
    (unmarshalValuesBucketVecToBuffer []).run ⟨marshalValuesBucketVecToBuffer mixedBuckets, true⟩ =
      (some mixedBuckets, ⟨[], true⟩) :=
  (unmarshal_marshalValuesBucketVec_iff mixedBuckets (by decide)).mpr (by decide)

/-- The null column is lost. -/
theorem unmarshal_marshalValuesBucketVec_null :
    ¬∀ values, (marshalValuesBucketVecToBuffer values).length ≤ maxIpcSize →
      ((unmarshalValuesBucketVecToBuffer []).run
        ⟨marshalValuesBucketVecToBuffer values, true⟩).1 = some values := by
  intro h
  have hlost := h [nullColumnBucket] (by decide)
  have hrun : ((unmarshalValuesBucketVecToBuffer []).run
      ⟨marshalValuesBucketVecToBuffer [nullColumnBucket], true⟩).1 =
        some [({} : DataShareValuesBucket).put [105, 100] (.int 7)] := by decide
  rw [hrun] at hlost
  exact absurd hlost (by decide)

end Cpp

end DataShare
