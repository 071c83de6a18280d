import DataShare.CppPredicates
import DataShare.CppValuesBucket

/-!
# C++ operation statements

The buffer codec of `datashare_itypes_utils.cpp` for vectors of `OperationStatement`, and the request
it arrives in. A parcel is a row of bytes here : `ReadInt32` takes four of them, and `ReadRawData`
first reads a size, which must be the one it is asked for, and then as many bytes.

A vector that was marshalled is read back as it was up to null columns
(`reads_operationStatementVec`), from a buffer and from a request (`read_request`).
-/

namespace DataShare

namespace Cpp

/-! ## The data model -/

structure BackReference where
  column : StdString := []
  fromIndex : Int32 := -1
deriving DecidableEq, Repr

/-- `operationType` is an enumeration over `int32_t`, which holds any code. -/
structure OperationStatement where
  operationType : Int32
  uri : StdString := []
  predicates : DataSharePredicates := {}
  valuesBucket : DataShareValuesBucket := {}
  backReference : BackReference := {}
deriving DecidableEq

/-! ## Marshalling -/

def marshalBackReferenceToBuffer (backReference : BackReference) : List UInt8 :=
  marshalStringToBuffer backReference.column ++ marshalBasicTypeToBuffer backReference.fromIndex

/-- One round of the loop of `MarshalOperationStatementVecToBuffer`. -/
def marshalOperationStatementToBuffer (statement : OperationStatement) : List UInt8 :=
  marshalBasicTypeToBuffer statement.operationType ++ (marshalStringToBuffer statement.uri ++
    (marshalPredicatesToBuffer statement.predicates ++
      (marshalValuesBucketToBuffer statement.valuesBucket ++
        marshalBackReferenceToBuffer statement.backReference)))

def marshalOperationStatementVecToBuffer (operationStatements : List OperationStatement) :
    List UInt8 :=
  marshalVecToBuffer marshalOperationStatementToBuffer operationStatements

/-! ## Unmarshalling -/

def unmarshalBackReferenceToBuffer : Reader IStream BackReference := do
  let column ← unmarshalStringToBuffer
  let fromIndex ← unmarshalBasicTypeToBuffer Int32
  pure ⟨column, fromIndex⟩

/-- One round of the loop of `UnmarshalOperationStatementVecToBuffer`. A code that is no operation is
logged and kept. -/
def unmarshalOperationStatementToBuffer : Reader IStream OperationStatement := do
  let operationType ← unmarshalBasicTypeToBuffer Int32
  let uri ← unmarshalStringToBuffer
  let predicates ← unmarshalPredicatesToBuffer {}
  let valuesBucket ← unmarshalValuesBucketToBuffer {}
  let backReference ← unmarshalBackReferenceToBuffer
  pure ⟨operationType, uri, predicates, valuesBucket, backReference⟩

def unmarshalOperationStatementVecToBuffer : Reader IStream (List OperationStatement) := do
  let size ← unmarshalSizeToBuffer
  let operationStatements ← unmarshalOperationStatementToBuffer.readN size
  IStream.checkGood
  pure operationStatements

/-! ## Requests -/

/-- The unread bytes of a request. -/
structure RequestData where
  rest : List UInt8

/-- `ReadUnpadBuffer`, which gives `nullptr` when fewer bytes are left. -/
def RequestData.readUnpadBuffer (length : ℕ) : Reader RequestData (List UInt8) where
  run data :=
    if length ≤ data.rest.length then (some (data.rest.take length), ⟨data.rest.drop length⟩)
    else (none, data)

instance : ByteFeed RequestData where
  feed := RequestData.mk
  take := RequestData.readUnpadBuffer
  run_take bs rest := by simp [RequestData.readUnpadBuffer]

/-- `ReadInt32`, which gives `0` when fewer bytes are left. -/
def RequestData.readInt32 : Reader RequestData Int32 :=
  (readBasic RequestData Int32).orDefault 0

def RequestData.readRawData (length : ℕ) : Reader RequestData (List UInt8) := do
  let bufferSize ← RequestData.readInt32
  if bufferSize.toInt = length then RequestData.readUnpadBuffer length else Reader.fail

def unmarshalOperationStatementVec : Reader RequestData (List OperationStatement) := do
  let length ← RequestData.readInt32
  if length < 1 then Reader.fail
  else if length.toInt > maxIpcSize then Reader.fail
  else do
    let buffer ← RequestData.readRawData length.toInt.toNat
    Reader.ofOption (unmarshalOperationStatementVecToBuffer.run ⟨buffer, true⟩).1

/-- The statements that `CmdExecuteBatch` takes from a request, if it does not refuse it. -/
def cmdExecuteBatch (data : List UInt8) : Option (List OperationStatement) :=
  (unmarshalOperationStatementVec.run ⟨data⟩).1

/-! ## What is written is read back -/

theorem length_marshalOperationStatementToBuffer_pos (statement : OperationStatement) :
    0 < (marshalOperationStatementToBuffer statement).length := by
  rw [marshalOperationStatementToBuffer, List.length_append, length_marshalBasicTypeToBuffer]
  exact Nat.lt_add_right _ (by decide)

theorem reads_backReference (backReference : BackReference)
    (h : (marshalBackReferenceToBuffer backReference).length ≤ maxIpcSize) :
    Reads unmarshalBackReferenceToBuffer (marshalBackReferenceToBuffer backReference)
      backReference := by
  rw [marshalBackReferenceToBuffer, List.length_append, length_marshalStringToBuffer] at h
  exact (reads_string backReference.column (by rw [length_marshalStringToBuffer]; omega)).bind
    (reads_basicType backReference.fromIndex).bind_pure

/-- The parts of a statement, the columns of its bucket in any order. -/
theorem reads_statementParts {operationType : Int32} {uri : StdString}
    {predicates : DataSharePredicates} {columns : List (StdString × ValueObject)}
    {backReference : BackReference}
    (h : (marshalBasicTypeToBuffer operationType ++ (marshalStringToBuffer uri ++
      (marshalPredicatesToBuffer predicates ++ (marshalVecToBuffer marshalColumnToBuffer columns ++
        marshalBackReferenceToBuffer backReference)))).length ≤ maxIpcSize) :
    Reads unmarshalOperationStatementToBuffer
      (marshalBasicTypeToBuffer operationType ++ (marshalStringToBuffer uri ++
        (marshalPredicatesToBuffer predicates ++ (marshalVecToBuffer marshalColumnToBuffer columns ++
          marshalBackReferenceToBuffer backReference))))
      ⟨operationType, uri, predicates, ⟨columns.foldl addColumn .empty⟩, backReference⟩ := by
  simp only [List.length_append] at h
  have huri := reads_string uri (by omega)
  have hpredicates := reads_predicates predicates (by omega)
  have hbucket : Reads (unmarshalValuesBucketToBuffer {})
      (marshalVecToBuffer marshalColumnToBuffer columns)
      ⟨columns.foldl addColumn .empty⟩ := reads_columns (by omega)
  have hback := reads_backReference backReference (by omega)
  exact (reads_basicType operationType).bind
    (huri.bind (hpredicates.bind (hbucket.bind hback.bind_pure)))

/-- The statement without the null columns of its bucket. -/
def OperationStatement.dropNulls (statement : OperationStatement) : OperationStatement :=
  { statement with valuesBucket := statement.valuesBucket.dropNulls }

theorem reads_operationStatement (statement : OperationStatement)
    (h : (marshalOperationStatementToBuffer statement).length ≤ maxIpcSize) :
    Reads unmarshalOperationStatementToBuffer (marshalOperationStatementToBuffer statement)
      statement.dropNulls := by
  have hparts := reads_statementParts h
  rwa [foldl_addColumn] at hparts

/-- A vector of anything that is read as a statement. -/
theorem reads_statementVec {ι : Type} {marshal : ι → List UInt8} {statement : ι → OperationStatement}
    {l : List ι} (hpos : ∀ x, 0 < (marshal x).length)
    (hlen : (marshalVecToBuffer marshal l).length ≤ maxIpcSize)
    (h : ∀ x, (marshal x).length ≤ maxIpcSize →
      Reads unmarshalOperationStatementToBuffer (marshal x) (statement x)) :
    Reads unmarshalOperationStatementVecToBuffer (marshalVecToBuffer marshal l)
      (l.map statement) := by
  obtain ⟨hcount, hfits⟩ := fits_of_marshalVecToBuffer hpos hlen
  have hloop := Reads.readN fun x hx => h x (hfits x hx)
  exact (reads_size hcount).bind (reads_bind_checkGood hloop)

theorem reads_operationStatementVec (operationStatements : List OperationStatement)
    (h : (marshalOperationStatementVecToBuffer operationStatements).length ≤ maxIpcSize) :
    Reads unmarshalOperationStatementVecToBuffer
      (marshalOperationStatementVecToBuffer operationStatements)
      (operationStatements.map OperationStatement.dropNulls) :=
  reads_statementVec length_marshalOperationStatementToBuffer_pos h reads_operationStatement

/-! ## What a request holds -/

theorem RequestData.reads_int32 (val : Int32) : Reads RequestData.readInt32 (basicBytes val) val :=
  (reads_basic val).orDefault 0

/-- Raw data whose size is the one it is asked for. -/
theorem RequestData.reads_rawData {length : Int32} {str : List UInt8}
    (h : length.toInt = str.length) :
    Reads (RequestData.readRawData length.toInt.toNat) (basicBytes length ++ str) str := by
  refine (RequestData.reads_int32 length).bind ?_
  rw [if_pos (by omega)]
  intro rest
  have hlength : length.toInt.toNat = str.length := by omega
  rw [hlength]
  exact ByteFeed.run_take str rest

/-- Raw data whose size is another one. -/
theorem RequestData.rejects_rawData {length : ℕ} {bufferSize : Int32}
    (h : bufferSize.toInt ≠ length) :
    Rejects (RequestData.readRawData length) (basicBytes bufferSize) := by
  rw [← List.append_nil (basicBytes bufferSize)]
  refine Rejects.bind_right (RequestData.reads_int32 bufferSize) ?_
  rw [if_neg h]
  exact Rejects.fail []

/-- Raw data is as long as it was asked for. -/
theorem RequestData.length_of_readRawData {length : ℕ} {data : RequestData} {buffer : List UInt8}
    (h : ((RequestData.readRawData length).run data).1 = some buffer) : buffer.length = length := by
  rw [readRawData, Reader.run_bind] at h
  rcases hread : RequestData.readInt32.run data with ⟨_ | bufferSize, rest⟩
  · simp [hread] at h
  · simp only [hread] at h
    split at h
    · simp only [readUnpadBuffer] at h
      split at h
      · obtain rfl := Option.some.inj h
        simpa using ‹length ≤ rest.rest.length›
      · cases h
    · cases h

/-- A length that is not in the range is refused. -/
theorem rejects_length {length : Int32} (h : length < 1 ∨ maxIpcSize < length.toInt) :
    Rejects unmarshalOperationStatementVec (basicBytes length) := by
  rw [← List.append_nil (basicBytes length)]
  refine Rejects.bind_right (RequestData.reads_int32 length) ?_
  rcases h with h | h
  · rw [if_pos h]
    exact Rejects.fail []
  · have hpos : ¬ length < 1 := by
      rw [Int32.lt_iff_toInt_lt, show (1 : Int32).toInt = 1 from rfl]
      omega
    rw [if_neg hpos, if_pos h]
    exact Rejects.fail []

/-- A buffer that is too short for a count is not decoded. -/
theorem unmarshal_of_short {buffer : List UInt8} (h : buffer.length < 8) :
    (unmarshalOperationStatementVecToBuffer.run ⟨buffer, true⟩).1 = none := by
  refine Reader.run_bind_of_none (Reader.run_bind_of_none (Reader.run_bind_of_none ?_))
  have hshort : ¬ 8 ≤ buffer.length := by omega
  simp [ByteFeed.take, IStream.read, BasicType.size, hshort]

/-- A request is refused if the size of its raw data is smaller than a count takes. -/
theorem refused_of_size {length bufferSize : Int32} (h : bufferSize.toInt < 8) (rest : List UInt8) :
    cmdExecuteBatch (basicBytes length ++ (basicBytes bufferSize ++ rest)) = none := by
  by_cases hrange : length < 1 ∨ maxIpcSize < length.toInt
  · exact rejects_length hrange _
  · obtain ⟨hpos, hmax⟩ := not_or.mp hrange
    have hlength := RequestData.reads_int32 length (basicBytes bufferSize ++ rest)
    unfold cmdExecuteBatch unmarshalOperationStatementVec
    rw [show (⟨_⟩ : RequestData) = ByteFeed.feed _ from rfl, Reader.run_bind_of_some hlength,
      if_neg hpos, if_neg hmax]
    by_cases hsize : bufferSize.toInt = length.toInt.toNat
    · rw [Reader.run_bind]
      rcases hraw : (RequestData.readRawData length.toInt.toNat).run
        (ByteFeed.feed (basicBytes bufferSize ++ rest)) with ⟨_ | buffer, data⟩
      · rfl
      · have hbuffer := RequestData.length_of_readRawData (congrArg Prod.fst hraw)
        exact unmarshal_of_short (by omega)
    · exact Reader.run_bind_of_none (RequestData.rejects_rawData hsize rest)

/-- A buffer whose size was written before it and is accepted is handed to the decoder whole. -/
theorem read_request {str : List UInt8} (hpos : 0 < str.length) (hmax : str.length ≤ maxIpcSize)
    (rest : List UInt8) :
    cmdExecuteBatch (basicBytes (Int32.ofNat str.length) ++
        (basicBytes (Int32.ofNat str.length) ++ (str ++ rest))) =
      (unmarshalOperationStatementVecToBuffer.run ⟨str, true⟩).1 := by
  have hint : (Int32.ofNat str.length).toInt = str.length :=
    Int32.toInt_ofNat_of_lt (lt_of_le_of_lt hmax (by decide))
  have hlt : ¬ Int32.ofNat str.length < 1 := by
    rw [Int32.lt_iff_toInt_lt, hint, show (1 : Int32).toInt = 1 from rfl]
    omega
  have hle : ¬ (Int32.ofNat str.length).toInt > maxIpcSize := by
    rw [hint]
    omega
  have hlength := RequestData.reads_int32 (Int32.ofNat str.length)
    (basicBytes (Int32.ofNat str.length) ++ (str ++ rest))
  have hbuffer := RequestData.reads_rawData hint rest
  rw [List.append_assoc] at hbuffer
  unfold cmdExecuteBatch unmarshalOperationStatementVec
  rw [show (⟨_⟩ : RequestData) = ByteFeed.feed _ from rfl, Reader.run_bind_of_some hlength,
    if_neg hlt, if_neg hle, Reader.run_bind_of_some hbuffer]
  rfl

end Cpp

end DataShare
