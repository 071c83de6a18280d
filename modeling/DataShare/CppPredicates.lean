import DataShare.CppBuffer

/-!
# C++ predicates and their raw-buffer codec

`DataSharePredicates` (`datashare_predicates.h`) is an operation list together with the
query-language fields `whereClause`, `whereArgs` and `order`. Its setters are gated by
`settingMode` : once a builder method has set `PREDICATES_METHOD` they refuse, and an
empty argument is refused in every mode. `BuilderCall` collects the public calls that
change a predicates value.

`marshalPredicatesToBuffer` and `unmarshalPredicatesToBuffer` are the codec of
`datashare_itypes_utils.cpp`. The decoder rebuilds the value through the same gated
setters, and sets the mode last (`restore_eq`), so that every value whose encoding fits
into one raw buffer comes back unchanged (`unmarshal_marshalPredicates`).
-/

namespace DataShare

namespace Cpp

/-! ## The data model -/

/-- `OperationType` of `datashare_predicates_def.h`, in the order of its codes. -/
inductive OperationType
  | invalidOperation | equalTo | notEqualTo | greaterThan | lessThan | greaterThanOrEqualTo
  | lessThanOrEqualTo | and | or | isNull | isNotNull | sqlIn | notIn | like | unlike
  | orderByAsc | orderByDesc | limit | offset | beginWarp | endWarp | beginWith | endWith
  | inKey | distinct | groupBy | indexedBy | contains | glob | between | notBetween
  | keyPrefix | crossJoin | innerJoin | leftOuterJoin | using | on | lastType
deriving DecidableEq, Repr

def OperationType.code (t : OperationType) : Int32 :=
  Int32.ofNat t.ctorIdx

/-- `SingleValue::Type`, alternatives in index order. -/
inductive SingleValue
  | null
  | int (val : Int32)
  | double (val : Double)
  | string (val : StdString)
  | bool (val : Bool)
  | long (val : Int64)
deriving DecidableEq, Repr

/-- `MutliValue::Type`, alternatives in index order. -/
inductive MutliValue
  | null
  | int (val : List Int32)
  | long (val : List Int64)
  | double (val : List Double)
  | string (val : List StdString)
deriving DecidableEq, Repr

structure OperationItem where
  operation : Int32
  singleParams : List SingleValue
  multiParams : List MutliValue
deriving DecidableEq, Repr

/-- The modes of `settingMode_`. -/
def invalidMode : Int16 := 0

def queryLanguage : Int16 := 1

def predicatesMethod : Int16 := 2

structure DataSharePredicates where
  operations : List OperationItem := []
  whereClause : StdString := []
  whereArgs : List StdString := []
  order : StdString := []
  settingMode : Int16 := invalidMode
deriving DecidableEq, Repr

namespace DataSharePredicates

/-! ## Setters -/

def setOperations (p : DataSharePredicates) (operations : List OperationItem) :
    DataSharePredicates :=
  if p.settingMode ≠ predicatesMethod ∧ operations ≠ [] then
    { p with operations := operations, settingMode := queryLanguage }
  else p

def setWhereClause (p : DataSharePredicates) (whereClause : StdString) : DataSharePredicates :=
  if p.settingMode ≠ predicatesMethod ∧ whereClause ≠ [] then
    { p with whereClause := whereClause, settingMode := queryLanguage }
  else p

def setWhereArgs (p : DataSharePredicates) (whereArgs : List StdString) : DataSharePredicates :=
  if p.settingMode ≠ predicatesMethod ∧ whereArgs ≠ [] then
    { p with whereArgs := whereArgs, settingMode := queryLanguage }
  else p

def setOrder (p : DataSharePredicates) (order : StdString) : DataSharePredicates :=
  if p.settingMode ≠ predicatesMethod ∧ order ≠ [] then
    { p with order := order, settingMode := queryLanguage }
  else p

def setSettingMode (p : DataSharePredicates) (settingMode : Int16) : DataSharePredicates :=
  { p with settingMode := settingMode }

/-! ## Builders -/

def clearQueryLanguage (p : DataSharePredicates) : DataSharePredicates :=
  { p with whereClause := [], whereArgs := [], order := [] }

/-- The common part of the private `SetOperationList` overloads : append the item and, on
the first builder call, drop the query language. -/
def pushOperation (p : DataSharePredicates) (item : OperationItem) : DataSharePredicates :=
  let pushed := { p with operations := p.operations ++ [item] }
  if p.settingMode ≠ predicatesMethod then
    { pushed.clearQueryLanguage with settingMode := predicatesMethod }
  else pushed

/-- `SetOperationList(operationType, param)`. -/
def setOperationMulti (p : DataSharePredicates) (operationType : OperationType)
    (param : MutliValue) : DataSharePredicates :=
  p.pushOperation ⟨operationType.code, [], [param]⟩

/-- `SetOperationList(operationType, param1, param2)` with a multi parameter. -/
def setOperationSingleMulti (p : DataSharePredicates) (operationType : OperationType)
    (param1 : SingleValue) (param2 : MutliValue) : DataSharePredicates :=
  p.pushOperation ⟨operationType.code, [param1], [param2]⟩

/-- `SetOperationList(operationType, para1, para2, para3)`. Parameters that are not given
are the default value `null`, and are stored all the same. -/
def setOperationSingles (p : DataSharePredicates) (operationType : OperationType)
    (para1 : SingleValue := .null) (para2 : SingleValue := .null)
    (para3 : SingleValue := .null) : DataSharePredicates :=
  p.pushOperation ⟨operationType.code, [para1, para2, para3], []⟩

end DataSharePredicates

/-- The public calls that change a predicates value. -/
inductive BuilderCall
  | equalTo (field : StdString) (value : SingleValue)
  | notEqualTo (field : StdString) (value : SingleValue)
  | greaterThan (field : StdString) (value : SingleValue)
  | lessThan (field : StdString) (value : SingleValue)
  | greaterThanOrEqualTo (field : StdString) (value : SingleValue)
  | lessThanOrEqualTo (field : StdString) (value : SingleValue)
  | in (field : StdString) (values : MutliValue)
  | notIn (field : StdString) (values : MutliValue)
  | beginWrap
  | endWrap
  | or
  | and
  | contains (field value : StdString)
  | beginsWith (field value : StdString)
  | endsWith (field value : StdString)
  | isNull (field : StdString)
  | isNotNull (field : StdString)
  | like (field value : StdString)
  | unlike (field value : StdString)
  | glob (field value : StdString)
  | between (field low high : StdString)
  | notBetween (field low high : StdString)
  | orderByAsc (field : StdString)
  | orderByDesc (field : StdString)
  | distinct
  | limit (number offset : Int32)
  | groupBy (fields : List StdString)
  | indexedBy (indexName : StdString)
  | keyPrefix (key : StdString)
  | inKeys (keys : List StdString)
  | crossJoin (tableName : StdString)
  | innerJoin (tableName : StdString)
  | leftOuterJoin (tableName : StdString)
  | using (fields : List StdString)
  | on (fields : List StdString)
  | setOperationList (operations : List OperationItem)
  | setWhereClause (whereClause : StdString)
  | setWhereArgs (whereArgs : List StdString)
  | setOrder (order : StdString)
  | setSettingMode (settingMode : Int16)

/-- What each public call does. -/
def BuilderCall.apply (p : DataSharePredicates) : BuilderCall → DataSharePredicates
  | .equalTo field value => p.setOperationSingles .equalTo (.string field) value
  | .notEqualTo field value => p.setOperationSingles .notEqualTo (.string field) value
  | .greaterThan field value => p.setOperationSingles .greaterThan (.string field) value
  | .lessThan field value => p.setOperationSingles .lessThan (.string field) value
  | .greaterThanOrEqualTo field value =>
    p.setOperationSingles .greaterThanOrEqualTo (.string field) value
  | .lessThanOrEqualTo field value =>
    p.setOperationSingles .lessThanOrEqualTo (.string field) value
  | .in field values => p.setOperationSingleMulti .sqlIn (.string field) values
  | .notIn field values => p.setOperationSingleMulti .notIn (.string field) values
  | .beginWrap => p.setOperationSingles .beginWarp
  | .endWrap => p.setOperationSingles .endWarp
  | .or => p.setOperationSingles .or
  | .and => p.setOperationSingles .and
  | .contains field value => p.setOperationSingles .contains (.string field) (.string value)
  | .beginsWith field value => p.setOperationSingles .beginWith (.string field) (.string value)
  | .endsWith field value => p.setOperationSingles .endWith (.string field) (.string value)
  | .isNull field => p.setOperationSingles .isNull (.string field)
  | .isNotNull field => p.setOperationSingles .isNotNull (.string field)
  | .like field value => p.setOperationSingles .like (.string field) (.string value)
  | .unlike field value => p.setOperationSingles .unlike (.string field) (.string value)
  | .glob field value => p.setOperationSingles .glob (.string field) (.string value)
  | .between field low high =>
    p.setOperationSingles .between (.string field) (.string low) (.string high)
  | .notBetween field low high =>
    p.setOperationSingles .notBetween (.string field) (.string low) (.string high)
  | .orderByAsc field => p.setOperationSingles .orderByAsc (.string field)
  | .orderByDesc field => p.setOperationSingles .orderByDesc (.string field)
  | .distinct => p.setOperationSingles .distinct
  | .limit number offset => p.setOperationSingles .limit (.int number) (.int offset)
  | .groupBy fields => p.setOperationMulti .groupBy (.string fields)
  | .indexedBy indexName => p.setOperationSingles .indexedBy (.string indexName)
  | .keyPrefix key => p.setOperationSingles .keyPrefix (.string key)
  | .inKeys keys => p.setOperationMulti .inKey (.string keys)
  | .crossJoin tableName => p.setOperationSingles .crossJoin (.string tableName)
  | .innerJoin tableName => p.setOperationSingles .innerJoin (.string tableName)
  | .leftOuterJoin tableName => p.setOperationSingles .leftOuterJoin (.string tableName)
  | .using fields => p.setOperationMulti .using (.string fields)
  | .on fields => p.setOperationMulti .on (.string fields)
  | .setOperationList operations => p.setOperations operations
  | .setWhereClause whereClause => p.setWhereClause whereClause
  | .setWhereArgs whereArgs => p.setWhereArgs whereArgs
  | .setOrder order => p.setOrder order
  | .setSettingMode settingMode => p.setSettingMode settingMode

/-- The value a sequence of public calls builds, from a fresh one. -/
def buildPredicates (calls : List BuilderCall) : DataSharePredicates :=
  calls.foldl BuilderCall.apply {}

/-! ## Marshalling -/

/-- `value.index()`, as the byte written in front of the value. -/
def SingleValue.index : SingleValue → UInt8
  | .null => 0
  | .int _ => 1
  | .double _ => 2
  | .string _ => 3
  | .bool _ => 4
  | .long _ => 5

/-- What follows the index : the `switch` of `MarshalSingleTypeToBuffer`. -/
def SingleValue.marshalVal : SingleValue → List UInt8
  | .null => []
  | .int val => marshalBasicTypeToBuffer val
  | .double val => marshalBasicTypeToBuffer val
  | .string val => marshalStringToBuffer val
  | .bool val => marshalBasicTypeToBuffer val
  | .long val => marshalBasicTypeToBuffer val

def marshalSingleTypeToBuffer (value : SingleValue) : List UInt8 :=
  marshalBasicTypeToBuffer value.index ++ value.marshalVal

def marshalSingleTypeVecToBuffer (values : List SingleValue) : List UInt8 :=
  marshalVecToBuffer marshalSingleTypeToBuffer values

/-- `DataSharePredicatesObjectsType::TYPE_NULL`, the offset of the multi-value tags. -/
def objectsTypeNull : UInt8 := 6

/-- `value.index()`. The byte written is the plain index, without the offset. -/
def MutliValue.index : MutliValue → UInt8
  | .null => 0
  | .int _ => 1
  | .long _ => 2
  | .double _ => 3
  | .string _ => 4

/-- What follows the index : the `switch` of `MarshalMultiTypeToBuffer`. -/
def MutliValue.marshalVal : MutliValue → List UInt8
  | .null => []
  | .int val => marshalBasicTypeVecToBuffer val
  | .long val => marshalBasicTypeVecToBuffer val
  | .double val => marshalBasicTypeVecToBuffer val
  | .string val => marshalStringVecToBuffer val

def marshalMultiTypeToBuffer (value : MutliValue) : List UInt8 :=
  marshalBasicTypeToBuffer value.index ++ value.marshalVal

def marshalMultiTypeVecToBuffer (values : List MutliValue) : List UInt8 :=
  marshalVecToBuffer marshalMultiTypeToBuffer values

def marshalOperationItemToBuffer (value : OperationItem) : List UInt8 :=
  marshalBasicTypeToBuffer value.operation ++ (marshalSingleTypeVecToBuffer value.singleParams ++
    marshalMultiTypeVecToBuffer value.multiParams)

def marshalOperationItemVecToBuffer (values : List OperationItem) : List UInt8 :=
  marshalVecToBuffer marshalOperationItemToBuffer values

def marshalPredicatesToBuffer (predicates : DataSharePredicates) : List UInt8 :=
  marshalOperationItemVecToBuffer predicates.operations ++
    (marshalStringToBuffer predicates.whereClause ++
      (marshalStringVecToBuffer predicates.whereArgs ++
        (marshalStringToBuffer predicates.order ++
          marshalBasicTypeToBuffer predicates.settingMode)))

/-! ## Unmarshalling -/

def unmarshalSingleTypeToBuffer : Reader IStream SingleValue := do
  let typeId ← unmarshalBasicTypeToBuffer UInt8
  match typeId.toNat with
  | 0 => pure .null
  | 1 => do
    let val ← unmarshalBasicTypeToBuffer Int32
    pure (.int val)
  | 2 => do
    let val ← unmarshalBasicTypeToBuffer Double
    pure (.double val)
  | 3 => do
    let val ← unmarshalStringToBuffer
    pure (.string val)
  | 4 => do
    let val ← unmarshalBasicTypeToBuffer Bool
    pure (.bool val)
  | 5 => do
    let val ← unmarshalBasicTypeToBuffer Int64
    pure (.long val)
  | _ => Reader.fail

def unmarshalSingleTypeVecToBuffer : Reader IStream (List SingleValue) :=
  unmarshalVecToBuffer unmarshalSingleTypeToBuffer

/-- The tag is compared after the offset is added, modulo 256. -/
def unmarshalMultiTypeToBuffer : Reader IStream MutliValue := do
  let typeId ← unmarshalBasicTypeToBuffer UInt8
  match (typeId + objectsTypeNull).toNat with
  | 6 => pure .null
  | 7 => do
    let val ← unmarshalBasicTypeVecToBuffer Int32
    pure (.int val)
  | 8 => do
    let val ← unmarshalBasicTypeVecToBuffer Int64
    pure (.long val)
  | 9 => do
    let val ← unmarshalBasicTypeVecToBuffer Double
    pure (.double val)
  | 10 => do
    let val ← unmarshalStringVecToBuffer
    pure (.string val)
  | _ => Reader.fail

def unmarshalMultiTypeVecToBuffer : Reader IStream (List MutliValue) :=
  unmarshalVecToBuffer unmarshalMultiTypeToBuffer

def unmarshalOperationItemToBuffer : Reader IStream OperationItem := do
  let operation ← unmarshalBasicTypeToBuffer Int32
  let singleParams ← unmarshalSingleTypeVecToBuffer
  let multiParams ← unmarshalMultiTypeVecToBuffer
  pure ⟨operation, singleParams, multiParams⟩

def unmarshalOperationItemVecToBuffer : Reader IStream (List OperationItem) :=
  unmarshalVecToBuffer unmarshalOperationItemToBuffer

/-- The setter calls the decoder ends with, in the order of the source. -/
def DataSharePredicates.restore (p : DataSharePredicates) (operations : List OperationItem)
    (whereClause : StdString) (whereArgs : List StdString) (order : StdString) (mode : Int16) :
    DataSharePredicates :=
  ((((p.setOperations operations).setWhereClause whereClause).setWhereArgs whereArgs).setOrder
    order).setSettingMode mode

/-- `predicates` is the object the caller passes in to be filled. -/
def unmarshalPredicatesToBuffer (predicates : DataSharePredicates) :
    Reader IStream DataSharePredicates := do
  let operations ← unmarshalOperationItemVecToBuffer
  let whereClause ← unmarshalStringToBuffer
  let whereArgs ← unmarshalStringVecToBuffer
  let order ← unmarshalStringToBuffer
  let mode ← unmarshalBasicTypeToBuffer Int16
  pure (predicates.restore operations whereClause whereArgs order mode)

/-! ## The round trip -/

theorem length_marshalSingleTypeToBuffer_pos (value : SingleValue) :
    0 < (marshalSingleTypeToBuffer value).length := by
  rw [marshalSingleTypeToBuffer, List.length_append, length_marshalBasicTypeToBuffer]
  exact Nat.lt_add_right _ (by decide)

theorem length_marshalMultiTypeToBuffer_pos (value : MutliValue) :
    0 < (marshalMultiTypeToBuffer value).length := by
  rw [marshalMultiTypeToBuffer, List.length_append, length_marshalBasicTypeToBuffer]
  exact Nat.lt_add_right _ (by decide)

theorem length_marshalOperationItemToBuffer_pos (value : OperationItem) :
    0 < (marshalOperationItemToBuffer value).length := by
  rw [marshalOperationItemToBuffer, List.length_append, length_marshalBasicTypeToBuffer]
  exact Nat.lt_add_right _ (by decide)

theorem reads_singleType (value : SingleValue)
    (h : (marshalSingleTypeToBuffer value).length ≤ maxIpcSize) :
    Reads unmarshalSingleTypeToBuffer (marshalSingleTypeToBuffer value) value := by
  have htag := reads_basicType value.index
  rw [marshalSingleTypeToBuffer, List.length_append] at h
  cases value with
  | null => exact htag.bind (Reads.pure _)
  | int val => exact htag.bind (reads_basicType val).bind_pure
  | double val => exact htag.bind (reads_basicType val).bind_pure
  | string val => exact htag.bind (reads_string _ (Nat.le_of_add_left_le h)).bind_pure
  | bool val => exact htag.bind (reads_basicType val).bind_pure
  | long val => exact htag.bind (reads_basicType val).bind_pure

theorem reads_multiType (value : MutliValue)
    (h : (marshalMultiTypeToBuffer value).length ≤ maxIpcSize) :
    Reads unmarshalMultiTypeToBuffer (marshalMultiTypeToBuffer value) value := by
  have htag := reads_basicType value.index
  rw [marshalMultiTypeToBuffer, List.length_append] at h
  have hval := Nat.le_of_add_left_le h
  cases value with
  | null => exact htag.bind (Reads.pure _)
  | int val => exact htag.bind (reads_basicTypeVec (by decide) hval).bind_pure
  | long val => exact htag.bind (reads_basicTypeVec (by decide) hval).bind_pure
  | double val => exact htag.bind (reads_basicTypeVec (by decide) hval).bind_pure
  | string val => exact htag.bind (reads_stringVec _ hval).bind_pure

theorem reads_operationItem (value : OperationItem)
    (h : (marshalOperationItemToBuffer value).length ≤ maxIpcSize) :
    Reads unmarshalOperationItemToBuffer (marshalOperationItemToBuffer value) value := by
  rw [marshalOperationItemToBuffer, List.length_append, List.length_append] at h
  have hsingle : Reads unmarshalSingleTypeVecToBuffer
      (marshalSingleTypeVecToBuffer value.singleParams) value.singleParams :=
    reads_vec_of_fits length_marshalSingleTypeToBuffer_pos reads_singleType
      (show (marshalSingleTypeVecToBuffer _).length ≤ _ by omega)
  have hmulti : Reads unmarshalMultiTypeVecToBuffer
      (marshalMultiTypeVecToBuffer value.multiParams) value.multiParams :=
    reads_vec_of_fits length_marshalMultiTypeToBuffer_pos reads_multiType
      (show (marshalMultiTypeVecToBuffer _).length ≤ _ by omega)
  exact (reads_basicType value.operation).bind (hsingle.bind hmulti.bind_pure)

/-- On a fresh object the gated setters restore every field : the mode never is
`PREDICATES_METHOD` before the last call, and a refused empty value is the default. -/
theorem restore_eq (operations : List OperationItem) (whereClause : StdString)
    (whereArgs : List StdString) (order : StdString) (mode : Int16) :
    ({} : DataSharePredicates).restore operations whereClause whereArgs order mode =
      ⟨operations, whereClause, whereArgs, order, mode⟩ := by
  have h0 : invalidMode ≠ predicatesMethod := by decide
  have h1 : queryLanguage ≠ predicatesMethod := by decide
  by_cases ho : operations = [] <;> by_cases hc : whereClause = [] <;>
    by_cases ha : whereArgs = [] <;> by_cases hr : order = [] <;>
    simp [DataSharePredicates.restore, DataSharePredicates.setOperations,
      DataSharePredicates.setWhereClause, DataSharePredicates.setWhereArgs,
      DataSharePredicates.setOrder, DataSharePredicates.setSettingMode, h0, h1, ho, hc, ha, hr]

theorem reads_predicates (p : DataSharePredicates)
    (h : (marshalPredicatesToBuffer p).length ≤ maxIpcSize) :
    Reads (unmarshalPredicatesToBuffer {}) (marshalPredicatesToBuffer p) p := by
  simp only [marshalPredicatesToBuffer, List.length_append] at h
  have hops : Reads unmarshalOperationItemVecToBuffer
      (marshalOperationItemVecToBuffer p.operations) p.operations :=
    reads_vec_of_fits length_marshalOperationItemToBuffer_pos reads_operationItem
      (show (marshalOperationItemVecToBuffer _).length ≤ _ by omega)
  have hclause := reads_string p.whereClause (by omega)
  have hargs := reads_stringVec p.whereArgs (by omega)
  have horder := reads_string p.order (by omega)
  have hmode := (reads_basicType p.settingMode).bind_pure
    (g := ({} : DataSharePredicates).restore p.operations p.whereClause p.whereArgs p.order)
  rw [restore_eq] at hmode
  exact hops.bind (hclause.bind (hargs.bind (horder.bind hmode)))

/-- Predicates built by any calls come back from their raw buffer unchanged, into a fresh
object and with the whole buffer consumed. -/
theorem unmarshal_marshalPredicates (calls : List BuilderCall)
    (h : (marshalPredicatesToBuffer (buildPredicates calls)).length ≤ maxIpcSize) :
    (unmarshalPredicatesToBuffer {}).run
        ⟨marshalPredicatesToBuffer (buildPredicates calls), true⟩ =
      (some (buildPredicates calls), ⟨[], true⟩) := by
  have hrun := (reads_predicates _ h).run_feed
  rwa [IStream.feed_eq, IStream.feed_eq] at hrun

/-- The mode is set back after the first builder call, so both kinds of content are there. -/
def mixedCalls : List BuilderCall :=
  [.equalTo [105] (.int 7), .setSettingMode queryLanguage, .setOrder [105], .setWhereClause [120]]

theorem unmarshal_marshalPredicates_mixed :
    (unmarshalPredicatesToBuffer {}).run
        ⟨marshalPredicatesToBuffer (buildPredicates mixedCalls), true⟩ =
      (some (buildPredicates mixedCalls), ⟨[], true⟩) :=
  unmarshal_marshalPredicates mixedCalls (by decide)

end Cpp

end DataShare
