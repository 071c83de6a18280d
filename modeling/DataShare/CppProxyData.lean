import DataShare.CppBuffer
import DataShare.OrderedMap

/-!
# The C++ proxy-data codecs

The messages of the data-proxy service : the published `DataShareProxyData`, and the
`DataProxyGetResult` and `DataProxyChangeInfo` that come back. Each vector is one raw
buffer in a parcel.

The item and value counts are checked by the decoders only. A `DataShareProxyData` whose
counts are within the limits is decoded to its `normalize`d form : fields flagged as
undefined come back as defaults, and an app with no values is lost, because the decoder
creates the map of an app with its first value (`unmarshal_marshalProxyDataVec_iff`). A
vector of results is decoded to itself or, above a limit, refused
(`unmarshal_marshalResults`).
-/

namespace DataShare

namespace Cpp

/-! ## The data model -/

/-- `DataProxyValue`, alternatives in index order. -/
inductive DataProxyValue
  | int (val : Int64)
  | double (val : Double)
  | string (val : StdString)
  | bool (val : Bool)
deriving DecidableEq, Repr

/-- `std::map<std::string, DataProxyValue>`, the values of one app. -/
abbrev AppValues := OrderedMap StdString DataProxyValue

/-- `std::map<std::string, std::map<std::string, DataProxyValue>>`. -/
abbrev MultiValues := OrderedMap StdString AppValues

structure DataShareProxyData where
  uri : StdString := []
  value : DataProxyValue := .string []
  allowList : List StdString := []
  trustProviders : List StdString := []
  multiValues : MultiValues := .empty
  maxValueLength : Int32 := 4096
  isValueUndefined : Bool := false
  isAllowListUndefined : Bool := false
  isTrustProvidersUndefined : Bool := false
  isMultiValues : Bool := false
deriving DecidableEq

/-- `result_` is a `DataProxyErrorCode`, stored as its four bytes. -/
structure DataProxyGetResult where
  uri : StdString
  result : UInt32
  value : DataProxyValue
  allowList : List StdString
  multiValues : List DataProxyValue
deriving DecidableEq, Repr

/-- `changeType_` is a `DataShareObserver::ChangeType`, stored as its four bytes. -/
structure DataProxyChangeInfo where
  changeType : UInt32
  uri : StdString
  value : DataProxyValue
  isMultiValues : Bool
  multiValues : List DataProxyValue
deriving DecidableEq, Repr

/-- Maximum count of proxy data, of results, and of the values of one result. -/
def proxyDataMaxCount : ℕ := 64

/-- Maximum count of apps in a multi-value map. -/
def allowListMaxCount : ℕ := 256

def maxMultivalueCountPerApp : ℕ := 10

/-! ## Values -/

/-- `value.index()`. -/
def DataProxyValue.index : DataProxyValue → ℕ
  | .int _ => 0
  | .double _ => 1
  | .string _ => 2
  | .bool _ => 3

/-- What follows the type, which is written as a `size_t`. -/
def DataProxyValue.marshalVal : DataProxyValue → List UInt8
  | .int val => marshalBasicTypeToBuffer val
  | .double val => marshalBasicTypeToBuffer val
  | .string val => marshalStringToBuffer val
  | .bool val => marshalBasicTypeToBuffer val

def marshalDataProxyValueToBuffer (value : DataProxyValue) : List UInt8 :=
  marshalSizeToBuffer value.index ++ value.marshalVal

/-- The cast to `DataProxyValueType` keeps the low 32 bits of the type. -/
def unmarshalDataProxyValueFromBuffer : Reader IStream DataProxyValue := do
  let typeId ← unmarshalSizeToBuffer
  match typeId % 2 ^ 32 with
  | 0 => do
    let intVal ← unmarshalBasicTypeToBuffer Int64
    pure (.int intVal)
  | 1 => do
    let doubleVal ← unmarshalBasicTypeToBuffer Double
    pure (.double doubleVal)
  | 2 => do
    let stringVal ← unmarshalStringToBuffer
    pure (.string stringVal)
  | 3 => do
    let boolVal ← unmarshalBasicTypeToBuffer Bool
    pure (.bool boolVal)
  | _ => Reader.fail

theorem length_marshalDataProxyValueToBuffer_pos (value : DataProxyValue) :
    0 < (marshalDataProxyValueToBuffer value).length := by
  rw [marshalDataProxyValueToBuffer, List.length_append, length_marshalSizeToBuffer]
  omega

theorem reads_dataProxyValue (value : DataProxyValue)
    (h : (marshalDataProxyValueToBuffer value).length ≤ maxIpcSize) :
    Reads unmarshalDataProxyValueFromBuffer (marshalDataProxyValueToBuffer value) value := by
  rw [marshalDataProxyValueToBuffer, List.length_append] at h
  have htag : Reads unmarshalSizeToBuffer (marshalSizeToBuffer value.index) value.index :=
    reads_size (by cases value <;> simp [DataProxyValue.index])
  cases value with
  | int val => exact htag.bind (reads_basicType val).bind_pure
  | double val => exact htag.bind (reads_basicType val).bind_pure
  | string val => exact htag.bind (reads_string _ (Nat.le_of_add_left_le h)).bind_pure
  | bool val => exact htag.bind (reads_basicType val).bind_pure

/-! ## Multi-values -/

def marshalAppValueToBuffer (innerPair : StdString × DataProxyValue) : List UInt8 :=
  marshalStringToBuffer innerPair.1 ++ marshalDataProxyValueToBuffer innerPair.2

def marshalAppToBuffer (outerPair : StdString × AppValues) : List UInt8 :=
  marshalStringToBuffer outerPair.1 ++
    marshalVecToBuffer marshalAppValueToBuffer outerPair.2.entries

def marshalMultiValuesToBuffer (multiValues : MultiValues) : List UInt8 :=
  marshalVecToBuffer marshalAppToBuffer multiValues.entries

/-- `multiValues[appIdentifier][key] = value`. -/
def MultiValues.set (multiValues : MultiValues) (appIdentifier key : StdString)
    (value : DataProxyValue) : MultiValues :=
  multiValues.upsert appIdentifier fun inner => (inner.getD .empty).assign key value

/-- A round of the inner loop. -/
def unmarshalAppValueFromBuffer (appIdentifier : StdString) (multiValues : MultiValues) :
    Reader IStream MultiValues := do
  let key ← unmarshalStringToBuffer
  let value ← unmarshalDataProxyValueFromBuffer
  pure (multiValues.set appIdentifier key value)

/-- A round of the outer loop. -/
def unmarshalAppFromBuffer (multiValues : MultiValues) : Reader IStream MultiValues := do
  let appIdentifier ← unmarshalStringToBuffer
  let innerSize ← unmarshalSizeToBuffer
  if innerSize > maxMultivalueCountPerApp then Reader.fail
  else Reader.foldN (unmarshalAppValueFromBuffer appIdentifier) innerSize multiValues

def unmarshalMultiValuesFromBuffer (multiValues : MultiValues) : Reader IStream MultiValues := do
  let outerSize ← unmarshalSizeToBuffer
  if outerSize > allowListMaxCount then Reader.fail
  else Reader.foldN unmarshalAppFromBuffer outerSize multiValues

/-- At most 256 apps, each with at most 10 values. -/
def MultiValues.WithinLimits (multiValues : MultiValues) : Prop :=
  multiValues.entries.length ≤ allowListMaxCount ∧
    ∀ app ∈ multiValues.entries, app.2.entries.length ≤ maxMultivalueCountPerApp

instance (multiValues : MultiValues) : Decidable multiValues.WithinLimits :=
  inferInstanceAs (Decidable (_ ∧ ∀ app ∈ multiValues.entries, _))

/-- The map without the apps that have no values. -/
def MultiValues.dropEmptyApps (multiValues : MultiValues) : MultiValues :=
  multiValues.filterValues fun values => values.entries ≠ []

/-- What the outer loop makes of an app : its values are set one by one. -/
def MultiValues.addApp (multiValues : MultiValues) (app : StdString × AppValues) : MultiValues :=
  app.2.entries.foldl (fun m e => m.set app.1 e.1 e.2) multiValues

/-- Setting the values of an app one by one creates its map with the first of them. -/
theorem MultiValues.addApp_eq (multiValues : MultiValues) (app : StdString × AppValues) :
    multiValues.addApp app =
      if app.2.entries ≠ [] then
        multiValues.upsert app.1 fun inner =>
          app.2.entries.foldl (fun m e => m.assign e.1 e.2) (inner.getD .empty)
      else multiValues := by
  split
  · next h =>
    exact OrderedMap.foldl_upsert_getD app.1 .empty
      (fun (e : StdString × DataProxyValue) m => m.assign e.1 e.2) h multiValues
  · next h =>
    rw [addApp, not_not.mp h, List.foldl_nil]

theorem foldl_assign_entries (values : AppValues) :
    values.entries.foldl (fun m e => m.assign e.1 e.2) .empty = values := by
  apply OrderedMap.ext
  have h := OrderedMap.entries_foldl_upsert Prod.fst (fun _ => True)
    (fun (e : StdString × DataProxyValue) _ => e.2) (m := .empty) values.sorted (by simp)
  simpa [OrderedMap.assign] using h

theorem MultiValues.foldl_addApp (multiValues : MultiValues) :
    multiValues.entries.foldl addApp .empty = multiValues.dropEmptyApps := by
  apply OrderedMap.ext
  simp only [funext₂ addApp_eq]
  rw [OrderedMap.entries_foldl_upsert Prod.fst _ _ multiValues.sorted (by simp)]
  simp [foldl_assign_entries, dropEmptyApps, OrderedMap.filterValues]

theorem length_marshalAppValueToBuffer_pos (innerPair : StdString × DataProxyValue) :
    0 < (marshalAppValueToBuffer innerPair).length := by
  rw [marshalAppValueToBuffer, List.length_append, length_marshalStringToBuffer]
  omega

theorem length_marshalAppToBuffer_pos (outerPair : StdString × AppValues) :
    0 < (marshalAppToBuffer outerPair).length := by
  rw [marshalAppToBuffer, List.length_append, length_marshalStringToBuffer]
  omega

theorem reads_appValue (appIdentifier : StdString) (innerPair : StdString × DataProxyValue)
    (h : (marshalAppValueToBuffer innerPair).length ≤ maxIpcSize) (multiValues : MultiValues) :
    Reads (unmarshalAppValueFromBuffer appIdentifier multiValues)
      (marshalAppValueToBuffer innerPair)
      (multiValues.set appIdentifier innerPair.1 innerPair.2) := by
  rw [marshalAppValueToBuffer, List.length_append] at h
  have hkey := reads_string innerPair.1 (by omega)
  have hvalue := reads_dataProxyValue innerPair.2 (by omega)
  exact hkey.bind hvalue.bind_pure

theorem reads_app (app : StdString × AppValues)
    (h : (marshalAppToBuffer app).length ≤ maxIpcSize)
    (hlimit : app.2.entries.length ≤ maxMultivalueCountPerApp) (multiValues : MultiValues) :
    Reads (unmarshalAppFromBuffer multiValues) (marshalAppToBuffer app)
      (multiValues.addApp app) := by
  rw [marshalAppToBuffer, List.length_append] at h
  have hname := reads_string app.1 (by omega)
  obtain ⟨hlen, hfits⟩ := fits_of_marshalVecToBuffer length_marshalAppValueToBuffer_pos
    (l := app.2.entries) (by omega)
  refine hname.bind ((reads_size hlen).bind ?_)
  rw [if_neg (by omega)]
  exact Reads.foldN fun e he m => reads_appValue app.1 e (hfits e he) m

theorem reads_multiValues (multiValues : MultiValues)
    (h : (marshalMultiValuesToBuffer multiValues).length ≤ maxIpcSize)
    (hlimits : multiValues.WithinLimits) :
    Reads (unmarshalMultiValuesFromBuffer .empty) (marshalMultiValuesToBuffer multiValues)
      multiValues.dropEmptyApps := by
  obtain ⟨hlen, hfits⟩ := fits_of_marshalVecToBuffer length_marshalAppToBuffer_pos h
  have hloop := Reads.foldN (a := .empty)
    fun app happ m => reads_app app (hfits app happ) (hlimits.2 app happ) m
  rw [MultiValues.foldl_addApp] at hloop
  refine (reads_size hlen).bind ?_
  rwa [if_neg (by have := hlimits.1; omega)]

/-! ## Proxy data -/

/-- The four flags are written first, then the fields they do not declare undefined. -/
def marshalProxyDataToBuffer (data : DataShareProxyData) : List UInt8 :=
  marshalStringToBuffer data.uri ++
    (marshalBasicTypeToBuffer data.isValueUndefined ++
      (marshalBasicTypeToBuffer data.isAllowListUndefined ++
        (marshalBasicTypeToBuffer data.isTrustProvidersUndefined ++
          (marshalBasicTypeToBuffer data.isMultiValues ++
            ((if data.isValueUndefined then [] else marshalDataProxyValueToBuffer data.value) ++
              ((if data.isAllowListUndefined then [] else marshalStringVecToBuffer data.allowList) ++
                ((if data.isTrustProvidersUndefined then []
                    else marshalStringVecToBuffer data.trustProviders) ++
                  ((if data.isMultiValues then marshalMultiValuesToBuffer data.multiValues else []) ++
                    marshalBasicTypeToBuffer data.maxValueLength))))))))

def marshalProxyDataVecToBuffer (proxyDatas : List DataShareProxyData) : List UInt8 :=
  marshalVecToBuffer marshalProxyDataToBuffer proxyDatas

def marshalProxyDataVec (proxyDatas : List DataShareProxyData) : Option MessageParcel :=
  marshalRawBuffer (marshalProxyDataVecToBuffer proxyDatas)

/-- The caller passes in a fresh object `data`, whose fields stay where the flags say so. -/
def unmarshalProxyDataFromBuffer : Reader IStream DataShareProxyData := do
  let data : DataShareProxyData := {}
  let uri ← unmarshalStringToBuffer
  let isValueUndefined ← unmarshalBasicTypeToBuffer Bool
  let isAllowListUndefined ← unmarshalBasicTypeToBuffer Bool
  let isTrustProvidersUndefined ← unmarshalBasicTypeToBuffer Bool
  let isMultiValues ← unmarshalBasicTypeToBuffer Bool
  let value ← (if isValueUndefined then pure data.value else unmarshalDataProxyValueFromBuffer)
  let allowList ←
    (if isAllowListUndefined then pure data.allowList else unmarshalStringVecToBuffer)
  let trustProviders ←
    (if isTrustProvidersUndefined then pure data.trustProviders else unmarshalStringVecToBuffer)
  let multiValues ←
    (if isMultiValues then unmarshalMultiValuesFromBuffer data.multiValues
      else pure data.multiValues)
  let maxValueLength ← unmarshalBasicTypeToBuffer Int32
  IStream.checkGood
  pure ⟨uri, value, allowList, trustProviders, multiValues, maxValueLength, isValueUndefined,
    isAllowListUndefined, isTrustProvidersUndefined, isMultiValues⟩

def unmarshalProxyDataVecToBuffer (proxyDatas : List DataShareProxyData) :
    Reader IStream (List DataShareProxyData) := do
  let datas ← unmarshalBoundedVec proxyDataMaxCount unmarshalProxyDataFromBuffer
  IStream.checkGood
  pure (proxyDatas ++ datas)

def unmarshalProxyDataVec (proxyDatas : List DataShareProxyData) :
    Reader MessageParcel (List DataShareProxyData) :=
  unmarshalRawBuffer (unmarshalProxyDataVecToBuffer proxyDatas)

namespace DataShareProxyData

/-- What is left of a value after a round trip. -/
def normalize (data : DataShareProxyData) : DataShareProxyData where
  uri := data.uri
  value := if data.isValueUndefined then .string [] else data.value
  allowList := if data.isAllowListUndefined then [] else data.allowList
  trustProviders := if data.isTrustProvidersUndefined then [] else data.trustProviders
  multiValues := if data.isMultiValues then data.multiValues.dropEmptyApps else .empty
  maxValueLength := data.maxValueLength
  isValueUndefined := data.isValueUndefined
  isAllowListUndefined := data.isAllowListUndefined
  isTrustProvidersUndefined := data.isTrustProvidersUndefined
  isMultiValues := data.isMultiValues

/-- The fields that the flags declare undefined have their default values. -/
structure FlagsConsistent (data : DataShareProxyData) : Prop where
  value : data.isValueUndefined → data.value = .string []
  allowList : data.isAllowListUndefined → data.allowList = []
  trustProviders : data.isTrustProvidersUndefined → data.trustProviders = []
  multiValues : ¬data.isMultiValues → data.multiValues = .empty

/-- Every app of a multi-value has at least one value. -/
def NoEmptyApp (data : DataShareProxyData) : Prop :=
  data.isMultiValues → ∀ app ∈ data.multiValues.entries, app.2.entries ≠ []

/-- The counts the decoder accepts. -/
def WithinLimits (data : DataShareProxyData) : Prop :=
  data.isMultiValues → data.multiValues.WithinLimits

instance (data : DataShareProxyData) : Decidable data.WithinLimits :=
  inferInstanceAs (Decidable (data.isMultiValues → data.multiValues.WithinLimits))

theorem normalize_eq_self {data : DataShareProxyData} :
    data.normalize = data ↔ data.FlagsConsistent ∧ data.NoEmptyApp := by
  have hdrop : data.multiValues.dropEmptyApps = data.multiValues ↔
      ∀ app ∈ data.multiValues.entries, app.2.entries ≠ [] := by
    rw [MultiValues.dropEmptyApps, OrderedMap.filterValues_eq_self]
    simp
  constructor
  · intro h
    have hvalue := congrArg value h
    have hallow := congrArg allowList h
    have htrust := congrArg trustProviders h
    have hmulti := congrArg multiValues h
    simp only [normalize] at hvalue hallow htrust hmulti
    refine ⟨⟨fun hf => ?_, fun hf => ?_, fun hf => ?_, fun hf => ?_⟩, fun hf => ?_⟩
    · rw [← hvalue, if_pos hf]
    · rw [← hallow, if_pos hf]
    · rw [← htrust, if_pos hf]
    · rw [← hmulti, if_neg hf]
    · rw [if_pos hf] at hmulti
      exact hdrop.mp hmulti
  · rintro ⟨hflags, hempty⟩
    have hvalue := ite_eq_right_iff.mpr fun hf => (hflags.value hf).symm
    have hallow := ite_eq_right_iff.mpr fun hf => (hflags.allowList hf).symm
    have htrust := ite_eq_right_iff.mpr fun hf => (hflags.trustProviders hf).symm
    have hmulti : (if data.isMultiValues then data.multiValues.dropEmptyApps else .empty) =
        data.multiValues := by
      split
      · next hf => exact hdrop.mpr (hempty hf)
      · next hf => exact (hflags.multiValues hf).symm
    rw [normalize, hvalue, hallow, htrust, hmulti]

end DataShareProxyData

theorem length_marshalProxyDataToBuffer_pos (data : DataShareProxyData) :
    0 < (marshalProxyDataToBuffer data).length := by
  rw [marshalProxyDataToBuffer, List.length_append, length_marshalStringToBuffer]
  omega

/-- A field that is written unless it is flagged. -/
theorem reads_unlessFlagged {α : Type} (flag : Bool) (d : α) {p : Reader IStream α}
    {bs : List UInt8} {a : α} (hp : ¬flag → Reads p bs a) :
    Reads (if flag then pure d else p) (if flag then [] else bs) (if flag then d else a) :=
  Reads.ite (fun _ => Reads.pure d) hp

theorem reads_proxyData (data : DataShareProxyData)
    (h : (marshalProxyDataToBuffer data).length ≤ maxIpcSize) (hlimits : data.WithinLimits) :
    Reads unmarshalProxyDataFromBuffer (marshalProxyDataToBuffer data) data.normalize := by
  simp only [marshalProxyDataToBuffer, List.length_append] at h
  have huri := reads_string data.uri (by omega)
  have hvalue := reads_unlessFlagged data.isValueUndefined (.string [])
    fun hf => reads_dataProxyValue data.value (by rw [if_neg hf] at h; omega)
  have hallow := reads_unlessFlagged data.isAllowListUndefined []
    fun hf => reads_stringVec data.allowList (by rw [if_neg hf] at h; omega)
  have htrust := reads_unlessFlagged data.isTrustProvidersUndefined []
    fun hf => reads_stringVec data.trustProviders
      (by rw [if_neg hf] at h; omega)
  have hmulti := Reads.ite (c := data.isMultiValues)
    (fun hf => reads_multiValues data.multiValues (by rw [if_pos hf] at h; omega) (hlimits hf))
    fun _ => Reads.pure OrderedMap.empty
  exact huri.bind ((reads_basicType _).bind ((reads_basicType _).bind ((reads_basicType _).bind
    ((reads_basicType _).bind (hvalue.bind (hallow.bind (htrust.bind (hmulti.bind
      (reads_bind_checkGood (reads_basicType data.maxValueLength))))))))))

theorem reads_proxyDataVec (proxyDatas : List DataShareProxyData)
    (h : (marshalProxyDataVecToBuffer proxyDatas).length ≤ maxIpcSize)
    (hcount : proxyDatas.length ≤ proxyDataMaxCount)
    (hlimits : ∀ data ∈ proxyDatas, data.WithinLimits) :
    Reads (unmarshalProxyDataVecToBuffer []) (marshalProxyDataVecToBuffer proxyDatas)
      (proxyDatas.map DataShareProxyData.normalize) := by
  obtain ⟨hlen, hfits⟩ := fits_of_marshalVecToBuffer length_marshalProxyDataToBuffer_pos h
  exact reads_bind_checkGood (reads_boundedVec hcount hlen
    fun data hd => reads_proxyData data (hfits data hd) (hlimits data hd))

/-- Within the limits of the decoder, proxy data comes back unchanged exactly when the
flags agree with the fields and no app is without values. -/
theorem unmarshal_marshalProxyDataVec_iff (proxyDatas : List DataShareProxyData)
    (parcel rest : MessageParcel) (h : marshalProxyDataVec proxyDatas = some parcel)
    (hcount : proxyDatas.length ≤ proxyDataMaxCount)
    (hlimits : ∀ data ∈ proxyDatas, data.WithinLimits) :
    (unmarshalProxyDataVec []).run (parcel ++ rest) = (some proxyDatas, rest) ↔
      ∀ data ∈ proxyDatas, data.FlagsConsistent ∧ data.NoEmptyApp := by
  have hpos : 0 < (marshalProxyDataVecToBuffer proxyDatas).length := by
    rw [marshalProxyDataVecToBuffer, length_marshalVecToBuffer]
    omega
  have hread := reads_proxyDataVec proxyDatas (length_le_of_marshalRawBuffer h) hcount hlimits
  have hrun := hread.run_feed
  rw [IStream.feed_eq] at hrun
  have hmap : proxyDatas.map DataShareProxyData.normalize = proxyDatas ↔
      ∀ data ∈ proxyDatas, data.normalize = data := by
    simpa using List.map_inj_left (l := proxyDatas) (f := DataShareProxyData.normalize) (g := id)
  rw [unmarshalProxyDataVec, unmarshalRawBuffer_of_marshalRawBuffer _ h hpos, hrun]
  simp [hmap, DataShareProxyData.normalize_eq_self]

/-- Data with a multi-value that has one app, without values. -/
def emptyAppData : DataShareProxyData :=
  { multiValues := OrderedMap.empty.assign [97] .empty, isMultiValues := true }

/-- A plain item with an allow list, and one whose values are those of two apps. -/
def sharedItems : List DataShareProxyData :=
  [{ uri := [117], value := .int 42, allowList := [[97], [98]], trustProviders := [[99]] },
    { uri := [118], allowList := [[97]], isTrustProvidersUndefined := true, isMultiValues := true
      multiValues :=
        (OrderedMap.empty.assign [97] ((OrderedMap.empty.assign [1] (.bool true)).assign [2]
          (.string [120]))).assign [98] (OrderedMap.empty.assign [1] (.int (-1))) }]

theorem unmarshal_marshalProxyDataVec_shared :
    (unmarshalProxyDataVec []).run
        ([.int32 (Int32.ofNat (marshalProxyDataVecToBuffer sharedItems).length),
          .rawData (marshalProxyDataVecToBuffer sharedItems)] ++ []) =
      (some sharedItems, []) := by
  have hconsistent : ∀ data ∈ sharedItems, data.FlagsConsistent ∧ data.NoEmptyApp := by
    intro data hdata
    simp only [DataShareProxyData.NoEmptyApp]
    rcases List.mem_cons.mp hdata with rfl | hdata
    · exact ⟨⟨by decide, by decide, by decide, by decide⟩, by decide⟩
    · rw [List.mem_singleton.mp hdata]
      exact ⟨⟨by decide, by decide, by decide, by decide⟩, by decide⟩
  exact (unmarshal_marshalProxyDataVec_iff sharedItems _ [] (by decide +kernel) (by decide)
    (by decide)).mpr hconsistent

/-- The app without values is lost. -/
theorem unmarshal_marshalProxyDataVec_emptyApp :
    ¬∀ proxyDatas parcel, marshalProxyDataVec proxyDatas = some parcel →
      proxyDatas.length ≤ proxyDataMaxCount → (∀ data ∈ proxyDatas, data.WithinLimits) →
      ((unmarshalProxyDataVec []).run parcel).1 = some proxyDatas := by
  intro h
  have hlost := h [emptyAppData] ((marshalProxyDataVec [emptyAppData]).get (by decide))
    (by decide) (by decide) (by decide)
  revert hlost
  decide

/-! ## Results and change notifications -/

/-- The multi-values of a result are a vector, counted on their own. -/
def marshalDataProxyValueVecToBuffer (values : List DataProxyValue) : List UInt8 :=
  marshalVecToBuffer marshalDataProxyValueToBuffer values

def unmarshalDataProxyValueVecFromBuffer : Reader IStream (List DataProxyValue) :=
  unmarshalBoundedVec proxyDataMaxCount unmarshalDataProxyValueFromBuffer

def marshalDataProxyGetResultToBuffer (result : DataProxyGetResult) : List UInt8 :=
  marshalStringToBuffer result.uri ++
    (marshalBasicTypeToBuffer result.result ++
      (marshalDataProxyValueToBuffer result.value ++
        (marshalStringVecToBuffer result.allowList ++
          marshalDataProxyValueVecToBuffer result.multiValues)))

def marshalDataProxyGetResultVecToBuffer (results : List DataProxyGetResult) : List UInt8 :=
  marshalVecToBuffer marshalDataProxyGetResultToBuffer results

def marshalDataProxyGetResultVec (results : List DataProxyGetResult) : Option MessageParcel :=
  marshalRawBuffer (marshalDataProxyGetResultVecToBuffer results)

def marshalDataProxyChangeInfoToBuffer (info : DataProxyChangeInfo) : List UInt8 :=
  marshalBasicTypeToBuffer info.changeType ++
    (marshalStringToBuffer info.uri ++
      (marshalDataProxyValueToBuffer info.value ++
        (marshalBasicTypeToBuffer info.isMultiValues ++
          marshalDataProxyValueVecToBuffer info.multiValues)))

def marshalDataProxyChangeInfoVecToBuffer (changeInfos : List DataProxyChangeInfo) : List UInt8 :=
  marshalVecToBuffer marshalDataProxyChangeInfoToBuffer changeInfos

def marshalDataProxyChangeInfoVec (changeInfos : List DataProxyChangeInfo) : Option MessageParcel :=
  marshalRawBuffer (marshalDataProxyChangeInfoVecToBuffer changeInfos)

def unmarshalDataProxyGetResultFromBuffer : Reader IStream DataProxyGetResult := do
  let uri ← unmarshalStringToBuffer
  let result ← unmarshalBasicTypeToBuffer UInt32
  let value ← unmarshalDataProxyValueFromBuffer
  let allowList ← unmarshalStringVecToBuffer
  let multiValues ← unmarshalDataProxyValueVecFromBuffer
  IStream.checkGood
  pure ⟨uri, result, value, allowList, multiValues⟩

def unmarshalDataProxyGetResultVecToBuffer (results : List DataProxyGetResult) :
    Reader IStream (List DataProxyGetResult) := do
  let rs ← unmarshalBoundedVec proxyDataMaxCount unmarshalDataProxyGetResultFromBuffer
  IStream.checkGood
  pure (results ++ rs)

def unmarshalDataProxyGetResultVec (results : List DataProxyGetResult) :
    Reader MessageParcel (List DataProxyGetResult) :=
  unmarshalRawBuffer (unmarshalDataProxyGetResultVecToBuffer results)

def unmarshalDataProxyChangeInfoFromBuffer : Reader IStream DataProxyChangeInfo := do
  let changeType ← unmarshalBasicTypeToBuffer UInt32
  let uri ← unmarshalStringToBuffer
  let value ← unmarshalDataProxyValueFromBuffer
  let isMultiValues ← unmarshalBasicTypeToBuffer Bool
  let multiValues ← unmarshalDataProxyValueVecFromBuffer
  IStream.checkGood
  pure ⟨changeType, uri, value, isMultiValues, multiValues⟩

/-- The number of notifications is not limited. -/
def unmarshalDataProxyChangeInfoVecToBuffer (changeInfos : List DataProxyChangeInfo) :
    Reader IStream (List DataProxyChangeInfo) := do
  let infos ← unmarshalVecToBuffer unmarshalDataProxyChangeInfoFromBuffer
  IStream.checkGood
  pure (changeInfos ++ infos)

def unmarshalDataProxyChangeInfoVec (changeInfos : List DataProxyChangeInfo) :
    Reader MessageParcel (List DataProxyChangeInfo) :=
  unmarshalRawBuffer (unmarshalDataProxyChangeInfoVecToBuffer changeInfos)

theorem reads_dataProxyValueVec (values : List DataProxyValue)
    (h : (marshalDataProxyValueVecToBuffer values).length ≤ maxIpcSize)
    (hlimit : values.length ≤ proxyDataMaxCount) :
    Reads unmarshalDataProxyValueVecFromBuffer (marshalDataProxyValueVecToBuffer values) values := by
  obtain ⟨hlen, hfits⟩ := fits_of_marshalVecToBuffer length_marshalDataProxyValueToBuffer_pos h
  have hread := reads_boundedVec hlimit hlen fun v hv => reads_dataProxyValue v (hfits v hv)
  rwa [List.map_id'] at hread

theorem rejects_dataProxyValueVec (values : List DataProxyValue)
    (h : (marshalDataProxyValueVecToBuffer values).length ≤ maxIpcSize)
    (hlimit : ¬values.length ≤ proxyDataMaxCount) :
    Rejects unmarshalDataProxyValueVecFromBuffer (marshalDataProxyValueVecToBuffer values) := by
  obtain ⟨hlen, -⟩ := fits_of_marshalVecToBuffer length_marshalDataProxyValueToBuffer_pos h
  exact rejects_boundedVec _ _ (not_le.mp hlimit) hlen

theorem length_marshalDataProxyGetResultToBuffer_pos (result : DataProxyGetResult) :
    0 < (marshalDataProxyGetResultToBuffer result).length := by
  rw [marshalDataProxyGetResultToBuffer, List.length_append, length_marshalStringToBuffer]
  omega

theorem length_marshalDataProxyChangeInfoToBuffer_pos (info : DataProxyChangeInfo) :
    0 < (marshalDataProxyChangeInfoToBuffer info).length := by
  rw [marshalDataProxyChangeInfoToBuffer, List.length_append, length_marshalBasicTypeToBuffer]
  exact Nat.lt_add_right _ (by decide)

def DataProxyGetResult.WithinLimit (result : DataProxyGetResult) : Prop :=
  result.multiValues.length ≤ proxyDataMaxCount

def DataProxyChangeInfo.WithinLimit (info : DataProxyChangeInfo) : Prop :=
  info.multiValues.length ≤ proxyDataMaxCount

instance (result : DataProxyGetResult) : Decidable result.WithinLimit :=
  inferInstanceAs (Decidable (_ ≤ _))

instance (info : DataProxyChangeInfo) : Decidable info.WithinLimit :=
  inferInstanceAs (Decidable (_ ≤ _))

/-- A result is read back, or refused when it has too many values. -/
theorem reads_dataProxyGetResult (result : DataProxyGetResult)
    (h : (marshalDataProxyGetResultToBuffer result).length ≤ maxIpcSize) :
    (result.WithinLimit → Reads unmarshalDataProxyGetResultFromBuffer
        (marshalDataProxyGetResultToBuffer result) result) ∧
      (¬result.WithinLimit → Rejects unmarshalDataProxyGetResultFromBuffer
        (marshalDataProxyGetResultToBuffer result)) := by
  simp only [marshalDataProxyGetResultToBuffer, List.length_append] at h
  have huri := reads_string result.uri (by omega)
  have hresult := reads_basicType result.result
  have hvalue := reads_dataProxyValue result.value (by omega)
  have hallow := reads_stringVec result.allowList (by omega)
  constructor
  · intro hlimit
    have hmulti := reads_dataProxyValueVec result.multiValues (by omega) hlimit
    exact huri.bind (hresult.bind (hvalue.bind (hallow.bind (reads_bind_checkGood hmulti))))
  · intro hlimit
    have hmulti := rejects_dataProxyValueVec result.multiValues (by omega) hlimit
    exact Rejects.bind_right huri (Rejects.bind_right hresult (Rejects.bind_right hvalue
      (Rejects.bind_right hallow (hmulti.bind _))))

/-- A notification is read back, or refused when it has too many values. -/
theorem reads_dataProxyChangeInfo (info : DataProxyChangeInfo)
    (h : (marshalDataProxyChangeInfoToBuffer info).length ≤ maxIpcSize) :
    (info.WithinLimit → Reads unmarshalDataProxyChangeInfoFromBuffer
        (marshalDataProxyChangeInfoToBuffer info) info) ∧
      (¬info.WithinLimit → Rejects unmarshalDataProxyChangeInfoFromBuffer
        (marshalDataProxyChangeInfoToBuffer info)) := by
  simp only [marshalDataProxyChangeInfoToBuffer, List.length_append] at h
  have htype := reads_basicType info.changeType
  have huri := reads_string info.uri (by omega)
  have hvalue := reads_dataProxyValue info.value (by omega)
  have hflag := reads_basicType info.isMultiValues
  constructor
  · intro hlimit
    have hmulti := reads_dataProxyValueVec info.multiValues (by omega) hlimit
    exact htype.bind (huri.bind (hvalue.bind (hflag.bind (reads_bind_checkGood hmulti))))
  · intro hlimit
    have hmulti := rejects_dataProxyValueVec info.multiValues (by omega) hlimit
    exact Rejects.bind_right htype (Rejects.bind_right huri (Rejects.bind_right hvalue
      (Rejects.bind_right hflag (hmulti.bind _))))

/-- What the decoder makes of a vector of results. -/
theorem run_dataProxyGetResultVec (results : List DataProxyGetResult)
    (h : (marshalDataProxyGetResultVecToBuffer results).length ≤ maxIpcSize) :
    ((unmarshalDataProxyGetResultVecToBuffer []).run
        ⟨marshalDataProxyGetResultVecToBuffer results, true⟩).1 =
      if results.length ≤ proxyDataMaxCount ∧ ∀ r ∈ results, r.WithinLimit then some results
      else none := by
  obtain ⟨hlen, hfits⟩ := fits_of_marshalVecToBuffer length_marshalDataProxyGetResultToBuffer_pos h
  have hitem := fun r hr => reads_dataProxyGetResult r (hfits r hr)
  rw [← IStream.feed_eq]
  split
  · next hlimits =>
    have hread := reads_boundedVec hlimits.1 hlen fun r hr => (hitem r hr).1 (hlimits.2 r hr)
    rw [List.map_id'] at hread
    have hvec : Reads (unmarshalDataProxyGetResultVecToBuffer [])
        (marshalDataProxyGetResultVecToBuffer results) results :=
      reads_bind_checkGood hread
    rw [hvec.run_feed]
  · next hlimits =>
    have hbad : Rejects (unmarshalBoundedVec proxyDataMaxCount unmarshalDataProxyGetResultFromBuffer)
        (marshalDataProxyGetResultVecToBuffer results) := by
      by_cases hcount : results.length ≤ proxyDataMaxCount
      · refine rejects_boundedVec_of_mem hcount hlen (fun r hr => (hitem r hr).1)
          (fun r hr => (hitem r hr).2) ?_
        by_contra hall
        push Not at hall
        exact hlimits ⟨hcount, hall⟩
      · exact rejects_boundedVec _ _ (not_le.mp hcount) hlen
    have hvec : Rejects (unmarshalDataProxyGetResultVecToBuffer [])
        (marshalDataProxyGetResultVecToBuffer results) :=
      hbad.bind _
    exact hvec.run_feed

/-- What the decoder makes of a vector of notifications. -/
theorem run_dataProxyChangeInfoVec (changeInfos : List DataProxyChangeInfo)
    (h : (marshalDataProxyChangeInfoVecToBuffer changeInfos).length ≤ maxIpcSize) :
    ((unmarshalDataProxyChangeInfoVecToBuffer []).run
        ⟨marshalDataProxyChangeInfoVecToBuffer changeInfos, true⟩).1 =
      if ∀ i ∈ changeInfos, i.WithinLimit then some changeInfos else none := by
  obtain ⟨hlen, hfits⟩ := fits_of_marshalVecToBuffer length_marshalDataProxyChangeInfoToBuffer_pos h
  have hitem := fun i hi => reads_dataProxyChangeInfo i (hfits i hi)
  rw [← IStream.feed_eq]
  split
  · next hlimits =>
    have hread := reads_vec hlen fun i hi => (hitem i hi).1 (hlimits i hi)
    rw [List.map_id'] at hread
    have hvec : Reads (unmarshalDataProxyChangeInfoVecToBuffer [])
        (marshalDataProxyChangeInfoVecToBuffer changeInfos) changeInfos :=
      reads_bind_checkGood hread
    rw [hvec.run_feed]
  · next hlimits =>
    push Not at hlimits
    have hbad : Rejects (unmarshalVecToBuffer unmarshalDataProxyChangeInfoFromBuffer)
        (marshalDataProxyChangeInfoVecToBuffer changeInfos) :=
      Rejects.bind_right (reads_size hlen)
        (Rejects.readN (fun i hi => (hitem i hi).1) (fun i hi => (hitem i hi).2) hlimits)
    have hvec : Rejects (unmarshalDataProxyChangeInfoVecToBuffer [])
        (marshalDataProxyChangeInfoVecToBuffer changeInfos) :=
      hbad.bind _
    exact hvec.run_feed

/-- Every message that is sent is decoded to the same value, or refused when it exceeds a
limit of the decoder : more than 64 results, or more than 64 values in one result or
notification. -/
theorem unmarshal_marshalResults :
    (∀ results parcel rest, marshalDataProxyGetResultVec results = some parcel →
      (unmarshalDataProxyGetResultVec []).run (parcel ++ rest) =
        (if results.length ≤ proxyDataMaxCount ∧ ∀ r ∈ results, r.WithinLimit then some results
          else none, rest)) ∧
      ∀ changeInfos parcel rest, marshalDataProxyChangeInfoVec changeInfos = some parcel →
        (unmarshalDataProxyChangeInfoVec []).run (parcel ++ rest) =
          (if ∀ i ∈ changeInfos, i.WithinLimit then some changeInfos else none, rest) := by
  constructor
  · intro results parcel rest h
    have hpos : 0 < (marshalDataProxyGetResultVecToBuffer results).length := by
      rw [marshalDataProxyGetResultVecToBuffer, length_marshalVecToBuffer]
      omega
    rw [unmarshalDataProxyGetResultVec, unmarshalRawBuffer_of_marshalRawBuffer _ h hpos,
      run_dataProxyGetResultVec _ (length_le_of_marshalRawBuffer h)]
  · intro changeInfos parcel rest h
    have hpos : 0 < (marshalDataProxyChangeInfoVecToBuffer changeInfos).length := by
      rw [marshalDataProxyChangeInfoVecToBuffer, length_marshalVecToBuffer]
      omega
    rw [unmarshalDataProxyChangeInfoVec, unmarshalRawBuffer_of_marshalRawBuffer _ h hpos,
      run_dataProxyChangeInfoVec _ (length_le_of_marshalRawBuffer h)]

/-- A result for a key that does not exist. -/
def missingResult : DataProxyGetResult :=
  ⟨[], 1, .int 0, [], []⟩

/-- The result of a key whose value is that of several apps. -/
def sharedResult : DataProxyGetResult :=
  ⟨[117], 0, .string [], [[97], [98]], [.bool true, .string [120], .int (-1)]⟩

/-- An update of such a key. -/
def sharedChange : DataProxyChangeInfo :=
  ⟨1, [117], .string [], true, [.int 7, .double ⟨0⟩]⟩

theorem unmarshal_marshalResults_shared :
    (unmarshalDataProxyGetResultVec []).run
        ([.int32 (Int32.ofNat
            (marshalDataProxyGetResultVecToBuffer [sharedResult, missingResult]).length),
          .rawData (marshalDataProxyGetResultVecToBuffer [sharedResult, missingResult])] ++ []) =
      (some [sharedResult, missingResult], []) ∧
    (unmarshalDataProxyChangeInfoVec []).run
        ([.int32 (Int32.ofNat (marshalDataProxyChangeInfoVecToBuffer [sharedChange]).length),
          .rawData (marshalDataProxyChangeInfoVecToBuffer [sharedChange])] ++ []) =
      (some [sharedChange], []) :=
  ⟨unmarshal_marshalResults.1 [sharedResult, missingResult] _ [] (by decide +kernel),
    unmarshal_marshalResults.2 [sharedChange] _ [] (by decide)⟩

/-- The encoder sends 65 results, and the decoder refuses them. -/
theorem unmarshal_marshalResults_tooMany :
    ¬∀ results parcel, marshalDataProxyGetResultVec results = some parcel →
      ((unmarshalDataProxyGetResultVec []).run parcel).1 = some results := by
  intro h
  have hrefused := h (List.replicate 65 missingResult)
    ((marshalDataProxyGetResultVec (List.replicate 65 missingResult)).get (by decide +kernel))
    (by decide +kernel)
  revert hrefused
  decide +kernel

end Cpp

end DataShare
