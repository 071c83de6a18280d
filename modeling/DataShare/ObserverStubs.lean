import DataShare.CppProxyData
import DataShare.CppPublishedData
import DataShare.PredicatesPaths
import DataShare.ProxyDataWire
import DataShare.RustPublishedData

/-!
# Observer stubs

A change of proxy data or of published data comes to an observer in a message : the interface
token, and what the C++ encoder has written. The C++ stubs compare the token and the code of the
request, decode the message, and return an error without calling back if one of these fails
(`Cpp.refuses_or_delivers`).

What is assumed of the parcels of the IPC library is the class `ObserverParcel` : a read of the type a
value was written with gives the value, and leaves the rest of the message. What the C++ stubs decode
messages with is a parameter, of which nothing is assumed.

The Rust stubs only ask whether there is a token. The stub for proxy data takes the length of the
raw buffer for a count and reads so many changes, each of defaults where nothing can be read. It
calls back with them, so it is right only about messages without a token. The stub for published
data calls back with the items that can be read, which are those of the message if all its texts
are UTF-8 (`observerStubs_exact_iff`).
-/

namespace DataShare

/-! ## Messages -/

/-- A value in a message, as it was written. -/
inductive MessageField
  | interfaceToken (descriptor : String)
  | int32 (val : Int32)
  | uint32 (val : UInt32)
  | int64 (val : Int64)
  | string (val : Cpp.StdString)
  | ashmem (ashmem : ℕ)
  | rawData (bytes : List UInt8)
deriving DecidableEq

/-- The parcel of a message : `ofFields fields` is the one that `fields` were written to. A value is
read as it was written by a read of its type ; nothing is said about other reads. -/
class ObserverParcel (σ : Type) where
  ofFields : List MessageField → σ
  readInterfaceToken : Reader σ String
  readI32 : Reader σ Int32
  readU32 : Reader σ UInt32
  readI64 : Reader σ Int64
  readF64 : Reader σ Double
  readBool : Reader σ Bool
  readString : Reader σ String
  readAshmem : Reader σ ℕ
  readInterfaceToken_cons : ∀ descriptor rest,
    readInterfaceToken.run (ofFields (.interfaceToken descriptor :: rest)) =
      (some descriptor, ofFields rest)
  readI32_cons : ∀ val rest, readI32.run (ofFields (.int32 val :: rest)) = (some val, ofFields rest)
  readU32_cons : ∀ val rest, readU32.run (ofFields (.uint32 val :: rest)) = (some val, ofFields rest)
  readI64_cons : ∀ val rest, readI64.run (ofFields (.int64 val :: rest)) = (some val, ofFields rest)
  readString_cons : ∀ s rest,
    readString.run (ofFields (.string (utf8Bytes s) :: rest)) = (some s, ofFields rest)
  readAshmem_cons : ∀ ashmem rest,
    readAshmem.run (ofFields (.ashmem ashmem :: rest)) = (some ashmem, ofFields rest)

/-- A parcel that keeps its values as they were written. -/
structure MessageQueue where
  fields : List MessageField

/-- A read that takes the next value only if it is of the type. -/
def MessageQueue.readField {α : Type} (read : MessageField → Option α) : Reader MessageQueue α where
  run
    | ⟨[]⟩ => (none, ⟨[]⟩)
    | ⟨field :: rest⟩ => if (read field).isSome then (read field, ⟨rest⟩) else (none, ⟨field :: rest⟩)

instance : ObserverParcel MessageQueue where
  ofFields := MessageQueue.mk
  readInterfaceToken := MessageQueue.readField fun
    | .interfaceToken descriptor => some descriptor
    | _ => none
  readI32 := MessageQueue.readField fun
    | .int32 val => some val
    | _ => none
  readU32 := MessageQueue.readField fun
    | .uint32 val => some val
    | _ => none
  readI64 := MessageQueue.readField fun
    | .int64 val => some val
    | _ => none
  readF64 := MessageQueue.readField fun _ => none
  readBool := MessageQueue.readField fun _ => none
  readString := MessageQueue.readField fun
    | .string val => fromUtf8 val
    | _ => none
  readAshmem := MessageQueue.readField fun
    | .ashmem ashmem => some ashmem
    | _ => none
  readInterfaceToken_cons _ _ := rfl
  readI32_cons _ _ := rfl
  readU32_cons _ _ := rfl
  readI64_cons _ _ := rfl
  readString_cons s rest := by simp [MessageQueue.readField, fromUtf8_utf8Bytes]
  readAshmem_cons _ _ := rfl

/-- What a stub returns, and what it calls its callback with. -/
structure Handled (κ α : Type) where
  status : κ
  calls : List α
deriving DecidableEq

/-- `IDataProxyPublishedDataObserver`. -/
def publishedDescriptor : String :=
  "OHOS.DataShare.IDataProxyPublishedDataObserver"

/-- `IProxyDataObserver`. -/
def proxyDescriptor : String :=
  "OHOS.DataShare.IProxyDataObserver"

/-! ## C++ -/

namespace Cpp

/-- The value of an item : the pointer of its `AshmemNode`, or a text. -/
inductive PublishedDataValue
  | ashmem (ashmem : Option ℕ)
  | string (val : StdString)
deriving DecidableEq

/-- A variant is its index and its value. `WriteAshmem` refuses a null pointer. -/
def marshalPublishedDataValue : PublishedDataValue → Option (List MessageField)
  | .ashmem none => none
  | .ashmem (some ashmem) => some [.uint32 0, .ashmem ashmem]
  | .string val => some [.uint32 1, .string val]

def marshalPublishedDataItem (dataItem : PublishedDataItem PublishedDataValue) :
    Option (List MessageField) :=
  (marshalPublishedDataValue dataItem.data).map fun value =>
    .string dataItem.key :: .int64 dataItem.subscriberId :: value

/-- A vector is its size, which is to be an `int32_t`, and its elements. -/
def marshalPublishedDataChangeNode (changeNode : PublishedDataChangeNode PublishedDataValue) :
    Option (List MessageField) :=
  if changeNode.datas.length < 2 ^ 31 then
    (changeNode.datas.mapM marshalPublishedDataItem).map fun items =>
      .string changeNode.ownerBundleName :: .int32 (Int32.ofNat changeNode.datas.length) ::
        items.flatten
  else none

def ParcelItem.toField : ParcelItem → MessageField
  | .int32 val => .int32 val
  | .rawData bytes => .rawData bytes

/-- What `OnRemoteRequest` returns. -/
inductive RequestStatus
  | errOk | errInvalidState | errInvalidValue
deriving DecidableEq

/-- The `OnRemoteRequest` of the stubs, for the descriptor they compare with and what they decode. -/
def onRemoteRequest {σ α : Type} [ObserverParcel σ] (descriptor : String) (unmarshal : Reader σ α)
    (callback : Bool) (code : UInt32) (data : σ) : DataShare.Handled RequestStatus α :=
  let token := ObserverParcel.readInterfaceToken.run data
  if token.1 ≠ some descriptor then ⟨.errInvalidState, []⟩
  else if code ≠ 0 then ⟨.errInvalidState, []⟩
  else
    match (unmarshal.run token.2).1 with
    | none => ⟨.errInvalidValue, []⟩
    | some change => ⟨.errOk, if callback then [change] else []⟩

def PublishedDataObserverStub.onRemoteRequest {σ : Type} [ObserverParcel σ]
    (unmarshal : Reader σ (PublishedDataChangeNode PublishedDataValue)) (callback : Bool)
    (code : UInt32) (data : σ) :
    DataShare.Handled RequestStatus (PublishedDataChangeNode PublishedDataValue) :=
  Cpp.onRemoteRequest publishedDescriptor unmarshal callback code data

/-- The descriptor is that of `PublishedDataObserverStub`. -/
def ProxyDataObserverStub.onRemoteRequest {σ : Type} [ObserverParcel σ]
    (unmarshalDataProxyChangeInfoVec : Reader σ (List DataProxyChangeInfo)) (callback : Bool)
    (code : UInt32) (data : σ) : DataShare.Handled RequestStatus (List DataProxyChangeInfo) :=
  Cpp.onRemoteRequest publishedDescriptor unmarshalDataProxyChangeInfoVec callback code data

/-- What cannot be decoded whole is refused. -/
theorem refuses_or_delivers {σ α : Type} [ObserverParcel σ] (descriptor : String)
    (unmarshal : Reader σ α) (code : UInt32) (data : σ) :
    ((onRemoteRequest descriptor unmarshal true code data).status ≠ .errOk ∧
      (onRemoteRequest descriptor unmarshal true code data).calls = []) ∨
    ∃ rest change, ObserverParcel.readInterfaceToken.run data = (some descriptor, rest) ∧ code = 0 ∧
      (unmarshal.run rest).1 = some change ∧
      onRemoteRequest descriptor unmarshal true code data = ⟨.errOk, [change]⟩ := by
  unfold onRemoteRequest
  dsimp only
  split
  · exact .inl ⟨by simp, rfl⟩
  · next htoken =>
    split
    · exact .inl ⟨by simp, rfl⟩
    · next hcode =>
      rcases hchange : (unmarshal.run (ObserverParcel.readInterfaceToken.run data).2).1 with
        _ | change
      · exact .inl ⟨by simp, rfl⟩
      · exact .inr ⟨_, change, Prod.ext (not_not.mp htoken) rfl, not_not.mp hcode, hchange, rfl⟩

end Cpp

/-! ## Rust -/

namespace Reader

variable {σ α : Type}

/-- Run `p` `n` times, and keep what it gives where it does not fail. -/
def readOk (p : Reader σ α) : ℕ → Reader σ (List α)
  | 0 => pure []
  | n + 1 => ⟨fun s =>
    let item := p.run s
    let items := (p.readOk n).run item.2
    (items.1.map fun found => item.1.toList ++ found, items.2)⟩

/-- `p` has a result on every stream. -/
def Total (p : Reader σ α) : Prop :=
  ∀ s, (p.run s).1.isSome = true

theorem total_pure (a : α) : Total (pure a : Reader σ α) :=
  fun _ => rfl

theorem total_orDefault (p : Reader σ α) (a : α) : Total (p.orDefault a) :=
  fun _ => rfl

theorem Total.bind {β : Type} {p : Reader σ α} {f : α → Reader σ β} (hp : Total p)
    (hf : ∀ a, Total (f a)) : Total (p >>= f) := by
  intro s
  obtain ⟨a, ha⟩ := Option.isSome_iff_exists.mp (hp s)
  have hrun : p.run s = (some a, (p.run s).2) := Prod.ext ha rfl
  rw [run_bind_of_some hrun]
  exact hf a _

theorem Total.readN {p : Reader σ α} (hp : Total p) : ∀ n, Total (p.readN n)
  | 0 => total_pure []
  | n + 1 => hp.bind fun a => (hp.readN n).bind fun as => total_pure (a :: as)

theorem total_readOk (p : Reader σ α) : ∀ n, Total (p.readOk n)
  | 0 => total_pure []
  | n + 1 => fun s => by
    change (Option.map _ ((p.readOk n).run (p.run s).2).1).isSome = true
    rw [Option.isSome_map]
    exact total_readOk p n _

end Reader

namespace Rust

inductive ChangeType
  | insert | delete | update | other | invalid
deriving DecidableEq

def ChangeType.fromU32 (val : UInt32) : ChangeType :=
  if val = 0 then .insert
  else if val = 1 then .delete
  else if val = 2 then .update
  else if val = 3 then .other
  else .invalid

def ChangeType.toU32 : ChangeType → UInt32
  | .insert => 0
  | .delete => 1
  | .update => 2
  | .other => 3
  | .invalid => 4

namespace ObserverStub

/-- `DataProxyChangeInfo`, as the stub builds it. -/
structure DataProxyChangeInfo where
  changeType : ChangeType
  uri : String
  value : DataProxyValue
deriving DecidableEq

inductive PublishedDataValue
  | ashmem (ashmem : ℕ)
  | string (val : String)
deriving DecidableEq

variable (σ : Type) [ObserverParcel σ]

open ObserverParcel (readI32 readU32 readI64 readF64 readBool readAshmem)

def readDataProxyValue : Reader σ DataProxyValue := do
  let typeIndex ← readI32
  if typeIndex = 0 then do
    let v ← readI64
    pure (.int v)
  else if typeIndex = 1 then do
    let v ← readF64
    pure (.double v)
  else if typeIndex = 2 then do
    let v ← ObserverParcel.readString
    pure (.string v)
  else if typeIndex = 3 then do
    let v ← readBool
    pure (.bool v)
  else .fail

/-- A round of the loop over the changes. -/
def readChange : Reader σ DataProxyChangeInfo := do
  let changeTypeVal ← readU32.orDefault 0
  let uri ← ObserverParcel.readString.orDefault ""
  let value ← (readDataProxyValue σ).orDefault (.string "")
  pure ⟨.fromU32 changeTypeVal, uri, value⟩

def readChanges : Reader σ (List DataProxyChangeInfo) := do
  let count ← readI32.orDefault 0
  (readChange σ).readN (rounds count)

def readPublishedDataValue : Reader σ PublishedDataValue := do
  let variant ← readU32
  if variant = 0 then do
    let ashmem ← readAshmem
    pure (.ashmem ashmem)
  else do
    let s ← ObserverParcel.readString
    pure (.string s)

def readPublishedDataItem : Reader σ (PublishedDataItem PublishedDataValue) := do
  let key ← ObserverParcel.readString
  let subscriberId ← readI64
  let value ← readPublishedDataValue σ
  pure ⟨key, subscriberId.toInt, value⟩

def readPublishedDataChangeNode : Reader σ (PublishedDataChangeNode PublishedDataValue) := do
  let ownerBundleName ← ObserverParcel.readString.orDefault ""
  let count ← readI32.orDefault 0
  let datas ← (readPublishedDataItem σ).readOk (rounds count)
  pure ⟨ownerBundleName, datas⟩

end ObserverStub

/-- `callback` says that there is one. -/
structure ProxyDataObserverStub where
  callback : Bool

structure PublishedDataObserverStub where
  callback : Bool

variable {σ : Type} [ObserverParcel σ]

/-- The part that the stubs share : what they read has a result for every parcel. -/
def onRemoteRequest {α : Type} (read : Reader σ α) (callback : Bool) (data : σ) : Handled Int32 α :=
  match ObserverParcel.readInterfaceToken.run data with
  | (none, _) => ⟨-1, []⟩
  | (some _, rest) => ⟨0, if callback then (read.run rest).1.toList else []⟩

/-- The code of the request is not looked at. -/
def ProxyDataObserverStub.onRemoteRequest (stub : ProxyDataObserverStub) (_code : UInt32) (data : σ) :
    Handled Int32 (List ObserverStub.DataProxyChangeInfo) :=
  Rust.onRemoteRequest (ObserverStub.readChanges σ) stub.callback data

def PublishedDataObserverStub.onRemoteRequest (stub : PublishedDataObserverStub) (_code : UInt32)
    (data : σ) : Handled Int32 (PublishedDataChangeNode ObserverStub.PublishedDataValue) :=
  Rust.onRemoteRequest (ObserverStub.readPublishedDataChangeNode σ) stub.callback data

/-! ## What is delivered -/

namespace ObserverStub

open ObserverParcel (ofFields readInterfaceToken)

/-- The fields that both types have. -/
structure SameChange (sent : Cpp.DataProxyChangeInfo) (received : DataProxyChangeInfo) : Prop where
  changeType : sent.changeType = received.changeType.toU32
  uri : sent.uri = utf8Bytes received.uri
  value : sent.value = received.value.toCpp

inductive SameValue : Cpp.PublishedDataValue → PublishedDataValue → Prop
  | ashmem (ashmem : ℕ) : SameValue (.ashmem (some ashmem)) (.ashmem ashmem)
  | string (val : String) : SameValue (.string (utf8Bytes val)) (.string val)

structure SameItem (sent : Cpp.PublishedDataItem Cpp.PublishedDataValue)
    (received : PublishedDataItem PublishedDataValue) : Prop where
  key : sent.key = utf8Bytes received.key
  subscriberId : sent.subscriberId.toInt = received.subscriberId
  data : SameValue sent.data received.data

structure SameNode (sent : Cpp.PublishedDataChangeNode Cpp.PublishedDataValue)
    (received : PublishedDataChangeNode PublishedDataValue) : Prop where
  ownerBundleName : sent.ownerBundleName = utf8Bytes received.ownerBundleName
  datas : List.Forall₂ SameItem sent.datas received.datas

variable {σ : Type} [ObserverParcel σ] {message : σ}

/-- The message has the token, and what the encoder wrote. -/
def Carries (descriptor : String) (written : Option (List MessageField)) (message : σ) : Prop :=
  ∃ fields, written = some fields ∧ message = ofFields (.interfaceToken descriptor :: fields)

theorem Carries.isSome_token {descriptor : String} {written : Option (List MessageField)}
    (h : Carries descriptor written message) : (readInterfaceToken.run message).1.isSome = true := by
  obtain ⟨fields, -, rfl⟩ := h
  rw [ObserverParcel.readInterfaceToken_cons]
  rfl

def CarriesChanges (message : σ) (sent : List Cpp.DataProxyChangeInfo) : Prop :=
  Carries proxyDescriptor
    ((Cpp.marshalDataProxyChangeInfoVec sent).map (List.map Cpp.ParcelItem.toField)) message

def CarriesNode (message : σ) (sent : Cpp.PublishedDataChangeNode Cpp.PublishedDataValue) : Prop :=
  Carries publishedDescriptor (Cpp.marshalPublishedDataChangeNode sent) message

/-- What was sent is what the callback gets, and no other request is answered with a call. -/
structure DeliversExactly {ι α : Type} (carries : ι → Prop) (same : ι → α → Prop) (code : UInt32)
    (handled : Handled Int32 α) : Prop where
  encoded : code = 0 → ∀ sent, carries sent →
    ∃ received, handled = ⟨0, [received]⟩ ∧ same sent received
  other : (code ≠ 0 ∨ ∀ sent, ¬ carries sent) → handled.status ≠ 0 ∧ handled.calls = []

/-- Its texts are UTF-8. -/
def IsUtf8 (sent : Cpp.PublishedDataChangeNode Cpp.PublishedDataValue) : Prop :=
  (fromUtf8 sent.ownerBundleName).isSome ∧ ∀ item ∈ sent.datas, (fromUtf8 item.key).isSome ∧
    ∀ val, item.data = .string val → (fromUtf8 val).isSome

/-! ### The token -/

theorem onRemoteRequest_cases {α : Type} {read : Reader σ α} (hread : read.Total) (message : σ) :
    ((readInterfaceToken.run message).1 = none ∧
      Rust.onRemoteRequest read true message = ⟨-1, []⟩) ∨
    ∃ received, (readInterfaceToken.run message).1.isSome = true ∧
      (read.run (readInterfaceToken.run message).2).1 = some received ∧
      Rust.onRemoteRequest read true message = ⟨0, [received]⟩ := by
  unfold Rust.onRemoteRequest
  rcases htoken : readInterfaceToken.run message with ⟨_ | descriptor, rest⟩
  · exact .inl ⟨rfl, rfl⟩
  · obtain ⟨received, hreceived⟩ := Option.isSome_iff_exists.mp (hread rest)
    refine .inr ⟨received, rfl, hreceived, ?_⟩
    simp only [hreceived, if_true, Option.toList_some]

/-- A stub that calls back whenever there is a token is right about the messages it delivers right,
and about those without a token. -/
theorem deliversExactly_iff {α ι : Type} {read : Reader σ α}
    (hread : read.Total) {carries : ι → Prop} {same : ι → α → Prop}
    (hcarries : ∀ sent, carries sent → (readInterfaceToken.run message).1.isSome = true)
    (code : UInt32) : DeliversExactly carries same code (Rust.onRemoteRequest read true message) ↔
      (code = 0 → ∀ sent, carries sent → ∃ received,
        (read.run (readInterfaceToken.run message).2).1 = some received ∧ same sent received) ∧
      ((code ≠ 0 ∨ ∀ sent, ¬ carries sent) → (readInterfaceToken.run message).1 = none) := by
  rcases onRemoteRequest_cases hread message with ⟨hnone, hhandled⟩ |
    ⟨received, htoken, hreceived, hhandled⟩
  · have hno (sent : ι) : ¬ carries sent := by
      intro hsent
      have hsome := hcarries sent hsent
      rw [hnone] at hsome
      exact Bool.false_ne_true hsome
    rw [hhandled]
    have hstatus : (-1 : Int32) ≠ 0 := by decide
    exact iff_of_true ⟨fun _ sent hsent => absurd hsent (hno sent), fun _ => ⟨hstatus, rfl⟩⟩
      ⟨fun _ sent hsent => absurd hsent (hno sent), fun _ => hnone⟩
  · rw [hhandled]
    refine ⟨fun h => ⟨fun hcode sent hsent => ?_, fun hother => absurd rfl (h.other hother).1⟩,
      fun h => ⟨fun hcode sent hsent => ?_, fun hno => ?_⟩⟩
    · obtain ⟨delivered, heq, hsame⟩ := h.encoded hcode sent hsent
      obtain rfl := List.singleton_inj.mp (Handled.mk.inj heq).2
      exact ⟨received, hreceived, hsame⟩
    · obtain ⟨delivered, heq, hsame⟩ := h.1 hcode sent hsent
      obtain rfl := Option.some_inj.mp (hreceived.symm.trans heq)
      exact ⟨received, rfl, hsame⟩
    · rw [h.2 hno] at htoken
      exact absurd htoken Bool.false_ne_true

/-! ### Proxy data -/

theorem total_readChange : (readChange σ).Total :=
  (Reader.total_orDefault _ _).bind fun _ => (Reader.total_orDefault _ _).bind fun _ =>
    (Reader.total_orDefault _ _).bind fun _ => Reader.total_pure _

theorem total_readChanges : (readChanges σ).Total :=
  (Reader.total_orDefault _ _).bind fun _ => total_readChange.readN _

/-- The length of the buffer is taken for the number of changes. -/
theorem length_readChanges {str : List UInt8} (hstr : str.length ≤ Cpp.maxIpcSize)
    {rest : List MessageField} {received : List DataProxyChangeInfo}
    (h : ((readChanges σ).run (ofFields (.int32 (Int32.ofNat str.length) :: rest))).1 =
      some received) : received.length = str.length := by
  have hcount : (ObserverParcel.readI32.orDefault 0).run
      (ofFields (.int32 (Int32.ofNat str.length) :: rest) : σ) =
        (some (Int32.ofNat str.length), ofFields rest) := by
    simp only [Reader.orDefault, ObserverParcel.readI32_cons, Option.getD_some]
  unfold readChanges at h
  rw [Reader.run_bind_of_some hcount, rounds_ofNat (lt_of_le_of_lt hstr (by decide))] at h
  exact ((Ensures.trivial (readChange σ)).readN str.length _ _ _ (Prod.ext h rfl)).1

theorem length_lt_marshalDataProxyChangeInfoVec (sent : List Cpp.DataProxyChangeInfo) :
    sent.length < (Cpp.marshalDataProxyChangeInfoVecToBuffer sent).length := by
  have hitems := length_le_of_pos (l := sent) fun info _ =>
    Cpp.length_marshalDataProxyChangeInfoToBuffer_pos info
  have hvec := Cpp.length_marshalVecToBuffer Cpp.marshalDataProxyChangeInfoToBuffer sent
  unfold Cpp.marshalDataProxyChangeInfoVecToBuffer
  omega

/-- No list of changes is delivered. -/
theorem not_delivered {sent : List Cpp.DataProxyChangeInfo} (h : CarriesChanges message sent)
    {received : List DataProxyChangeInfo}
    (hreceived : ((readChanges σ).run (readInterfaceToken.run message).2).1 = some received) :
    ¬ List.Forall₂ SameChange sent received := by
  obtain ⟨fields, hfields, hmessage⟩ := h
  obtain ⟨parcel, hparcel, rfl⟩ := Option.map_eq_some_iff.mp hfields
  have hstr := Cpp.length_le_of_marshalRawBuffer hparcel
  rw [Cpp.marshalDataProxyChangeInfoVec, Cpp.marshalRawBuffer, if_neg (by omega)] at hparcel
  obtain rfl := Option.some_inj.mp hparcel
  rw [hmessage, ObserverParcel.readInterfaceToken_cons] at hreceived
  have hlength := length_readChanges hstr hreceived
  have hmore := length_lt_marshalDataProxyChangeInfoVec sent
  intro hsame
  have heq := hsame.length_eq
  omega

/-! ### Published data -/

theorem total_readPublishedDataChangeNode : (readPublishedDataChangeNode σ).Total :=
  (Reader.total_orDefault _ _).bind fun _ => (Reader.total_orDefault _ _).bind fun _ =>
    (Reader.total_readOk _ _).bind fun _ => Reader.total_pure _

theorem run_readPublishedDataValue {sent : Cpp.PublishedDataValue} {received : PublishedDataValue}
    (hsame : SameValue sent received) {fields : List MessageField}
    (hfields : Cpp.marshalPublishedDataValue sent = some fields) (rest : List MessageField) :
    (readPublishedDataValue σ).run (ofFields (fields ++ rest)) = (some received, ofFields rest) := by
  unfold readPublishedDataValue
  cases hsame with
  | ashmem ashmem =>
    obtain rfl := Option.some_inj.mp hfields
    rw [List.cons_append, Reader.run_bind_of_some (ObserverParcel.readU32_cons 0 _), if_pos rfl,
      List.cons_append, Reader.run_bind_of_some (ObserverParcel.readAshmem_cons ashmem _)]
    rfl
  | string val =>
    obtain rfl := Option.some_inj.mp hfields
    rw [List.cons_append, Reader.run_bind_of_some (ObserverParcel.readU32_cons 1 _),
      if_neg (by decide), List.cons_append,
      Reader.run_bind_of_some (ObserverParcel.readString_cons val _)]
    rfl

theorem run_readPublishedDataItem {sent : Cpp.PublishedDataItem Cpp.PublishedDataValue}
    {received : PublishedDataItem PublishedDataValue} (hsame : SameItem sent received)
    {fields : List MessageField} (hfields : Cpp.marshalPublishedDataItem sent = some fields)
    (rest : List MessageField) : (readPublishedDataItem σ).run (ofFields (fields ++ rest)) =
      (some received, ofFields rest) := by
  obtain ⟨value, hvalue, rfl⟩ := Option.map_eq_some_iff.mp hfields
  unfold readPublishedDataItem
  rw [hsame.key, List.cons_append, Reader.run_bind_of_some (ObserverParcel.readString_cons _ _),
    List.cons_append, Reader.run_bind_of_some (ObserverParcel.readI64_cons _ _),
    Reader.run_bind_of_some (run_readPublishedDataValue hsame.data hvalue rest), hsame.subscriberId]
  rfl

theorem run_readOk_items {sent : List (Cpp.PublishedDataItem Cpp.PublishedDataValue)}
    {received : List (PublishedDataItem PublishedDataValue)}
    (hsame : List.Forall₂ SameItem sent received) : ∀ {items : List (List MessageField)},
      sent.mapM Cpp.marshalPublishedDataItem = some items → ∀ rest,
        ((readPublishedDataItem σ).readOk sent.length).run (ofFields (items.flatten ++ rest)) =
          (some received, ofFields rest) := by
  induction hsame with
  | nil =>
    intro items hitems rest
    obtain rfl := Option.some_inj.mp hitems
    rfl
  | @cons item found sent received hitem _ ih =>
    intro items hitems rest
    rw [mapM_cons_eq] at hitems
    obtain ⟨fields, hfields, hmap⟩ := Option.bind_eq_some_iff.mp hitems
    obtain ⟨others, hothers, rfl⟩ := Option.map_eq_some_iff.mp hmap
    have hfirst := run_readPublishedDataItem (σ := σ) hitem hfields (others.flatten ++ rest)
    rw [List.flatten_cons, List.append_assoc]
    simp only [List.length_cons, Reader.readOk, hfirst, ih hothers rest, Option.map_some,
      Option.toList_some, List.singleton_append]

theorem run_readPublishedDataChangeNode
    {sent : Cpp.PublishedDataChangeNode Cpp.PublishedDataValue}
    {received : PublishedDataChangeNode PublishedDataValue} (hsame : SameNode sent received)
    (h : CarriesNode message sent) :
    ((readPublishedDataChangeNode σ).run (readInterfaceToken.run message).2).1 = some received := by
  obtain ⟨fields, hfields, rfl⟩ := h
  rw [ObserverParcel.readInterfaceToken_cons]
  unfold Cpp.marshalPublishedDataChangeNode at hfields
  split at hfields
  · next hlength =>
    obtain ⟨items, hitems, rfl⟩ := Option.map_eq_some_iff.mp hfields
    have howner : (ObserverParcel.readString.orDefault "").run
        (ofFields (.string (utf8Bytes received.ownerBundleName) ::
          .int32 (Int32.ofNat sent.datas.length) :: items.flatten) : σ) =
        (some received.ownerBundleName, ofFields (.int32 (Int32.ofNat sent.datas.length) ::
          items.flatten)) := by
      simp only [Reader.orDefault, ObserverParcel.readString_cons, Option.getD_some]
    have hcount : (ObserverParcel.readI32.orDefault 0).run
        (ofFields (.int32 (Int32.ofNat sent.datas.length) :: items.flatten) : σ) =
        (some (Int32.ofNat sent.datas.length), ofFields items.flatten) := by
      simp only [Reader.orDefault, ObserverParcel.readI32_cons, Option.getD_some]
    have hdatas := run_readOk_items (σ := σ) hsame.datas hitems []
    rw [List.append_nil] at hdatas
    unfold readPublishedDataChangeNode
    rw [hsame.ownerBundleName, Reader.run_bind_of_some howner, Reader.run_bind_of_some hcount,
      rounds_ofNat hlength, Reader.run_bind_of_some hdatas]
    rfl
  · exact absurd hfields (by simp)

theorem exists_forall₂_iff {α β : Type} {R : α → β → Prop} :
    ∀ {as : List α}, (∃ bs, List.Forall₂ R as bs) ↔ ∀ a ∈ as, ∃ b, R a b
  | [] => iff_of_true ⟨[], .nil⟩ fun _ h => absurd h List.not_mem_nil
  | a :: as => by
    rw [List.forall_mem_cons, ← exists_forall₂_iff]
    constructor
    · rintro ⟨_, hcons⟩
      obtain ⟨b, bs, hb, hbs, -⟩ := List.forall₂_cons_left_iff.mp hcons
      exact ⟨⟨b, hb⟩, bs, hbs⟩
    · rintro ⟨⟨b, hb⟩, bs, hbs⟩
      exact ⟨b :: bs, .cons hb hbs⟩

theorem exists_utf8Bytes_iff {bs : List UInt8} :
    (∃ s, bs = utf8Bytes s) ↔ (fromUtf8 bs).isSome = true := by
  refine ⟨?_, exists_utf8Bytes_eq⟩
  rintro ⟨s, rfl⟩
  rw [fromUtf8_utf8Bytes]
  rfl

theorem exists_sameValue_iff {value : Cpp.PublishedDataValue}
    (h : (Cpp.marshalPublishedDataValue value).isSome) :
    (∃ found, SameValue value found) ↔ ∀ val, value = .string val → (fromUtf8 val).isSome = true := by
  constructor
  · rintro ⟨found, hsame⟩ val rfl
    cases hsame with
    | string val => exact exists_utf8Bytes_iff.mp ⟨val, rfl⟩
  · intro hutf8
    cases value with
    | ashmem ashmem =>
      cases ashmem with
      | none => exact absurd h Bool.false_ne_true
      | some ashmem => exact ⟨.ashmem ashmem, .ashmem ashmem⟩
    | string val =>
      obtain ⟨s, rfl⟩ := exists_utf8Bytes_iff.mpr (hutf8 val rfl)
      exact ⟨.string s, .string s⟩

theorem exists_sameItem_iff {item : Cpp.PublishedDataItem Cpp.PublishedDataValue}
    (h : (Cpp.marshalPublishedDataItem item).isSome) :
    (∃ found, SameItem item found) ↔ (fromUtf8 item.key).isSome ∧
      ∀ val, item.data = .string val → (fromUtf8 val).isSome = true := by
  rw [Cpp.marshalPublishedDataItem, Option.isSome_map] at h
  rw [← exists_utf8Bytes_iff, ← exists_sameValue_iff h]
  constructor
  · rintro ⟨found, hsame⟩
    exact ⟨⟨_, hsame.key⟩, _, hsame.data⟩
  · rintro ⟨⟨key, hkey⟩, data, hdata⟩
    exact ⟨⟨key, item.subscriberId.toInt, data⟩, hkey, rfl, hdata⟩

/-- What can be encoded can be received if its texts are UTF-8. -/
theorem exists_sameNode_iff {sent : Cpp.PublishedDataChangeNode Cpp.PublishedDataValue}
    (h : (Cpp.marshalPublishedDataChangeNode sent).isSome) :
    (∃ received, SameNode sent received) ↔ IsUtf8 sent := by
  have hitems (item) (hitem : item ∈ sent.datas) :
      (Cpp.marshalPublishedDataItem item).isSome = true := by
    unfold Cpp.marshalPublishedDataChangeNode at h
    split at h
    · rw [Option.isSome_map] at h
      exact isSome_mapM_iff.mp h item hitem
    · exact absurd h Bool.false_ne_true
  unfold IsUtf8
  rw [← exists_utf8Bytes_iff]
  have hdatas : (∃ datas, List.Forall₂ SameItem sent.datas datas) ↔ ∀ item ∈ sent.datas,
      (fromUtf8 item.key).isSome ∧ ∀ val, item.data = .string val → (fromUtf8 val).isSome = true :=
    exists_forall₂_iff.trans (forall₂_congr fun item hitem => exists_sameItem_iff (hitems item hitem))
  rw [← hdatas]
  constructor
  · rintro ⟨received, hsame⟩
    exact ⟨⟨_, hsame.ownerBundleName⟩, _, hsame.datas⟩
  · rintro ⟨⟨ownerBundleName, howner⟩, datas, hsame⟩
    exact ⟨⟨ownerBundleName, datas⟩, howner, hsame⟩

/-- The stub for proxy data is right only about messages without a token, the stub for published data
about those too, and about the encoded messages whose texts are UTF-8. -/
theorem observerStubs_exact_iff (code : UInt32) (message : σ) :
    (DeliversExactly (CarriesChanges message) (List.Forall₂ SameChange) code
        (ProxyDataObserverStub.onRemoteRequest ⟨true⟩ code message) ↔
      (readInterfaceToken.run message).1 = none) ∧
    (DeliversExactly (CarriesNode message) SameNode code
        (PublishedDataObserverStub.onRemoteRequest ⟨true⟩ code message) ↔
      (code = 0 → ∀ sent, CarriesNode message sent → IsUtf8 sent) ∧
      ((code ≠ 0 ∨ ∀ sent, ¬ CarriesNode message sent) →
        (readInterfaceToken.run message).1 = none)) := by
  constructor
  · have htoken (sent) (h : CarriesChanges message sent) := h.isSome_token
    refine (deliversExactly_iff total_readChanges htoken code).trans ⟨fun h => ?_,
      fun hnone => ⟨fun _ sent hsent => ?_, fun _ => hnone⟩⟩
    · refine h.2 (or_iff_not_imp_left.mpr fun hcode sent hsent => ?_)
      obtain ⟨received, hreceived, hsame⟩ := h.1 (not_not.mp hcode) sent hsent
      exact not_delivered hsent hreceived hsame
    · have hsome := htoken sent hsent
      rw [hnone] at hsome
      exact absurd hsome Bool.false_ne_true
  · have htoken (sent) (h : CarriesNode message sent) := h.isSome_token
    refine (deliversExactly_iff total_readPublishedDataChangeNode htoken code).trans
      (and_congr_left' (imp_congr_right fun _ => forall₂_congr fun sent hsent => ?_))
    have hencoded : (Cpp.marshalPublishedDataChangeNode sent).isSome = true := by
      obtain ⟨fields, hfields, -⟩ := hsent
      rw [hfields]
      rfl
    rw [← exists_sameNode_iff hencoded]
    constructor
    · rintro ⟨received, -, hsame⟩
      exact ⟨received, hsame⟩
    · rintro ⟨received, hsame⟩
      exact ⟨received, run_readPublishedDataChangeNode hsame hsent, hsame⟩

/-- A request with another code. -/
theorem unknown_code_delivered :
    ¬ ∀ (code : UInt32) (message : MessageQueue),
      DeliversExactly (CarriesChanges message) (List.Forall₂ SameChange) code
        (ProxyDataObserverStub.onRemoteRequest ⟨true⟩ code message) ∧
      DeliversExactly (CarriesNode message) SameNode code
        (PublishedDataObserverStub.onRemoteRequest ⟨true⟩ code message) := by
  intro hall
  have hcalls := ((hall 7 ⟨[.interfaceToken publishedDescriptor]⟩).2.other (.inl (by decide))).2
  exact absurd hcalls (by decide +kernel)

end ObserverStub

end Rust

end DataShare
