import DataShare.CppBuffer
import DataShare.ReaderWords
import DataShare.RustPredicates

/-!
# The Rust proxy-data codec

The two messages of the data-proxy service that `service_proxy.rs` encodes and decodes by
hand : the published `DataShareProxyData`, which the Rust client only writes, and the
`DataProxyGetResult`s of a reply, which it only reads. Both are one raw buffer in a parcel,
in the format of the C++ `std::ostringstream` codecs.

No length or count is limited. The allocation that goes before a read is taken to succeed ;
when it is too large for the buffer, the read fails anyway. The loop over the results stops
at the first one it cannot read and returns those before it.

`spells_proxyGetResult` and `reads_proxyGetResult` : the words of a result are exactly the
byte strings that are read as it.
-/

namespace DataShare

namespace Rust

/-! ## The data model -/

inductive DataProxyValue
  | int (v : Int64)
  | double (v : Double)
  | string (v : String)
  | bool (v : Bool)
deriving DecidableEq

inductive DataProxyErrorCode
  | success | uriNotExist | noPermission | overLimit | innerError
deriving DecidableEq, Repr

/-- `#[repr(i32)]`. -/
def DataProxyErrorCode.toI32 : DataProxyErrorCode → Int32
  | .success => 0
  | .uriNotExist => 1
  | .noPermission => 2
  | .overLimit => 3
  | .innerError => 4

def DataProxyErrorCode.fromI32 (val : Int32) : DataProxyErrorCode :=
  if val = 0 then .success
  else if val = 1 then .uriNotExist
  else if val = 2 then .noPermission
  else if val = 3 then .overLimit
  else .innerError

structure DataShareProxyData where
  uri : String := ""
  value : DataProxyValue := .string ""
  allowList : List String := []
  isValueUndefined : Bool := false
  isAllowListUndefined : Bool := false
deriving DecidableEq

structure DataProxyGetResult where
  uri : String
  result : DataProxyErrorCode
  value : DataProxyValue
  allowList : List String
deriving DecidableEq

/-! ## Writing -/

def bufWriteUsize (val : ℕ) : List UInt8 :=
  sizeBytes val

def bufWriteI64 (val : Int64) : List UInt8 :=
  basicBytes val

def bufWriteF64 (val : Double) : List UInt8 :=
  basicBytes val

def bufWriteBool (val : Bool) : List UInt8 :=
  [if val then 1 else 0]

def bufWriteString (s : String) : List UInt8 :=
  bufWriteUsize (utf8Bytes s).length ++ utf8Bytes s

def bufWriteStringVec (vec : List String) : List UInt8 :=
  bufWriteUsize vec.length ++ vec.flatMap bufWriteString

def bufWriteProxyValue : DataProxyValue → List UInt8
  | .int v => bufWriteUsize 0 ++ bufWriteI64 v
  | .double v => bufWriteUsize 1 ++ bufWriteF64 v
  | .string v => bufWriteUsize 2 ++ bufWriteString v
  | .bool v => bufWriteUsize 3 ++ bufWriteBool v

/-- The two flags are written first, then the fields they do not declare undefined. -/
def bufWriteProxyData (data : DataShareProxyData) : List UInt8 :=
  bufWriteString data.uri ++
    (bufWriteBool data.isValueUndefined ++
      (bufWriteBool data.isAllowListUndefined ++
        ((if data.isValueUndefined then [] else bufWriteProxyValue data.value) ++
          (if data.isAllowListUndefined then [] else bufWriteStringVec data.allowList))))

/-- The local `blob` of `write_proxy_data_vec_to_parcel`. -/
def proxyDataVecBlob (items : List DataShareProxyData) : List UInt8 :=
  bufWriteUsize items.length ++ items.flatMap bufWriteProxyData

/-- What is appended to the parcel, whose own writes are taken to succeed. -/
def writeProxyDataVecToParcel (items : List DataShareProxyData) : Cpp.MessageParcel :=
  [.int32 (Int32.ofNat (proxyDataVecBlob items).length), .rawData (proxyDataVecBlob items)]

/-! ## Reading -/

instance : ExactFeed Cursor where
  take_exact n bs w s h := by
    change (if n ≤ bs.length then (some (bs.take n), (⟨bs.drop n⟩ : Cursor))
      else (none, ⟨[]⟩)) = (some w, s) at h
    split at h
    · next hn =>
      obtain ⟨rfl, rfl⟩ : bs.take n = w ∧ (⟨bs.drop n⟩ : Cursor) = s := by simpa using h
      exact ⟨by simpa using hn, bs.drop n, (List.take_append_drop n bs).symm, rfl⟩
    · simp at h

def bufReadUsize : Reader Cursor ℕ :=
  readSize Cursor

def bufReadI32 : Reader Cursor Int32 :=
  readBasic Cursor Int32

def bufReadI64 : Reader Cursor Int64 :=
  readBasic Cursor Int64

def bufReadF64 : Reader Cursor Double :=
  readBasic Cursor Double

/-- `buf[0] != 0`. -/
def bufReadBool : Reader Cursor Bool :=
  readBasic Cursor Bool

def bufReadString : Reader Cursor String := do
  let len ← bufReadUsize
  let buf ← Cursor.readExact len
  Reader.ofOption (fromUtf8 buf)

def bufReadStringVec : Reader Cursor (List String) := do
  let count ← bufReadUsize
  bufReadString.readN count

def bufReadProxyValue : Reader Cursor DataProxyValue := do
  let typeIndex ← bufReadUsize
  if typeIndex = 0 then do
    let v ← bufReadI64
    pure (.int v)
  else if typeIndex = 1 then do
    let v ← bufReadF64
    pure (.double v)
  else if typeIndex = 2 then do
    let v ← bufReadString
    pure (.string v)
  else if typeIndex = 3 then do
    let v ← bufReadBool
    pure (.bool v)
  else Reader.fail

def bufReadProxyGetResult : Reader Cursor DataProxyGetResult := do
  let uri ← bufReadString
  let resultCode ← bufReadI32
  let value ← bufReadProxyValue
  let allowList ← bufReadStringVec
  pure ⟨uri, .fromI32 resultCode, value, allowList⟩

/-- The part of `read_proxy_get_result_vec_from_parcel` that reads the raw bytes. -/
def readProxyGetResultVec (raw : List UInt8) : List DataProxyGetResult :=
  match bufReadUsize.run ⟨raw⟩ with
  | (some count, cursor) => bufReadProxyGetResult.collect count cursor
  | (none, _) => []

/-- What `read_proxy_get_result_vec_from_parcel` takes out of the parcel. The second length, which
`WriteRawData` has written, is read and not looked at. -/
def readRaw : Reader Cursor (List UInt8) := do
  let blobLen ← readBasic Cursor Int32
  if blobLen ≤ 0 then Reader.fail
  else do
    let _blobLen2 ← readBasic Cursor Int32
    Cursor.readExact blobLen.toInt.toNat

/-- The raw bytes of a parcel, of which these are the bytes. -/
def rawOf (parcel : List UInt8) : Option (List UInt8) :=
  (readRaw.run ⟨parcel⟩).1

def readProxyGetResultVecFromParcel (parcel : List UInt8) : List DataProxyGetResult :=
  match rawOf parcel with
  | some raw => readProxyGetResultVec raw
  | none => []

/-! ## The words of a result -/

/-- A boolean is any byte that is zero or not. -/
def DataProxyValue.Word (value : DataProxyValue) (w : List UInt8) : Prop :=
  match value with
  | .bool v => ∃ byte : UInt8, v = (byte != 0) ∧ w = bufWriteUsize 3 ++ [byte]
  | value => w = bufWriteProxyValue value

/-- A code is any of the words it is made of. -/
def DataProxyGetResult.Word (result : DataProxyGetResult) (w : List UInt8) : Prop :=
  ∃ code value, .fromI32 code = result.result ∧ result.value.Word value ∧
    w = bufWriteString result.uri ++ (basicBytes code ++
      (value ++ bufWriteStringVec result.allowList))

theorem ofBasicBytes_bool (byte : UInt8) : (ofBasicBytes [byte] : Bool) = (byte != 0) := by
  have hnat : leNat [byte] = byte.toNat := by simp [leNat]
  rw [Bool.eq_iff_iff]
  change (leNat [byte] != 0) = true ↔ (byte != 0) = true
  simp [hnat, ← UInt8.toNat_inj]

theorem spells_bufString : Spells bufReadString fun s w => w = bufWriteString s := by
  refine spells_size.bind ?_
  rintro len _ ⟨-, rfl⟩
  refine (spells_take len).bind ?_
  rintro buf _ ⟨rfl, rfl⟩
  refine Spells.ofOption fun s hs => ?_
  rw [bufWriteString, utf8Bytes_of_fromUtf8 hs, List.append_nil, bufWriteUsize]

theorem spells_bufStringVec : Spells bufReadStringVec fun vec w => w = bufWriteStringVec vec := by
  refine spells_size.bind ?_
  rintro count _ ⟨-, rfl⟩
  refine (spells_bufString.readN count).mono ?_
  rintro vec _ ⟨rfl, ws, hws, rfl⟩
  rw [bufWriteStringVec, flatten_of_forall₂ hws, bufWriteUsize]

theorem spells_proxyValue : Spells bufReadProxyValue DataProxyValue.Word := by
  refine spells_size.bind ?_
  rintro typeIndex _ ⟨-, rfl⟩
  refine Spells.ite (fun h => spells_word.bind ?_) fun _ =>
    Spells.ite (fun h => spells_word.bind ?_) fun _ =>
      Spells.ite (fun h => spells_bufString.bind ?_) fun _ =>
        Spells.ite (fun h => spells_basic.bind ?_) fun _ => Spells.fail _
  · rintro v _ rfl
    refine Spells.pure ?_
    simp [DataProxyValue.Word, bufWriteProxyValue, bufWriteI64, bufWriteUsize, h]
  · rintro v _ rfl
    refine Spells.pure ?_
    simp [DataProxyValue.Word, bufWriteProxyValue, bufWriteF64, bufWriteUsize, h]
  · rintro v _ rfl
    refine Spells.pure ?_
    simp [DataProxyValue.Word, bufWriteProxyValue, bufWriteUsize, h]
  · rintro v w ⟨hlen, rfl⟩
    obtain ⟨byte, rfl⟩ := List.length_eq_one_iff.mp hlen
    exact Spells.pure ⟨byte, ofBasicBytes_bool byte, by simp [bufWriteUsize, h]⟩

theorem spells_proxyGetResult : Spells bufReadProxyGetResult DataProxyGetResult.Word := by
  refine spells_bufString.bind ?_
  rintro uri _ rfl
  refine spells_word.bind ?_
  rintro code _ rfl
  refine spells_proxyValue.bind ?_
  rintro value w hvalue
  refine spells_bufStringVec.bind ?_
  rintro allowList _ rfl
  exact Spells.pure ⟨code, w, rfl, hvalue, by simp⟩

theorem reads_bufString {s : String} (h : (bufWriteString s).length < 2 ^ 64) :
    Reads bufReadString (bufWriteString s) s := by
  have hlen : (utf8Bytes s).length < 2 ^ 64 := by
    simp [bufWriteString, bufWriteUsize] at h
    omega
  have hbuf : Reads (Cursor.readExact (utf8Bytes s).length) (utf8Bytes s) (utf8Bytes s) :=
    ByteFeed.run_take _
  refine (reads_size hlen).bind ?_
  intro rest
  rw [Reader.run_bind_of_some (hbuf rest), fromUtf8_utf8Bytes]
  rfl

theorem reads_bufStringVec {vec : List String} (h : (bufWriteStringVec vec).length < 2 ^ 64) :
    Reads bufReadStringVec (bufWriteStringVec vec) vec := by
  have hpos : ∀ s ∈ vec, 0 < (bufWriteString s).length := by
    intro s _
    simp [bufWriteString, bufWriteUsize]
  obtain ⟨hcount, helem⟩ := bounds_of_vecBytes hpos
  have hread := reads_vec (hcount.trans_lt h) fun s hs => reads_bufString ((helem s hs).trans_lt h)
  rwa [List.map_id'] at hread

theorem reads_proxyValue {value : DataProxyValue} {w : List UInt8} (hw : value.Word w)
    (h : w.length < 2 ^ 64) : Reads bufReadProxyValue w value := by
  cases value with
  | int v =>
    obtain rfl : w = bufWriteUsize 0 ++ bufWriteI64 v := hw
    exact (reads_size (by decide)).bind (reads_basic v).bind_pure
  | double v =>
    obtain rfl : w = bufWriteUsize 1 ++ bufWriteF64 v := hw
    exact (reads_size (by decide)).bind (reads_basic v).bind_pure
  | string v =>
    obtain rfl : w = bufWriteUsize 2 ++ bufWriteString v := hw
    rw [List.length_append] at h
    exact (reads_size (by decide)).bind (reads_bufString (by omega)).bind_pure
  | bool v =>
    obtain ⟨byte, hv, rfl⟩ := hw
    have hbyte : Reads bufReadBool [byte] v := by
      rw [hv, ← ofBasicBytes_bool]
      exact reads_basic_of_length rfl
    exact (reads_size (by decide)).bind hbyte.bind_pure

theorem reads_proxyGetResult {result : DataProxyGetResult} {w : List UInt8} (hw : result.Word w)
    (h : w.length < 2 ^ 64) : Reads bufReadProxyGetResult w result := by
  obtain ⟨uri, result, value, allowList⟩ := result
  obtain ⟨code, w, rfl, hvalue, rfl⟩ := hw
  simp only [List.length_append] at h
  have huri : Reads bufReadString (bufWriteString uri) uri := reads_bufString (by omega)
  have hval := reads_proxyValue hvalue (by omega)
  have hallow : Reads bufReadStringVec (bufWriteStringVec allowList) allowList :=
    reads_bufStringVec (by omega)
  exact huri.bind ((reads_basic code).bind (hval.bind hallow.bind_pure))

theorem reads_proxyGetResult_words {results : List DataProxyGetResult} {words : List (List UInt8)}
    (hw : List.Forall₂ DataProxyGetResult.Word results words) (h : words.flatten.length < 2 ^ 64) :
    List.Forall₂ (fun result w => Reads bufReadProxyGetResult w result) results words := by
  induction hw with
  | nil => exact .nil
  | cons hr _ ih =>
    rw [List.flatten_cons, List.length_append] at h
    exact .cons (reads_proxyGetResult hr (by omega)) (ih (by omega))

end Rust

end DataShare
