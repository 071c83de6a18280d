import DataShare.ByteCodec

/-!
# The C++ raw-buffer primitives

`datashare_itypes_utils.cpp` writes messages larger than a parcel to a
`std::ostringstream` and reads them back from a `std::istringstream`. A marshaller
is the list of bytes it appends; its `oss.good()` never fails on a memory stream.
An unmarshaller is a `Reader` over `IStream`, the stream with its `good()` flag. A
short read clears the flag and makes every later read fail, while an exceeded limit
returns `false` and leaves the stream good.

`size_t` is the 64-bit `UInt64`, a `double` is its bit pattern, and `std::string` is
its bytes.

Assumptions on `MessageParcel` of the IPC library :

* order : values are read in the order they were written ;
* raw data : `WriteRawData` takes any buffer of at most `MAX_IPC_SIZE` bytes, and `ReadRawData` of its
  length gives it back ; of another length, or where there is none, it gives `nullptr`.
-/

namespace DataShare

namespace Cpp

/-- `std::string`. -/
abbrev StdString := List UInt8

instance : LawfulBEq StdString :=
  List.instLawfulBEq

/-- `MAX_IPC_SIZE` : the largest raw buffer, 128 MB. -/
def maxIpcSize : ℕ := 128 * 1024 * 1024

theorem maxIpcSize_lt : maxIpcSize < 2 ^ 64 := by decide

/-! ## Writing -/

section Marshal

variable {α : Type} [BasicType α]

def marshalBasicTypeToBuffer (value : α) : List UInt8 :=
  basicBytes value

/-- The element count every container is prefixed with. -/
def marshalSizeToBuffer (size : ℕ) : List UInt8 :=
  sizeBytes size

def marshalStringToBuffer (value : StdString) : List UInt8 :=
  stringBytes value

/-- The loop shared by the `...VecToBuffer` marshallers : the count, then every element. -/
def marshalVecToBuffer {ι : Type} (marshal : ι → List UInt8) (values : List ι) : List UInt8 :=
  vecBytes marshal values

def marshalBasicTypeVecToBuffer (values : List α) : List UInt8 :=
  marshalVecToBuffer marshalBasicTypeToBuffer values

def marshalStringVecToBuffer (values : List StdString) : List UInt8 :=
  marshalVecToBuffer marshalStringToBuffer values

@[simp] theorem length_marshalBasicTypeToBuffer (value : α) :
    (marshalBasicTypeToBuffer value).length = BasicType.size α :=
  length_basicBytes value

@[simp] theorem length_marshalSizeToBuffer (size : ℕ) : (marshalSizeToBuffer size).length = 8 :=
  length_sizeBytes size

@[simp] theorem length_marshalStringToBuffer (value : StdString) :
    (marshalStringToBuffer value).length = 8 + value.length :=
  length_stringBytes value

theorem length_marshalVecToBuffer {ι : Type} (marshal : ι → List UInt8) (values : List ι) :
    (marshalVecToBuffer marshal values).length = 8 + (values.flatMap marshal).length :=
  length_vecBytes marshal values

theorem length_marshalBasicTypeVecToBuffer (values : List α) :
    (marshalBasicTypeVecToBuffer values).length = 8 + values.length * BasicType.size α := by
  rw [marshalBasicTypeVecToBuffer, length_marshalVecToBuffer, List.length_flatMap,
    List.map_congr_left fun x _ => length_marshalBasicTypeToBuffer x, List.map_const',
    List.sum_replicate_nat]

end Marshal

/-! ## Reading -/

/-- `std::istringstream` : the unread bytes and `good()`. -/
structure IStream where
  rest : List UInt8
  good : Bool

/-- `iss.read(p, n)` followed by `iss.good()`. A short read consumes what is left and
sets `failbit`. -/
def IStream.read (n : ℕ) : Reader IStream (List UInt8) where
  run s :=
    if s.good then
      if n ≤ s.rest.length then (some (s.rest.take n), ⟨s.rest.drop n, true⟩)
      else (none, ⟨[], false⟩)
    else (none, s)

/-- `return iss.good()`. -/
def IStream.checkGood : Reader IStream Unit where
  run s := (if s.good then some () else none, s)

instance : ByteFeed IStream where
  feed bs := ⟨bs, true⟩
  take := IStream.read
  run_take bs rest := by simp [IStream.read]

theorem IStream.feed_eq (bs : List UInt8) : (ByteFeed.feed bs : IStream) = ⟨bs, true⟩ :=
  rfl

section Unmarshal

def unmarshalBasicTypeToBuffer (α : Type) [BasicType α] : Reader IStream α :=
  readBasic IStream α

def unmarshalSizeToBuffer : Reader IStream ℕ :=
  readSize IStream

/-- The source reads the elements with one `iss.read` of `valSize * sizeof(T)` bytes. -/
def unmarshalBasicTypeVecToBuffer (α : Type) [BasicType α] : Reader IStream (List α) :=
  readBoundedVec (maxIpcSize / BasicType.size α) (unmarshalBasicTypeToBuffer α)

def unmarshalStringToBuffer : Reader IStream StdString :=
  readBytes IStream maxIpcSize

/-- The loop shared by the `...VecToBuffer` unmarshallers. -/
def unmarshalVecToBuffer {β : Type} (unmarshal : Reader IStream β) : Reader IStream (List β) :=
  readVec unmarshal

def unmarshalStringVecToBuffer : Reader IStream (List StdString) :=
  unmarshalVecToBuffer unmarshalStringToBuffer

/-- The same loop where the source first compares the count with a limit. -/
def unmarshalBoundedVec {β : Type} (limit : ℕ) (unmarshal : Reader IStream β) :
    Reader IStream (List β) :=
  readBoundedVec limit unmarshal

end Unmarshal

/-! ## Raw buffers in a parcel -/

/-- What a parcel holds, in the order it was written. -/
inductive ParcelItem
  | int32 (val : Int32)
  | rawData (bytes : List UInt8)
deriving DecidableEq, Repr

/-- `MessageParcel` : a queue of typed values, oldest first. -/
abbrev MessageParcel := List ParcelItem

/-- The bytes of a parcel. `WriteRawData` puts the length before the bytes, as
`read_proxy_get_result_vec_from_parcel` has it. -/
def MessageParcel.bytes (parcel : MessageParcel) : List UInt8 :=
  parcel.flatMap fun item =>
    match item with
    | .int32 val => basicBytes val
    | .rawData bytes => basicBytes (Int32.ofNat bytes.length) ++ bytes

/-- `ReadInt32`, which gives `0` when the next value is no `int32_t`. -/
def MessageParcel.readInt32 : Reader MessageParcel Int32 where
  run
    | .int32 val :: parcel => (some val, parcel)
    | parcel => (some 0, parcel)

/-- `ReadRawData`, which gives `nullptr` when there is no buffer of that length. -/
def MessageParcel.readRawData (length : ℕ) : Reader MessageParcel (List UInt8) where
  run
    | .rawData bytes :: parcel =>
      if bytes.length = length then (some bytes, parcel) else (none, .rawData bytes :: parcel)
    | parcel => (none, parcel)

/-- The part shared by the `Marshal...Vec` functions : what is appended to the parcel for
an encoding, if its size is accepted. -/
def marshalRawBuffer (str : List UInt8) : Option MessageParcel :=
  if str.length > maxIpcSize then none
  else some [.int32 (Int32.ofNat str.length), .rawData str]

/-- The part shared by the `Unmarshal...Vec` functions. -/
def unmarshalRawBuffer {α : Type} (unmarshal : Reader IStream α) : Reader MessageParcel α := do
  let length ← MessageParcel.readInt32
  if length < 1 then Reader.fail
  else if length.toInt > maxIpcSize then Reader.fail
  else do
    let buffer ← MessageParcel.readRawData length.toInt.toNat
    Reader.ofOption (unmarshal.run ⟨buffer, true⟩).1

/-- A buffer that was accepted is handed to the decoder whole, and only that is read. -/
theorem unmarshalRawBuffer_of_marshalRawBuffer {α : Type} (unmarshal : Reader IStream α)
    {str : List UInt8} {parcel : MessageParcel} (h : marshalRawBuffer str = some parcel)
    (hpos : 0 < str.length) (rest : MessageParcel) :
    (unmarshalRawBuffer unmarshal).run (parcel ++ rest) =
      ((unmarshal.run ⟨str, true⟩).1, rest) := by
  rw [marshalRawBuffer] at h
  split at h
  · cases h
  · next hsize =>
    cases h
    have hint : (Int32.ofNat str.length).toInt = str.length :=
      Int32.toInt_ofNat_of_lt (lt_of_le_of_lt (not_lt.mp hsize) (by decide))
    have hlt : ¬Int32.ofNat str.length < 1 := by
      rw [Int32.lt_iff_toInt_lt, hint, show (1 : Int32).toInt = 1 from rfl]
      omega
    have hmax : ¬(Int32.ofNat str.length).toInt > maxIpcSize := by
      rw [hint]
      omega
    have hlength : MessageParcel.readInt32.run
        (.int32 (Int32.ofNat str.length) :: .rawData str :: rest) =
          (some (Int32.ofNat str.length), .rawData str :: rest) := rfl
    have hbuffer : (MessageParcel.readRawData (Int32.ofNat str.length).toInt.toNat).run
        (.rawData str :: rest) = (some str, rest) := by
      simp [MessageParcel.readRawData, hint]
    simp only [unmarshalRawBuffer, List.cons_append, List.nil_append]
    rw [Reader.run_bind_of_some hlength, if_neg hlt, if_neg hmax, Reader.run_bind_of_some hbuffer]
    rfl

theorem length_le_of_marshalRawBuffer {str : List UInt8} {parcel : MessageParcel}
    (h : marshalRawBuffer str = some parcel) : str.length ≤ maxIpcSize := by
  rw [marshalRawBuffer] at h
  split at h
  · cases h
  · omega

/-! ## What is written is read back

The bounds come from the length of the whole encoding : what fits into one raw buffer has
only parts that fit. -/

section RoundTrip

variable {α : Type} [BasicType α]

/-- A reader that ends with `return iss.good()`. -/
theorem reads_bind_checkGood {β γ : Type} {p : Reader IStream β} {g : β → γ} {bs : List UInt8}
    {b : β} (hp : Reads p bs b) :
    Reads (do let x ← p; IStream.checkGood; pure (g x)) bs (g b) := by
  intro rest
  rw [Reader.run_bind_of_some (hp rest)]
  rfl

theorem reads_basicType (value : α) :
    Reads (unmarshalBasicTypeToBuffer α) (marshalBasicTypeToBuffer value) value :=
  reads_basic value

theorem reads_string (value : StdString)
    (h : (marshalStringToBuffer value).length ≤ maxIpcSize) :
    Reads unmarshalStringToBuffer (marshalStringToBuffer value) value := by
  rw [length_marshalStringToBuffer] at h
  have hmax := maxIpcSize_lt
  exact reads_bytes (by omega) (by omega)

theorem reads_basicTypeVec {values : List α} (hpos : 0 < BasicType.size α)
    (h : (marshalBasicTypeVecToBuffer values).length ≤ maxIpcSize) :
    Reads (unmarshalBasicTypeVecToBuffer α) (marshalBasicTypeVecToBuffer values) values := by
  rw [length_marshalBasicTypeVecToBuffer] at h
  have hlimit : values.length ≤ maxIpcSize / BasicType.size α :=
    (Nat.le_div_iff_mul_le hpos).mpr (by omega)
  have hlen : values.length < 2 ^ 64 :=
    (hlimit.trans (Nat.div_le_self _ _)).trans_lt maxIpcSize_lt
  have hread := reads_boundedVec (σ := IStream) hlimit hlen fun x _ => reads_basicType x
  rwa [List.map_id'] at hread

/-- The elements of a container that fits, and their number. -/
theorem fits_of_marshalVecToBuffer {ι : Type} {marshal : ι → List UInt8} {l : List ι}
    (hpos : ∀ x, 0 < (marshal x).length)
    (h : (marshalVecToBuffer marshal l).length ≤ maxIpcSize) :
    l.length < 2 ^ 64 ∧ ∀ x ∈ l, (marshal x).length ≤ maxIpcSize := by
  obtain ⟨hcount, helem⟩ := bounds_of_vecBytes (l := l) fun x _ => hpos x
  exact ⟨(hcount.trans h).trans_lt maxIpcSize_lt, fun x hx => (helem x hx).trans h⟩

theorem reads_vec_of_fits {ι : Type} {marshal : ι → List UInt8} {unmarshal : Reader IStream ι}
    {l : List ι} (hpos : ∀ x, 0 < (marshal x).length)
    (hread : ∀ x, (marshal x).length ≤ maxIpcSize → Reads unmarshal (marshal x) x)
    (h : (marshalVecToBuffer marshal l).length ≤ maxIpcSize) :
    Reads (unmarshalVecToBuffer unmarshal) (marshalVecToBuffer marshal l) l := by
  obtain ⟨hlen, hfits⟩ := fits_of_marshalVecToBuffer hpos h
  have hvec := reads_vec hlen fun x hx => hread x (hfits x hx)
  rwa [List.map_id'] at hvec

theorem reads_stringVec (values : List StdString)
    (h : (marshalStringVecToBuffer values).length ≤ maxIpcSize) :
    Reads unmarshalStringVecToBuffer (marshalStringVecToBuffer values) values :=
  reads_vec_of_fits (fun _ => by simp) reads_string h

end RoundTrip

end Cpp

end DataShare
