import DataShare.CppProxyData
import DataShare.CppValuesBucket

/-!
# The C++ codecs of single parcel fields

Beside the codecs of raw buffers, `datashare_itypes_utils.cpp` has codecs that write the same types
field by field. A parcel is a queue of bytes : a scalar is written with its width and read with the
width the reader asks for, and a text or a vector is behind its length, an `int32_t`.

Assumptions on `MessageParcel` of the IPC library :

* order : reads give back the bytes of the writes, oldest first, whatever type they were written with ;
* width : a scalar takes the bytes of its type, a `bool` those of an `int32_t`, without padding ;
* length : a text or a vector whose length is no `int32_t` is refused, everything else is taken ;
* end : a read of more bytes than there are fails and takes none.

`lossless_iff` says what comes back. The tag of a `DataShareValueObject` is written with eight bytes
and read with four, so no value object does. What is not written of a `DataShareProxyData` or of a
`DataProxyChangeInfo` comes back as its default.
-/

namespace DataShare

namespace Cpp

/-- The unread bytes of a `MessageParcel`. -/
structure ParcelQueue where
  unread : List UInt8
deriving DecidableEq

instance : ByteFeed ParcelQueue where
  feed bs := ⟨bs⟩
  take n := ⟨fun s =>
    if n ≤ s.unread.length then (some (s.unread.take n), ⟨s.unread.drop n⟩) else (none, s)⟩
  run_take bs rest := by simp

namespace ITypesUtil

/-! ## Writing -/

/-- `Marshal` of its arguments, one after the other. It stops at one that is refused. -/
def marshal : List (Option (List UInt8)) → Option (List UInt8)
  | [] => some []
  | field :: fields => do
    let bytes ← field
    let rest ← marshal fields
    pure (bytes ++ rest)

def marshalBasic {α : Type} [BasicType α] (value : α) : Option (List UInt8) :=
  some (basicBytes value)

/-- `WriteBool` writes an `int32_t`. -/
def marshalBool (value : Bool) : Option (List UInt8) :=
  marshalBasic (if value then 1 else 0 : Int32)

/-- A length, which is an `int32_t`. -/
def marshalLength (length : ℕ) : Option (List UInt8) :=
  if length < 2 ^ 31 then marshalBasic (Int32.ofNat length) else none

def marshalString (value : StdString) : Option (List UInt8) :=
  marshal [marshalLength value.length, some value]

def marshalVector {α : Type} (marshalling : α → Option (List UInt8)) (values : List α) :
    Option (List UInt8) :=
  marshal (marshalLength values.length :: values.map marshalling)

def marshalValueObject (value : ValueObject) : Option (List UInt8) :=
  marshal [marshalBasic (UInt64.ofNat value.index.toNat),
    match value with
    | .int val => marshalBasic val
    | .double val => marshalBasic val
    | .string val => marshalString val
    | .bool val => marshalBool val
    | _ => none]

def marshalDataProxyValue (value : DataProxyValue) : Option (List UInt8) :=
  marshal [marshalBasic (Int32.ofNat value.index),
    match value with
    | .int val => marshalBasic val
    | .double val => marshalBasic val
    | .string val => marshalString val
    | .bool val => marshalBool val]

def marshalProxyData (proxyData : DataShareProxyData) : Option (List UInt8) :=
  marshal [marshalString proxyData.uri, marshalDataProxyValue proxyData.value,
    marshalBool proxyData.isValueUndefined, marshalVector marshalString proxyData.allowList,
    marshalBool proxyData.isAllowListUndefined]

def marshalProxyGetResult (result : DataProxyGetResult) : Option (List UInt8) :=
  marshal [marshalBasic result.result, marshalString result.uri,
    marshalDataProxyValue result.value, marshalVector marshalString result.allowList,
    marshalVector marshalDataProxyValue result.multiValues]

def marshalChangeInfo (changeInfo : DataProxyChangeInfo) : Option (List UInt8) :=
  marshal [marshalBasic changeInfo.changeType, marshalString changeInfo.uri,
    marshalDataProxyValue changeInfo.value,
    marshalVector marshalDataProxyValue changeInfo.multiValues]

/-! ## Reading -/

def unmarshalBasic (α : Type) [BasicType α] : Reader ParcelQueue α :=
  readBasic ParcelQueue α

def unmarshalBool : Reader ParcelQueue Bool := do
  let value ← unmarshalBasic Int32
  pure (value != 0)

def unmarshalLength : Reader ParcelQueue ℕ := do
  let length ← unmarshalBasic Int32
  if length < 0 then Reader.fail else pure length.toInt.toNat

def unmarshalString : Reader ParcelQueue StdString := do
  let length ← unmarshalLength
  ByteFeed.take length

def unmarshalVector {α : Type} (unmarshalling : Reader ParcelQueue α) :
    Reader ParcelQueue (List α) := do
  let length ← unmarshalLength
  unmarshalling.readN length

def unmarshalValueObject : Reader ParcelQueue ValueObject := do
  let index ← unmarshalBasic Int32
  match index.toInt with
  | 1 => do
    let val ← unmarshalBasic Int64
    pure (.int val)
  | 2 => do
    let val ← unmarshalBasic Double
    pure (.double val)
  | 3 => do
    let val ← unmarshalString
    pure (.string val)
  | 4 => do
    let val ← unmarshalBool
    pure (.bool val)
  | _ => Reader.fail

def unmarshalDataProxyValue : Reader ParcelQueue DataProxyValue := do
  let index ← unmarshalBasic Int32
  match index.toInt with
  | 0 => do
    let val ← unmarshalBasic Int64
    pure (.int val)
  | 1 => do
    let val ← unmarshalBasic Double
    pure (.double val)
  | 2 => do
    let val ← unmarshalString
    pure (.string val)
  | 3 => do
    let val ← unmarshalBool
    pure (.bool val)
  | _ => Reader.fail

/-- `Unmarshalling` into a `DataShareProxyData` as it is constructed. -/
def unmarshalProxyData : Reader ParcelQueue DataShareProxyData := do
  let uri ← unmarshalString
  let value ← unmarshalDataProxyValue
  let isValueUndefined ← unmarshalBool
  let allowList ← unmarshalVector unmarshalString
  let isAllowListUndefined ← unmarshalBool
  pure { uri, value, allowList, isValueUndefined, isAllowListUndefined }

def unmarshalProxyGetResult : Reader ParcelQueue DataProxyGetResult := do
  let result ← unmarshalBasic UInt32
  let uri ← unmarshalString
  let value ← unmarshalDataProxyValue
  let allowList ← unmarshalVector unmarshalString
  let multiValues ← unmarshalVector unmarshalDataProxyValue
  pure { uri, result, value, allowList, multiValues }

/-- `Unmarshalling` into a `DataProxyChangeInfo` as it is constructed. -/
def unmarshalChangeInfo : Reader ParcelQueue DataProxyChangeInfo := do
  let changeType ← unmarshalBasic UInt32
  let uri ← unmarshalString
  let value ← unmarshalDataProxyValue
  let multiValues ← unmarshalVector unmarshalDataProxyValue
  pure { changeType, uri, value, isMultiValues := false, multiValues }

/-! ## What comes back -/

/-- What is written of `a` is read as `a`, up to its last byte. -/
def Lossless {α : Type} (marshalling : α → Option (List UInt8))
    (unmarshalling : Reader ParcelQueue α) (a : α) : Prop :=
  ∃ bytes, marshalling a = some bytes ∧ Reads unmarshalling bytes a

/-- If the fields fit into a parcel they are written and read as `a`, and otherwise refused. -/
structure Carries {α : Type} (bytes : Option (List UInt8)) (p : Reader ParcelQueue α) (fits : Prop)
    (a : α) : Prop where
  read : fits → ∃ bs, bytes = some bs ∧ Reads p bs a
  refused : ¬fits → bytes = none

section Carries

variable {α β ι : Type}

theorem Carries.basic [BasicType α] (a : α) :
    Carries (marshalBasic a) (unmarshalBasic α) True a where
  read _ := ⟨_, rfl, reads_basic a⟩
  refused h := absurd trivial h

theorem Carries.pure (a : α) : Carries (marshal []) (Pure.pure a) True a where
  read _ := ⟨[], rfl, Reads.pure a⟩
  refused h := absurd trivial h

theorem Carries.congr {bytes : Option (List UInt8)} {p : Reader ParcelQueue α} {fits fits' : Prop}
    {a : α} (h : Carries bytes p fits a) (hfits : fits ↔ fits') : Carries bytes p fits' a where
  read hf := h.read (hfits.mpr hf)
  refused hf := h.refused fun hfits' => hf (hfits.mp hfits')

/-- Fields are carried one after the other. -/
theorem Carries.cons {field : Option (List UInt8)} {fields : List (Option (List UInt8))}
    {p : Reader ParcelQueue α} {q : α → Reader ParcelQueue β} {fits fits' : Prop} {a : α} {b : β}
    (h : Carries field p fits a) (hrest : Carries (marshal fields) (q a) fits' b) :
    Carries (marshal (field :: fields)) (p >>= q) (fits ∧ fits') b where
  read := by
    rintro ⟨hf, hf'⟩
    obtain ⟨bs, hbs, hread⟩ := h.read hf
    obtain ⟨bs', hbs', hread'⟩ := hrest.read hf'
    refine ⟨bs ++ bs', ?_, hread.bind hread'⟩
    rw [marshal, hbs, hbs']
    rfl
  refused hnot := by
    rw [marshal]
    by_cases hf : fits
    · obtain ⟨bs, hbs, -⟩ := h.read hf
      rw [hbs, hrest.refused fun hf' => hnot ⟨hf, hf'⟩]
      rfl
    · rw [h.refused hf]
      rfl

/-- A last step that only puts the value in its place. -/
theorem Carries.map {bytes : Option (List UInt8)} {p : Reader ParcelQueue α} {fits : Prop} {a : α}
    (h : Carries bytes p fits a) (g : α → β) :
    Carries bytes (p >>= fun x => Pure.pure (g x)) fits (g a) where
  read hf := by
    obtain ⟨bs, hbs, hread⟩ := h.read hf
    exact ⟨bs, hbs, hread.bind_pure⟩
  refused := h.refused

/-- A last field. -/
theorem Carries.single {bytes : Option (List UInt8)} {p : Reader ParcelQueue α} {fits : Prop} {a : α}
    (h : Carries bytes p fits a) : Carries (marshal [bytes]) p fits a where
  read hf := by
    obtain ⟨bs, hbs, hread⟩ := h.read hf
    refine ⟨bs ++ [], ?_, by rwa [List.append_nil]⟩
    rw [marshal, hbs]
    rfl
  refused hf := by
    rw [marshal, h.refused hf]
    rfl

theorem Carries.bool (a : Bool) : Carries (marshalBool a) unmarshalBool True a := by
  have h := (Carries.basic (if a then 1 else 0 : Int32)).map fun value => value != 0
  cases a <;> exact h

theorem Carries.length (n : ℕ) : Carries (marshalLength n) unmarshalLength (n < 2 ^ 31) n where
  read hn := by
    have hint : (Int32.ofNat n).toInt = n := Int32.toInt_ofNat_of_lt hn
    have hnonneg : ¬Int32.ofNat n < 0 := by
      rw [Int32.lt_iff_toInt_lt, hint]
      exact not_lt.mpr (Int.natCast_nonneg n)
    refine ⟨_, if_pos hn, fun rest => ?_⟩
    rw [unmarshalLength, unmarshalBasic, Reader.run_bind_of_some (reads_basic (Int32.ofNat n) rest),
      if_neg hnonneg, hint]
    rfl
  refused hn := if_neg hn

theorem Carries.bytes (bs : List UInt8) :
    Carries (some bs) (ByteFeed.take bs.length : Reader ParcelQueue _) True bs where
  read _ := ⟨bs, rfl, ByteFeed.run_take bs⟩
  refused h := absurd trivial h

theorem Carries.string (s : StdString) :
    Carries (marshalString s) unmarshalString (s.length < 2 ^ 31) s :=
  ((Carries.length s.length).cons (Carries.bytes s).single).congr (and_iff_left trivial)

theorem Carries.readN {marshalling : ι → Option (List UInt8)} {p : Reader ParcelQueue ι}
    {fits : ι → Prop} (h : ∀ x, Carries (marshalling x) p (fits x) x) : ∀ l : List ι,
      Carries (marshal (l.map marshalling)) (p.readN l.length) (∀ x ∈ l, fits x) l
  | [] => (Carries.pure []).congr (by simp)
  | x :: l => by
    have hl := (Carries.readN h l).map (x :: ·)
    exact ((h x).cons hl).congr (List.forall_mem_cons ..).symm

theorem Carries.vector {marshalling : ι → Option (List UInt8)} {p : Reader ParcelQueue ι}
    {fits : ι → Prop} (h : ∀ x, Carries (marshalling x) p (fits x) x) (l : List ι) :
    Carries (marshalVector marshalling l) (unmarshalVector p)
      (l.length < 2 ^ 31 ∧ ∀ x ∈ l, fits x) l :=
  (Carries.length l.length).cons (Carries.readN h l)

/-- What is carried as `b` is lossless exactly if it fits, and `b` is the value that was written. -/
theorem Carries.lossless_iff_eq {marshalling : α → Option (List UInt8)} {p : Reader ParcelQueue α}
    {fits : Prop} {a b : α} (h : Carries (marshalling a) p fits b) :
    Lossless marshalling p a ↔ fits ∧ b = a := by
  constructor
  · rintro ⟨bs, hbs, hread⟩
    have hfits : fits := by
      by_contra hnot
      rw [h.refused hnot] at hbs
      cases hbs
    obtain ⟨bs', hbs', hread'⟩ := h.read hfits
    obtain rfl := Option.some_inj.mp (hbs.symm.trans hbs')
    refine ⟨hfits, ?_⟩
    have heq := (hread' []).symm.trans (hread [])
    exact Option.some_inj.mp (Prod.ext_iff.mp heq).1
  · rintro ⟨hfits, rfl⟩
    exact h.read hfits

end Carries

/-! ## The types -/

/-- A text has an `int32_t` length. -/
def FitsString (s : StdString) : Prop :=
  s.length < 2 ^ 31

/-- A vector has an `int32_t` length, and its elements fit. -/
def FitsVector {ι : Type} (fits : ι → Prop) (l : List ι) : Prop :=
  l.length < 2 ^ 31 ∧ ∀ x ∈ l, fits x

def FitsValue (value : DataProxyValue) : Prop :=
  ∀ s, value = .string s → FitsString s

theorem Carries.dataProxyValue (value : DataProxyValue) :
    Carries (marshalDataProxyValue value) unmarshalDataProxyValue (FitsValue value) value := by
  unfold FitsValue
  cases value with
  | int val =>
    have h : Carries (marshalDataProxyValue (.int val)) unmarshalDataProxyValue (True ∧ True) _ :=
      Carries.cons (Carries.basic (0 : Int32)) ((Carries.basic val).map DataProxyValue.int).single
    exact h.congr (by simp)
  | double val =>
    have h : Carries (marshalDataProxyValue (.double val)) unmarshalDataProxyValue (True ∧ True) _ :=
      Carries.cons (Carries.basic (1 : Int32))
        ((Carries.basic val).map DataProxyValue.double).single
    exact h.congr (by simp)
  | string val =>
    have h : Carries (marshalDataProxyValue (.string val)) unmarshalDataProxyValue
        (True ∧ val.length < 2 ^ 31) _ :=
      Carries.cons (Carries.basic (2 : Int32))
        ((Carries.string val).map DataProxyValue.string).single
    exact h.congr (by simp [FitsString])
  | bool val =>
    have h : Carries (marshalDataProxyValue (.bool val)) unmarshalDataProxyValue (True ∧ True) _ :=
      Carries.cons (Carries.basic (3 : Int32)) ((Carries.bool val).map DataProxyValue.bool).single
    exact h.congr (by simp)

/-- What is written of a `DataShareProxyData`. -/
def writtenProxyData (proxyData : DataShareProxyData) : DataShareProxyData where
  uri := proxyData.uri
  value := proxyData.value
  allowList := proxyData.allowList
  isValueUndefined := proxyData.isValueUndefined
  isAllowListUndefined := proxyData.isAllowListUndefined

theorem Carries.proxyData (proxyData : DataShareProxyData) :
    Carries (marshalProxyData proxyData) unmarshalProxyData
      (FitsString proxyData.uri ∧ FitsValue proxyData.value ∧
        FitsVector FitsString proxyData.allowList) (writtenProxyData proxyData) := by
  rw [marshalProxyData, unmarshalProxyData]
  refine Carries.congr (Carries.cons (Carries.string _) (Carries.cons (Carries.dataProxyValue _)
    (Carries.cons (Carries.bool _) (Carries.cons (Carries.vector Carries.string _)
      (Carries.cons (Carries.bool _) (Carries.pure _)))))) ?_
  simp [FitsString, FitsVector]

theorem Carries.proxyGetResult (result : DataProxyGetResult) :
    Carries (marshalProxyGetResult result) unmarshalProxyGetResult
      (FitsString result.uri ∧ FitsValue result.value ∧ FitsVector FitsString result.allowList ∧
        FitsVector FitsValue result.multiValues) result := by
  rw [marshalProxyGetResult, unmarshalProxyGetResult]
  refine Carries.congr (Carries.cons (Carries.basic _) (Carries.cons (Carries.string _)
    (Carries.cons (Carries.dataProxyValue _) (Carries.cons (Carries.vector Carries.string _)
      (Carries.cons (Carries.vector Carries.dataProxyValue _) (Carries.pure _)))))) ?_
  simp [FitsString, FitsVector]

theorem Carries.changeInfo (changeInfo : DataProxyChangeInfo) :
    Carries (marshalChangeInfo changeInfo) unmarshalChangeInfo
      (FitsString changeInfo.uri ∧ FitsValue changeInfo.value ∧
        FitsVector FitsValue changeInfo.multiValues)
      { changeInfo with isMultiValues := false } := by
  rw [marshalChangeInfo, unmarshalChangeInfo]
  refine Carries.congr (Carries.cons (Carries.basic _) (Carries.cons (Carries.string _)
    (Carries.cons (Carries.dataProxyValue _)
      (Carries.cons (Carries.vector Carries.dataProxyValue _) (Carries.pure _))))) ?_
  simp [FitsString, FitsVector]

/-! ## The tag of a value object -/

/-- Something is left unread of what is written. -/
def LeavesUnread {α : Type} (p : Reader ParcelQueue α) (bytes : List UInt8) : Prop :=
  ∃ bs tail a, bytes = bs ++ tail ∧ tail ≠ [] ∧ Reads p bs a

theorem LeavesUnread.not_reads {α : Type} {p : Reader ParcelQueue α} {bytes : List UInt8}
    (h : LeavesUnread p bytes) (a : α) : ¬Reads p bytes a := by
  obtain ⟨bs, tail, b, rfl, htail, hread⟩ := h
  intro hall
  have hrun := (hread tail).symm.trans hall.run_feed
  exact htail (congrArg ParcelQueue.unread (Prod.ext_iff.mp hrun).2)

/-- The other half of the tag is read as the first half of a scalar. -/
theorem leavesUnread_scalar {α : Type} [BasicType α] (hsize : BasicType.size α = 8) {tag : Int32}
    {g : α → ValueObject} (hread : ∀ bs a, Reads (unmarshalBasic α) bs a →
      Reads unmarshalValueObject (basicBytes tag ++ bs) (g a)) (val : α) :
    LeavesUnread unmarshalValueObject
      (basicBytes tag ++ (basicBytes (0 : Int32) ++ basicBytes val)) := by
  have hlength : (basicBytes (0 : Int32) ++ basicBytes val).length = 12 := by
    rw [List.length_append, length_basicBytes, length_basicBytes, hsize]
    rfl
  obtain ⟨word, tail, hsplit, hword⟩ : ∃ word tail,
      basicBytes (0 : Int32) ++ basicBytes val = word ++ tail ∧ word.length = 8 :=
    ⟨_, _, (List.take_append_drop 8 _).symm, by rw [List.length_take, hlength]; rfl⟩
  have hscalar : Reads (unmarshalBasic α) word (ofBasicBytes word) := by
    have htake : Reads (ByteFeed.take word.length : Reader ParcelQueue _) word word :=
      ByteFeed.run_take word
    rw [hword, ← hsize] at htake
    exact htake.bind_pure
  refine ⟨basicBytes tag ++ word, tail, _, by rw [hsplit, List.append_assoc], ?_,
    hread _ _ hscalar⟩
  rintro rfl
  rw [hsplit, List.append_nil, hword] at hlength
  cases hlength

theorem marshal_wideTag (tag : ℕ) (htag : tag < 6) (bs : List UInt8) :
    marshal [marshalBasic (UInt64.ofNat tag), some bs] =
      some (basicBytes (Int32.ofNat tag) ++ (basicBytes (0 : Int32) ++ bs)) := by
  have hwide : ∀ n < 6, basicBytes (UInt64.ofNat n) =
      basicBytes (Int32.ofNat n) ++ basicBytes (0 : Int32) := by decide
  rw [← List.append_assoc, ← hwide tag htag]
  simp [marshal, marshalBasic]

/-- The tag of a value object is written with eight bytes and read with four. -/
theorem not_lossless_valueObject (value : ValueObject) :
    ¬Lossless marshalValueObject unmarshalValueObject value := by
  rintro ⟨bytes, hbytes, hread⟩
  refine LeavesUnread.not_reads ?_ value hread
  cases value with
  | null => cases hbytes
  | blob val => cases hbytes
  | int val =>
    obtain rfl := Option.some_inj.mp ((marshal_wideTag 1 (by decide) _).symm.trans hbytes)
    exact leavesUnread_scalar (g := ValueObject.int) rfl
      (fun bs a ha => (reads_basic (1 : Int32)).bind ha.bind_pure) val
  | double val =>
    obtain rfl := Option.some_inj.mp ((marshal_wideTag 2 (by decide) _).symm.trans hbytes)
    exact leavesUnread_scalar (g := ValueObject.double) rfl
      (fun bs a ha => (reads_basic (2 : Int32)).bind ha.bind_pure) val
  | string val =>
    have hfits : val.length < 2 ^ 31 := by
      by_contra hnot
      rw [marshalValueObject, (Carries.string val).refused hnot] at hbytes
      cases hbytes
    have htext : marshalString val = some (basicBytes (Int32.ofNat val.length) ++ val) := by
      rw [marshalString, marshalLength, if_pos hfits]
      simp [marshal, marshalBasic]
    rw [marshalValueObject, htext] at hbytes
    obtain rfl := Option.some_inj.mp ((marshal_wideTag 3 (by decide) _).symm.trans hbytes)
    have hempty : Reads unmarshalString (basicBytes (0 : Int32)) [] := by
      obtain ⟨bs, hbs, hempty⟩ := (Carries.string []).read (by decide)
      obtain rfl := Option.some_inj.mp hbs
      exact hempty
    refine ⟨basicBytes (3 : Int32) ++ basicBytes (0 : Int32), _, .string [],
      (List.append_assoc ..).symm, ?_, (reads_basic (3 : Int32)).bind hempty.bind_pure⟩
    exact List.append_ne_nil_of_left_ne_nil (List.cons_ne_nil _ _) val
  | bool val =>
    obtain rfl := Option.some_inj.mp ((marshal_wideTag 4 (by decide) _).symm.trans hbytes)
    have hfalse : Reads unmarshalBool (basicBytes (0 : Int32)) false :=
      (reads_basic (0 : Int32)).bind_pure
    refine ⟨basicBytes (4 : Int32) ++ basicBytes (0 : Int32), _, .bool false,
      (List.append_assoc ..).symm, ?_, (reads_basic (4 : Int32)).bind hfalse.bind_pure⟩
    cases val <;> decide

/-! ## What is lossless -/

theorem lossless_proxyData_iff (proxyData : DataShareProxyData) :
    Lossless marshalProxyData unmarshalProxyData proxyData ↔
      (FitsString proxyData.uri ∧ FitsValue proxyData.value ∧
        FitsVector FitsString proxyData.allowList) ∧
      proxyData.trustProviders = [] ∧ proxyData.multiValues = .empty ∧
        proxyData.maxValueLength = 4096 ∧ proxyData.isTrustProvidersUndefined = false ∧
          proxyData.isMultiValues = false := by
  rw [(Carries.proxyData proxyData).lossless_iff_eq]
  refine and_congr_right fun _ => ?_
  cases proxyData
  simp [writtenProxyData, eq_comm]

theorem lossless_changeInfo_iff (changeInfo : DataProxyChangeInfo) :
    Lossless marshalChangeInfo unmarshalChangeInfo changeInfo ↔
      (FitsString changeInfo.uri ∧ FitsValue changeInfo.value ∧
        FitsVector FitsValue changeInfo.multiValues) ∧ changeInfo.isMultiValues = false := by
  rw [(Carries.changeInfo changeInfo).lossless_iff_eq]
  refine and_congr_right fun _ => ?_
  cases changeInfo
  simp [eq_comm]

/-- The codecs lose nothing of values and of results that fit, and of the others exactly what they do
not write. -/
theorem lossless_iff (object : ValueObject) (value : DataProxyValue)
    (proxyData : DataShareProxyData) (result : DataProxyGetResult) (changeInfo : DataProxyChangeInfo) :
    ¬Lossless marshalValueObject unmarshalValueObject object ∧
    (Lossless marshalDataProxyValue unmarshalDataProxyValue value ↔ FitsValue value) ∧
    (Lossless marshalProxyData unmarshalProxyData proxyData ↔
      (FitsString proxyData.uri ∧ FitsValue proxyData.value ∧
        FitsVector FitsString proxyData.allowList) ∧
      proxyData.trustProviders = [] ∧ proxyData.multiValues = .empty ∧
        proxyData.maxValueLength = 4096 ∧ proxyData.isTrustProvidersUndefined = false ∧
          proxyData.isMultiValues = false) ∧
    (Lossless marshalProxyGetResult unmarshalProxyGetResult result ↔
      FitsString result.uri ∧ FitsValue result.value ∧ FitsVector FitsString result.allowList ∧
        FitsVector FitsValue result.multiValues) ∧
    (Lossless marshalChangeInfo unmarshalChangeInfo changeInfo ↔
      (FitsString changeInfo.uri ∧ FitsValue changeInfo.value ∧
        FitsVector FitsValue changeInfo.multiValues) ∧ changeInfo.isMultiValues = false) :=
  ⟨not_lossless_valueObject object,
    (Carries.dataProxyValue value).lossless_iff_eq.trans (and_iff_left rfl),
    lossless_proxyData_iff proxyData,
    (Carries.proxyGetResult result).lossless_iff_eq.trans (and_iff_left rfl),
    lossless_changeInfo_iff changeInfo⟩

/-- The number 1 comes back as another number, and leaves four bytes. -/
theorem unmarshalValueObject_one : ¬Lossless marshalValueObject unmarshalValueObject (.int 1) ∧
    (marshalValueObject (.int 1)).map (fun bytes => unmarshalValueObject.run ⟨bytes⟩) =
      some (some (.int (2 ^ 32)), ⟨[0, 0, 0, 0]⟩) :=
  ⟨not_lossless_valueObject _, by decide +kernel⟩

end ITypesUtil

end Cpp

end DataShare
