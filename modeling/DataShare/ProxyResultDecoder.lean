import DataShare.MeteredReaders
import DataShare.RustProxyData

/-!
# The memory of the proxy-result decoder

The reply of the data-proxy service comes from another process. Every length and count in it is a
64-bit word, which `service_proxy.rs` uses as a capacity as it is : a capacity that is too large
panics, or asks for memory that no blob justifies. Then the loop over the results stops at the
first one that it cannot read, and what it has is returned as if it was all.

Here are the readers with their requests for memory. The decoder is safe exactly if all results
that are announced are there and take no more memory than the blob (`Roomy`), or the first one is
broken in a way that no length hides (`BrokenResult`) : cut off, no UTF-8, or of no known type
(`readsSafely_iff`).
-/

namespace DataShare

namespace Rust

namespace Metered

open MeteredReader

/-! ## Readers -/

/-- The sizes of a `String` and of a `DataProxyGetResult`, as the compiler lays them out. -/
structure Layout where
  stringSize : ℕ
  resultSize : ℕ

abbrev bufReadUsize : MeteredReader ℕ :=
  MeteredReader.readSize

abbrev bufReadI32 : MeteredReader Int32 :=
  MeteredReader.readBasic Int32

abbrev bufReadI64 : MeteredReader Int64 :=
  MeteredReader.readBasic Int64

abbrev bufReadF64 : MeteredReader Double :=
  MeteredReader.readBasic Double

abbrev bufReadBool : MeteredReader Bool :=
  MeteredReader.readBasic Bool

/-- `vec![0u8; len]`, and what is read into it. -/
def bufReadString : MeteredReader String := do
  let len ← bufReadUsize
  allocate len 1
  let buf ← take len
  ofOption (fromUtf8 buf)

/-- `Vec::with_capacity(count)`, and what is pushed. -/
def bufReadStringVec (layout : Layout) : MeteredReader (List String) := do
  let count ← bufReadUsize
  allocate count layout.stringSize
  bufReadString.readN count

/-- The match of `buf_read_proxy_value`. -/
def bufReadValueOf (typeIndex : ℕ) : MeteredReader DataProxyValue :=
  if typeIndex = 0 then do
    let v ← bufReadI64
    pure (.int v)
  else if typeIndex = 1 then do
    let v ← bufReadF64
    pure (.double v)
  else if typeIndex = 2 then do
    let v ← bufReadString
    pure (.string v)
  else if typeIndex = 3 then do
    let v ← bufReadBool
    pure (.bool v)
  else MeteredReader.fail

def bufReadProxyValue : MeteredReader DataProxyValue := do
  let typeIndex ← bufReadUsize
  bufReadValueOf typeIndex

def bufReadProxyGetResult (layout : Layout) : MeteredReader DataProxyGetResult := do
  let uri ← bufReadString
  let resultCode ← bufReadI32
  let value ← bufReadProxyValue
  let allowList ← bufReadStringVec layout
  pure ⟨uri, .fromI32 resultCode, value, allowList⟩

/-- The count of the results, and the vector for them. -/
def announced (layout : Layout) : MeteredReader ℕ := do
  let count ← bufReadUsize
  allocate count layout.resultSize
  pure count

/-- What is asked for and what is returned, if there is no panic. -/
def readProxyGetResultVec (layout : Layout) (raw : List UInt8) :
    List MemoryRequest × Option (List DataProxyGetResult) :=
  match (announced layout).run raw with
  | (requests, .done count rest) =>
    (requests ++ ((bufReadProxyGetResult layout).collect count rest).1,
      ((bufReadProxyGetResult layout).collect count rest).2)
  | (requests, .refused) => (requests, some [])
  | (requests, .panic) => (requests, none)

def readProxyGetResultVecFromParcel (layout : Layout) (parcel : List UInt8) :
    List MemoryRequest × Option (List DataProxyGetResult) :=
  match rawOf parcel with
  | some raw => readProxyGetResultVec layout raw
  | none => ([], some [])

/-! ## Without the requests -/

theorem erases_bufReadString : Erases bufReadString Rust.bufReadString :=
  Erases.readSize.bind fun len =>
    .allocate_bind len 1 ((Erases.take len).bind fun buf => .ofOption (fromUtf8 buf))

theorem erases_bufReadStringVec (layout : Layout) :
    Erases (bufReadStringVec layout) Rust.bufReadStringVec :=
  Erases.readSize.bind fun count => .allocate_bind count _ (erases_bufReadString.readN count)

theorem Erases.ite {σ α : Type} [ByteFeed σ] {c : Prop} [Decidable c] {p p' : MeteredReader α}
    {q q' : Reader σ α} (h : Erases p q) (h' : Erases p' q') :
    Erases (if c then p else p') (if c then q else q') := by
  split
  · exact h
  · exact h'

theorem erases_bufReadProxyValue : Erases bufReadProxyValue Rust.bufReadProxyValue := by
  refine Erases.readSize.bind fun typeIndex => ?_
  refine Erases.ite ((Erases.readBasic Int64).bind fun _ => .pure _) ?_
  refine Erases.ite ((Erases.readBasic Double).bind fun _ => .pure _) ?_
  refine Erases.ite (erases_bufReadString.bind fun _ => .pure _) ?_
  exact Erases.ite ((Erases.readBasic Bool).bind fun _ => .pure _) .fail

theorem erases_bufReadProxyGetResult (layout : Layout) :
    Erases (bufReadProxyGetResult layout) Rust.bufReadProxyGetResult :=
  erases_bufReadString.bind fun _ => (Erases.readBasic Int32).bind fun _ =>
    erases_bufReadProxyValue.bind fun _ => (erases_bufReadStringVec layout).bind fun _ => .pure _

/-- What is returned, if there is no panic, is what the decoder gives where memory is no matter. -/
theorem readProxyGetResultVec_eq {layout : Layout} {raw : List UInt8}
    {results : List DataProxyGetResult} (h : (readProxyGetResultVec layout raw).2 = some results) :
    Rust.readProxyGetResultVec raw = results := by
  have herases : Erases (announced layout) (Rust.bufReadUsize >>= fun count => pure count) :=
    Erases.readSize.bind fun count => .allocate_bind count _ (.pure count)
  obtain ⟨hdone, hrefused⟩ := herases raw
  obtain ⟨requests, ending, hrun⟩ :
      ∃ requests ending, (announced layout).run raw = (requests, ending) := ⟨_, _, rfl⟩
  rw [readProxyGetResultVec, hrun] at h
  rw [hrun] at hdone hrefused
  obtain ⟨o, cursor, hsize⟩ : ∃ o cursor, Rust.bufReadUsize.run ⟨raw⟩ = (o, cursor) := ⟨_, _, rfl⟩
  rw [← Cursor.feed_eq] at hsize
  simp only [Reader.run_bind, hsize] at hdone hrefused
  rw [Rust.readProxyGetResultVec, ← Cursor.feed_eq, hsize]
  cases ending with
  | done count rest =>
    rcases o with _ | count'
    · simp at hdone
    · obtain ⟨rfl, rfl⟩ : count' = count ∧ cursor = ByteFeed.feed rest := by
        simpa using hdone count rest rfl
      exact (erases_bufReadProxyGetResult layout).collect count' rest results h
  | refused =>
    rcases o with _ | count'
    · exact Option.some.inj h
    · simp at hrefused
  | panic => cases h

theorem readProxyGetResultVecFromParcel_eq {layout : Layout} {parcel : List UInt8}
    {results : List DataProxyGetResult}
    (h : (readProxyGetResultVecFromParcel layout parcel).2 = some results) :
    Rust.readProxyGetResultVecFromParcel parcel = results := by
  cases hraw : rawOf parcel with
  | none =>
    simp only [readProxyGetResultVecFromParcel, hraw] at h
    simp only [Rust.readProxyGetResultVecFromParcel, hraw]
    exact Option.some.inj h
  | some raw =>
    simp only [readProxyGetResultVecFromParcel, hraw] at h
    simp only [Rust.readProxyGetResultVecFromParcel, hraw]
    exact readProxyGetResultVec_eq h

/-! ## Where a reader gives up -/

/-- A text that is cut off in its length, or is no UTF-8. -/
def BrokenText (bs : List UInt8) : Prop :=
  bs.length < 8 ∨ ∃ text rest, bs = stringBytes text ++ rest ∧ fromUtf8 text = none

/-- A list that is cut off in its count, or has a broken text and takes no more memory than the
limit. -/
def BrokenTexts (layout : Layout) (limit : ℕ) (bs : List UInt8) : Prop :=
  bs.length < 8 ∨ ∃ count rest, bs = sizeBytes count ++ rest ∧ count ≤ rest.length ∧
    count * layout.stringSize ≤ limit ∧ ∃ (texts : List String) (tail : List UInt8),
      rest = texts.flatMap bufWriteString ++ tail ∧ texts.length < count ∧ BrokenText tail

/-- A value that is cut off, is a broken text, or has no known type. -/
def BrokenValue (bs : List UInt8) : Prop :=
  bs.length < 8 ∨ ∃ type rest, type < 2 ^ 64 ∧ bs = sizeBytes type ++ rest ∧
    (type ≤ 1 ∧ rest.length < 8 ∨ type = 2 ∧ BrokenText rest ∨ type = 3 ∧ rest = [] ∨ 3 < type)

/-- A result that is broken in one of its fields. -/
def BrokenResult (layout : Layout) (limit : ℕ) (bs : List UInt8) : Prop :=
  BrokenText bs ∨ ∃ uri rest, bs = bufWriteString uri ++ rest ∧
    (rest.length < 4 ∨ ∃ (code : Int32) (rest' : List UInt8), rest = basicBytes code ++ rest' ∧
      (BrokenValue rest' ∨ ∃ value w tail, DataProxyValue.Word value w ∧ rest' = w ++ tail ∧
        BrokenTexts layout limit tail))

/-- No more bytes than the limit, which is no more than the length of a blob can be, an `i32`. -/
def Short (limit : ℕ) (bs : List UInt8) : Prop :=
  bs.length ≤ limit ∧ limit < 2 ^ 31

section Readers

variable {limit : ℕ} {layout : Layout}

theorem Short.tail {w rest : List UInt8} (h : Short limit (w ++ rest)) : Short limit rest := by
  refine ⟨le_trans ?_ h.1, h.2⟩
  rw [List.length_append]
  exact Nat.le_add_left _ _

theorem Short.length_lt {bs : List UInt8} (h : Short limit bs) : bs.length < 2 ^ 31 :=
  h.1.trans_lt h.2

theorem Short.limit_le {bs : List UInt8} (h : Short limit bs) : limit ≤ maxCapacity :=
  h.2.le.trans (by decide)

theorem accepts_bufReadString_iff {bs rest : List UInt8} {s : String} (h : Short limit bs) :
    Accepts limit bufReadString bs s rest ↔ bs = bufWriteString s ++ rest := by
  rw [bufReadString, accepts_bind_iff]
  constructor
  · rintro ⟨len, mid, hsize, hmid⟩
    obtain ⟨-, rfl⟩ := accepts_size_iff.mp hsize
    obtain ⟨-, hmid⟩ := (accepts_allocate_bind_iff h.limit_le).mp hmid
    obtain ⟨buf, rest', htake, hutf8⟩ := accepts_bind_iff.mp hmid
    obtain ⟨rfl, rfl⟩ := accepts_take_iff.mp htake
    obtain ⟨hs, rfl⟩ := accepts_ofOption_iff.mp hutf8
    rw [bufWriteString, utf8Bytes_of_fromUtf8 hs, bufWriteUsize, List.append_assoc]
  · rintro rfl
    rw [bufWriteString, bufWriteUsize, List.append_assoc] at h ⊢
    have hlen := h.tail.1
    have hlt := h.2
    rw [List.length_append] at hlen
    refine ⟨(utf8Bytes s).length, utf8Bytes s ++ rest, accepts_size_iff.mpr ⟨by omega, rfl⟩, ?_⟩
    refine (accepts_allocate_bind_iff h.limit_le).mpr ⟨⟨by simp, by omega⟩, ?_⟩
    refine accepts_bind_iff.mpr ⟨_, _, accepts_take_iff.mpr ⟨rfl, rfl⟩, ?_⟩
    exact accepts_ofOption_iff.mpr ⟨fromUtf8_utf8Bytes s, rfl⟩

theorem givesUp_bufReadString_iff {bs : List UInt8} (h : Short limit bs) :
    GivesUp limit bufReadString bs ↔ BrokenText bs := by
  rw [bufReadString, givesUp_bind_iff, givesUp_size_iff, BrokenText]
  refine or_congr_right ⟨?_, ?_⟩
  · rintro ⟨len, mid, hsize, hmid⟩
    obtain ⟨-, rfl⟩ := accepts_size_iff.mp hsize
    obtain ⟨⟨hle, -⟩, hmid⟩ := (givesUp_allocate_bind_iff h.limit_le).mp hmid
    rcases givesUp_bind_iff.mp hmid with htake | ⟨buf, rest, htake, hutf8⟩
    · exact absurd (givesUp_take_iff.mp htake) (Nat.not_lt_of_le hle)
    · obtain ⟨rfl, rfl⟩ := accepts_take_iff.mp htake
      exact ⟨buf, rest, by rw [stringBytes, List.append_assoc], givesUp_ofOption_iff.mp hutf8⟩
  · rintro ⟨text, rest, rfl, hutf8⟩
    rw [stringBytes, List.append_assoc] at h ⊢
    have hlen := h.tail.1
    have hlt := h.2
    rw [List.length_append] at hlen
    refine ⟨text.length, text ++ rest, accepts_size_iff.mpr ⟨by omega, rfl⟩, ?_⟩
    refine (givesUp_allocate_bind_iff h.limit_le).mpr ⟨⟨by simp, by omega⟩, ?_⟩
    exact givesUp_bind_iff.mpr (Or.inr ⟨_, _, accepts_take_iff.mpr ⟨rfl, rfl⟩,
      givesUp_ofOption_iff.mpr hutf8⟩)

theorem accepts_texts_iff {n : ℕ} {bs rest : List UInt8} {texts : List String} (h : Short limit bs) :
    Accepts limit (bufReadString.readN n) bs texts rest ↔
      texts.length = n ∧ bs = texts.flatMap bufWriteString ++ rest := by
  rw [accepts_readN_iff (L := fun s w => w = bufWriteString s) Short.tail
    (fun h => by simp [accepts_bufReadString_iff h]) h]
  refine and_congr_right fun _ => ⟨?_, ?_⟩
  · rintro ⟨ws, hws, rfl⟩
    rw [flatten_of_forall₂ hws]
  · rintro rfl
    refine ⟨texts.map bufWriteString, ?_, by rw [List.flatMap_def]⟩
    exact List.forall₂_map_right_iff.mpr (List.forall₂_same.mpr fun _ _ => rfl)

theorem length_le_texts (texts : List String) (tail : List UInt8) :
    texts.length ≤ (texts.flatMap bufWriteString ++ tail).length := by
  have hpos : ∀ s ∈ texts, 0 < (bufWriteString s).length := by
    intro s _
    simp [bufWriteString, bufWriteUsize]
  have hle := length_le_of_pos hpos
  rw [List.length_append]
  omega

theorem accepts_bufReadStringVec_iff {bs rest : List UInt8} {vec : List String}
    (h : Short limit bs) : Accepts limit (bufReadStringVec layout) bs vec rest ↔
      vec.length * layout.stringSize ≤ limit ∧ bs = bufWriteStringVec vec ++ rest := by
  rw [bufReadStringVec, accepts_bind_iff]
  constructor
  · rintro ⟨count, mid, hsize, hmid⟩
    obtain ⟨-, rfl⟩ := accepts_size_iff.mp hsize
    obtain ⟨⟨-, hroom⟩, hmid⟩ := (accepts_allocate_bind_iff h.limit_le).mp hmid
    obtain ⟨rfl, rfl⟩ := (accepts_texts_iff h.tail).mp hmid
    exact ⟨hroom, by rw [bufWriteStringVec, bufWriteUsize, List.append_assoc]⟩
  · rintro ⟨hroom, rfl⟩
    rw [bufWriteStringVec, bufWriteUsize, List.append_assoc] at h ⊢
    have hlen := length_le_texts vec rest
    refine ⟨vec.length, _, accepts_size_iff.mpr ⟨?_, rfl⟩, ?_⟩
    · exact (hlen.trans_lt h.tail.length_lt).trans (by decide)
    · refine (accepts_allocate_bind_iff h.limit_le).mpr ⟨⟨hlen, hroom⟩, ?_⟩
      exact (accepts_texts_iff h.tail).mpr ⟨rfl, rfl⟩

theorem givesUp_bufReadStringVec_iff {bs : List UInt8} (h : Short limit bs) :
    GivesUp limit (bufReadStringVec layout) bs ↔ BrokenTexts layout limit bs := by
  rw [bufReadStringVec, givesUp_bind_iff, givesUp_size_iff, BrokenTexts]
  refine or_congr_right ⟨?_, ?_⟩
  · rintro ⟨count, mid, hsize, hmid⟩
    obtain ⟨-, rfl⟩ := accepts_size_iff.mp hsize
    obtain ⟨⟨hle, hroom⟩, hmid⟩ := (givesUp_allocate_bind_iff h.limit_le).mp hmid
    obtain ⟨k, hk, texts, tail, htexts, htail⟩ := givesUp_readN_iff.mp hmid
    obtain ⟨rfl, rfl⟩ := (accepts_texts_iff h.tail).mp htexts
    exact ⟨count, _, rfl, hle, hroom, texts, tail, rfl, hk,
      (givesUp_bufReadString_iff h.tail.tail).mp htail⟩
  · rintro ⟨count, rest, rfl, hle, hroom, texts, tail, rfl, hk, htail⟩
    refine ⟨count, _, accepts_size_iff.mpr ⟨?_, rfl⟩, ?_⟩
    · exact (hle.trans_lt h.tail.length_lt).trans (by decide)
    refine (givesUp_allocate_bind_iff h.limit_le).mpr ⟨⟨hle, hroom⟩, ?_⟩
    exact givesUp_readN_iff.mpr ⟨texts.length, hk, texts, tail,
      (accepts_texts_iff h.tail).mpr ⟨rfl, rfl⟩, (givesUp_bufReadString_iff h.tail.tail).mpr htail⟩

theorem feed_injective : Function.Injective (ByteFeed.feed : List UInt8 → Cursor) :=
  fun _ _ h => congrArg Cursor.rest h

theorem accepts_bufReadProxyValue_iff {bs rest : List UInt8} {value : DataProxyValue}
    (h : Short limit bs) : Accepts limit bufReadProxyValue bs value rest ↔
      ∃ w, value.Word w ∧ bs = w ++ rest := by
  constructor
  · exact erases_bufReadProxyValue.spelled spells_proxyValue feed_injective
  · rintro ⟨w, hw, rfl⟩
    -- the type is read, and the rest is left to the match
    have htype : ∀ {type : ℕ} {tail : List UInt8}, type < 2 ^ 64 → w = sizeBytes type ++ tail →
        (Short limit (tail ++ rest) → Accepts limit (bufReadValueOf type) (tail ++ rest) value rest) →
          Accepts limit bufReadProxyValue (w ++ rest) value rest := by
      rintro type tail hlt rfl htail
      rw [List.append_assoc] at h ⊢
      exact accepts_bind_iff.mpr ⟨type, _, accepts_size_iff.mpr ⟨hlt, rfl⟩, htail h.tail⟩
    cases value with
    | int v =>
      refine htype (by decide) hw fun _ => ?_
      exact accepts_bind_pure_iff.mpr ⟨v, accepts_word_iff.mpr rfl, rfl⟩
    | double v =>
      refine htype (by decide) hw fun _ => ?_
      exact accepts_bind_pure_iff.mpr ⟨v, accepts_word_iff.mpr rfl, rfl⟩
    | string v =>
      refine htype (by decide) hw fun hshort => ?_
      exact accepts_bind_pure_iff.mpr ⟨v, (accepts_bufReadString_iff hshort).mpr rfl, rfl⟩
    | bool v =>
      obtain ⟨byte, rfl, hw⟩ := hw
      refine htype (by decide) hw fun _ => ?_
      exact accepts_bind_pure_iff.mpr
        ⟨_, accepts_basic_iff.mpr ⟨[byte], rfl, ofBasicBytes_bool byte, rfl⟩, rfl⟩

theorem givesUp_bufReadValueOf_iff {type : ℕ} {bs : List UInt8} (h : Short limit bs) :
    GivesUp limit (bufReadValueOf type) bs ↔ type ≤ 1 ∧ bs.length < 8 ∨ type = 2 ∧ BrokenText bs ∨
      type = 3 ∧ bs = [] ∨ 3 < type := by
  rcases type with _ | _ | _ | _ | type
  · simp [bufReadValueOf, givesUp_bind_pure_iff, givesUp_basic_iff, BasicType.size]
  · simp [bufReadValueOf, givesUp_bind_pure_iff, givesUp_basic_iff, BasicType.size]
  · simp [bufReadValueOf, givesUp_bind_pure_iff, givesUp_bufReadString_iff h]
  · simp [bufReadValueOf, givesUp_bind_pure_iff, givesUp_basic_iff, BasicType.size]
  · simp [bufReadValueOf]

theorem givesUp_bufReadProxyValue_iff {bs : List UInt8} (h : Short limit bs) :
    GivesUp limit bufReadProxyValue bs ↔ BrokenValue bs := by
  rw [bufReadProxyValue, givesUp_bind_iff, givesUp_size_iff, BrokenValue]
  refine or_congr_right ⟨?_, ?_⟩
  · rintro ⟨type, rest, hsize, hrest⟩
    obtain ⟨hlt, rfl⟩ := accepts_size_iff.mp hsize
    exact ⟨type, rest, hlt, rfl, (givesUp_bufReadValueOf_iff h.tail).mp hrest⟩
  · rintro ⟨type, rest, hlt, rfl, hrest⟩
    exact ⟨type, rest, accepts_size_iff.mpr ⟨hlt, rfl⟩, (givesUp_bufReadValueOf_iff h.tail).mpr hrest⟩

/-- A word of a result whose allow list takes no more memory than the limit. -/
def RoomyWord (layout : Layout) (limit : ℕ) (result : DataProxyGetResult) (w : List UInt8) : Prop :=
  result.allowList.length * layout.stringSize ≤ limit ∧ result.Word w

theorem accepts_bufReadProxyGetResult_iff {bs rest : List UInt8} {result : DataProxyGetResult}
    (h : Short limit bs) : Accepts limit (bufReadProxyGetResult layout) bs result rest ↔
      ∃ w, RoomyWord layout limit result w ∧ bs = w ++ rest := by
  constructor
  · intro hresult
    obtain ⟨uri, _, huri, hbehindUri⟩ := accepts_bind_iff.mp hresult
    obtain rfl := (accepts_bufReadString_iff h).mp huri
    obtain ⟨code, _, hcode, hbehindCode⟩ := accepts_bind_iff.mp hbehindUri
    obtain rfl := accepts_word_iff.mp hcode
    obtain ⟨value, _, hvalue, hbehindValue⟩ := accepts_bind_iff.mp hbehindCode
    obtain ⟨w, hw, rfl⟩ := (accepts_bufReadProxyValue_iff h.tail.tail).mp hvalue
    obtain ⟨allowList, hallow, rfl⟩ := accepts_bind_pure_iff.mp hbehindValue
    obtain ⟨hroom, rfl⟩ := (accepts_bufReadStringVec_iff h.tail.tail.tail).mp hallow
    exact ⟨_, ⟨hroom, code, w, rfl, hw, rfl⟩, by simp only [List.append_assoc]⟩
  · obtain ⟨uri, result, value, allowList⟩ := result
    rintro ⟨_, ⟨hroom, code, w, rfl, hw, rfl⟩, rfl⟩
    simp only [List.append_assoc] at h ⊢
    refine accepts_bind_iff.mpr ⟨uri, _, (accepts_bufReadString_iff h).mpr rfl, ?_⟩
    refine accepts_bind_iff.mpr ⟨code, _, accepts_word_iff.mpr rfl, ?_⟩
    refine accepts_bind_iff.mpr
      ⟨value, _, (accepts_bufReadProxyValue_iff h.tail.tail).mpr ⟨w, hw, rfl⟩, ?_⟩
    exact accepts_bind_pure_iff.mpr
      ⟨allowList, (accepts_bufReadStringVec_iff h.tail.tail.tail).mpr ⟨hroom, rfl⟩, rfl⟩

theorem givesUp_bufReadProxyGetResult_iff {bs : List UInt8} (h : Short limit bs) :
    GivesUp limit (bufReadProxyGetResult layout) bs ↔ BrokenResult layout limit bs := by
  rw [bufReadProxyGetResult, givesUp_bind_iff, givesUp_bufReadString_iff h, BrokenResult]
  refine or_congr_right ⟨?_, ?_⟩
  · rintro ⟨uri, rest, huri, hrest⟩
    obtain rfl := (accepts_bufReadString_iff h).mp huri
    refine ⟨uri, rest, rfl, ?_⟩
    rcases givesUp_bind_iff.mp hrest with hcode | ⟨code, rest', hcode, hrest'⟩
    · exact Or.inl (givesUp_basic_iff.mp hcode)
    · obtain rfl := accepts_word_iff.mp hcode
      refine Or.inr ⟨code, rest', rfl, ?_⟩
      rcases givesUp_bind_iff.mp hrest' with hvalue | ⟨value, tail, hvalue, htail⟩
      · exact Or.inl ((givesUp_bufReadProxyValue_iff h.tail.tail).mp hvalue)
      · obtain ⟨w, hw, rfl⟩ := (accepts_bufReadProxyValue_iff h.tail.tail).mp hvalue
        exact Or.inr ⟨value, w, tail, hw, rfl,
          (givesUp_bufReadStringVec_iff h.tail.tail.tail).mp (givesUp_bind_pure_iff.mp htail)⟩
  · rintro ⟨uri, rest, rfl, hrest⟩
    refine ⟨uri, rest, (accepts_bufReadString_iff h).mpr rfl, givesUp_bind_iff.mpr ?_⟩
    rcases hrest with hcode | ⟨code, rest', rfl, hrest'⟩
    · exact Or.inl (givesUp_basic_iff.mpr hcode)
    · refine Or.inr ⟨code, rest', accepts_word_iff.mpr rfl, givesUp_bind_iff.mpr ?_⟩
      rcases hrest' with hvalue | ⟨value, w, tail, hw, rfl, htail⟩
      · exact Or.inl ((givesUp_bufReadProxyValue_iff h.tail.tail).mpr hvalue)
      · exact Or.inr ⟨value, tail, (accepts_bufReadProxyValue_iff h.tail.tail).mpr ⟨w, hw, rfl⟩,
          givesUp_bind_pure_iff.mpr ((givesUp_bufReadStringVec_iff h.tail.tail.tail).mpr htail)⟩

end Readers

/-! ## All results or none -/

theorem length_word_pos {result : DataProxyGetResult} {w : List UInt8} (h : result.Word w) :
    0 < w.length := by
  obtain ⟨code, value, -, -, rfl⟩ := h
  simp [bufWriteString, bufWriteUsize]

theorem length_le_words {results : List DataProxyGetResult} {words : List (List UInt8)}
    (h : List.Forall₂ DataProxyGetResult.Word results words) :
    results.length ≤ words.flatten.length := by
  induction h with
  | nil => exact Nat.le_refl 0
  | cons hw _ ih =>
    have hpos := length_word_pos hw
    rw [List.flatten_cons, List.length_cons, List.length_append]
    omega

/-- The count at the start of a blob. -/
def Announces (raw : List UInt8) (count : ℕ) : Prop :=
  count < 2 ^ 64 ∧ ∃ rest, raw = sizeBytes count ++ rest

/-- Neither the results nor an allow list take more memory than the limit. -/
def Roomy (layout : Layout) (limit : ℕ) (results : List DataProxyGetResult) : Prop :=
  results.length * layout.resultSize ≤ limit ∧
    ∀ result ∈ results, result.allowList.length * layout.stringSize ≤ limit

/-- All results that the blob announces are in it, and take no more memory. -/
def Complete (layout : Layout) (raw : List UInt8) : Prop :=
  ∃ (results : List DataProxyGetResult) (words : List (List UInt8)) (tail : List UInt8),
    results.length < 2 ^ 64 ∧ List.Forall₂ DataProxyGetResult.Word results words ∧
      raw = sizeBytes results.length ++ (words.flatten ++ tail) ∧ Roomy layout raw.length results

/-- The blob has no count, or one that could be true, and a broken result behind it. -/
def BrokenAtOnce (layout : Layout) (raw : List UInt8) : Prop :=
  raw.length < 8 ∨ ∃ count rest, 0 < count ∧ count < 2 ^ 64 ∧ raw = sizeBytes count ++ rest ∧
    (count ≤ rest.length ∧ count * layout.resultSize ≤ raw.length) ∧
      BrokenResult layout raw.length rest

/-- The decoder asks for no more elements than bytes remain and for no more memory than the blob, does
not panic, and returns all announced results or none. -/
structure ReadsSafely (layout : Layout) (parcel : List UInt8) : Prop where
  bounded : ∀ r ∈ (readProxyGetResultVecFromParcel layout parcel).1,
    ∃ raw, rawOf parcel = some raw ∧ r.Bounded raw.length
  returns : ∃ results, (readProxyGetResultVecFromParcel layout parcel).2 = some results ∧
    (results = [] ∨ ∃ raw, rawOf parcel = some raw ∧ Announces raw results.length)

theorem readsSafely_of_rawOf {layout : Layout} {parcel raw : List UInt8}
    (h : rawOf parcel = some raw) : ReadsSafely layout parcel ↔
      (∀ r ∈ (readProxyGetResultVec layout raw).1, r.Bounded raw.length) ∧
        ∃ results, (readProxyGetResultVec layout raw).2 = some results ∧
          (results = [] ∨ Announces raw results.length) := by
  have hread : readProxyGetResultVecFromParcel layout parcel = readProxyGetResultVec layout raw := by
    rw [readProxyGetResultVecFromParcel, h]
  have hraw : ∀ p : List UInt8 → Prop, (∃ raw', rawOf parcel = some raw' ∧ p raw') ↔ p raw := by
    simp [h]
  constructor
  · rintro ⟨hbounded, results, hresults, hall⟩
    rw [hread] at hbounded hresults
    exact ⟨fun r hr => (hraw _).mp (hbounded r hr), results, hresults, hall.imp_right (hraw _).mp⟩
  · rintro ⟨hbounded, results, hresults, hall⟩
    rw [← hread] at hbounded hresults
    exact ⟨fun r hr => (hraw _).mpr (hbounded r hr), results, hresults, hall.imp_right (hraw _).mpr⟩

theorem sizeBytes_append_inj {n m : ℕ} {bs bs' : List UInt8} (hn : n < 2 ^ 64) (hm : m < 2 ^ 64)
    (h : sizeBytes n ++ bs = sizeBytes m ++ bs') : n = m ∧ bs = bs' := by
  obtain ⟨hsize, hrest⟩ := List.append_inj h (by simp)
  have hnat := congrArg (ofBasicBytes : List UInt8 → UInt64) hsize
  rw [sizeBytes, sizeBytes, ofBasicBytes_basicBytes, ofBasicBytes_basicBytes] at hnat
  have heq := congrArg UInt64.toNat hnat
  rw [UInt64.toNat_ofNat_of_lt' hn, UInt64.toNat_ofNat_of_lt' hm] at heq
  exact ⟨heq, hrest⟩

theorem short_or_announces (raw : List UInt8) :
    raw.length < 8 ∨ ∃ count rest, count < 2 ^ 64 ∧ raw = sizeBytes count ++ rest := by
  by_cases hlen : raw.length < 8
  · exact Or.inl hlen
  · have hsize : (raw.take 8).length = BasicType.size UInt64 := List.length_take_of_le (by omega)
    refine Or.inr ⟨(ofBasicBytes (raw.take 8) : UInt64).toNat, raw.drop 8, UInt64.toNat_lt _, ?_⟩
    rw [sizeBytes, UInt64.ofNat_toNat, basicBytes_ofBasicBytes hsize, List.take_append_drop]

theorem short_of_rawOf {parcel raw : List UInt8} (h : rawOf parcel = some raw) :
    Short raw.length raw := by
  refine ⟨le_rfl, ?_⟩
  rw [rawOf, readRaw, Reader.run_bind] at h
  split at h
  case h_2 => cases h
  case h_1 blobLen rest _ =>
    split at h
    · cases h
    rw [Reader.run_bind] at h
    split at h
    case h_2 => cases h
    case h_1 rest' _ =>
      rw [Cursor.readExact] at h
      dsimp only at h
      split at h
      case isFalse => cases h
      case isTrue hle =>
        obtain rfl := Option.some.inj h
        rw [List.length_take_of_le hle]
        have hlt : blobLen.toInt < 2 ^ 31 := Int32.toInt_lt blobLen
        omega

/-- The count and the memory for it. -/
theorem announced_run (layout : Layout) {count : ℕ} (hcount : count < 2 ^ 64)
    (rest : List UInt8) : (announced layout).run (sizeBytes count ++ rest) =
      ([⟨count, layout.resultSize, rest.length⟩],
        if count * layout.resultSize ≤ maxCapacity then .done count rest else .panic) := by
  rw [announced, run_bind_of_done _ (readSize_run hcount rest)]
  by_cases hcap : count * layout.resultSize ≤ maxCapacity
  · rw [run_bind_of_done _ (allocate_run_of_le hcap rest), if_pos hcap]
    rfl
  · rw [run_bind_of_panic _ (allocate_run_of_lt hcap rest), if_neg hcap]
    rfl

theorem readProxyGetResultVec_of_short {layout : Layout} {raw : List UInt8}
    (h : raw.length < 8) : readProxyGetResultVec layout raw = ([], some []) := by
  rw [readProxyGetResultVec, announced, run_bind_of_refused _ (readSize_run_of_lt h)]

/-- Where the count could be true, there is memory for it. -/
theorem readProxyGetResultVec_of_le {layout : Layout} {count : ℕ} {rest : List UInt8}
    (hcount : count < 2 ^ 64) (hcap : count * layout.resultSize ≤ maxCapacity) :
    readProxyGetResultVec layout (sizeBytes count ++ rest) =
      (⟨count, layout.resultSize, rest.length⟩ ::
          ((bufReadProxyGetResult layout).collect count rest).1,
        ((bufReadProxyGetResult layout).collect count rest).2) := by
  rw [readProxyGetResultVec, announced_run layout hcount, if_pos hcap]
  rfl

theorem mem_readProxyGetResultVec {layout : Layout} {count : ℕ} {rest : List UInt8}
    (hcount : count < 2 ^ 64) :
    ⟨count, layout.resultSize, rest.length⟩ ∈
      (readProxyGetResultVec layout (sizeBytes count ++ rest)).1 := by
  rw [readProxyGetResultVec, announced_run layout hcount]
  by_cases hcap : count * layout.resultSize ≤ maxCapacity
  · simp [if_pos hcap]
  · simp [if_neg hcap]

section Results

variable {layout : Layout} {limit : ℕ}

theorem forall₂_roomyWord_iff {results : List DataProxyGetResult} {words : List (List UInt8)} :
    List.Forall₂ (RoomyWord layout limit) results words ↔
      (∀ result ∈ results, result.allowList.length * layout.stringSize ≤ limit) ∧
        List.Forall₂ DataProxyGetResult.Word results words :=
  List.forall₂_and_left _ _

theorem accepts_results_iff {n : ℕ} {bs rest : List UInt8} {results : List DataProxyGetResult}
    (h : Short limit bs) : Accepts limit ((bufReadProxyGetResult layout).readN n) bs results rest ↔
      results.length = n ∧ ∃ words, List.Forall₂ (RoomyWord layout limit) results words ∧
        bs = words.flatten ++ rest :=
  accepts_readN_iff Short.tail (fun h => accepts_bufReadProxyGetResult_iff h) h

/-- A blob that is announced to have results. -/
theorem complete_iff {count : ℕ} {rest : List UInt8} (hcount : count < 2 ^ 64)
    (hlimit : (sizeBytes count ++ rest).length = limit) :
    Complete layout (sizeBytes count ++ rest) ↔ count * layout.resultSize ≤ limit ∧
      ∃ (results : List DataProxyGetResult) (words : List (List UInt8)) (tail : List UInt8),
        results.length = count ∧ List.Forall₂ (RoomyWord layout limit) results words ∧
          rest = words.flatten ++ tail := by
  rw [Complete, hlimit]
  simp only [forall₂_roomyWord_iff]
  constructor
  · rintro ⟨results, words, tail, hlt, hwords, hraw, hroom, hlists⟩
    obtain ⟨rfl, rfl⟩ := sizeBytes_append_inj hcount hlt hraw
    exact ⟨hroom, results, words, tail, rfl, ⟨hlists, hwords⟩, rfl⟩
  · rintro ⟨hroom, results, words, tail, rfl, ⟨hlists, hwords⟩, rfl⟩
    exact ⟨results, words, tail, hcount, hwords, rfl, hroom, hlists⟩

theorem brokenAtOnce_iff {count : ℕ} {rest : List UInt8} (hcount : count < 2 ^ 64)
    (hlimit : (sizeBytes count ++ rest).length = limit) :
    BrokenAtOnce layout (sizeBytes count ++ rest) ↔ 0 < count ∧
      (count ≤ rest.length ∧ count * layout.resultSize ≤ limit) ∧ BrokenResult layout limit rest := by
  rw [BrokenAtOnce, hlimit]
  constructor
  · rintro (hlen | ⟨count', rest', hpos, hlt, hraw, hle, hbroken⟩)
    · simp [← hlimit] at hlen
    · obtain ⟨rfl, rfl⟩ := sizeBytes_append_inj hcount hlt hraw
      exact ⟨hpos, hle, hbroken⟩
  · rintro ⟨hpos, hle, hbroken⟩
    exact Or.inr ⟨count, rest, hpos, hcount, rfl, hle, hbroken⟩

/-- The loop over the results, where the count could be true. -/
theorem collect_safely_iff {count : ℕ} {rest : List UInt8} (h : Short limit rest) :
    ((∀ r ∈ ((bufReadProxyGetResult layout).collect count rest).1, r.Bounded limit) ∧
        ∃ results, ((bufReadProxyGetResult layout).collect count rest).2 = some results ∧
          (results = [] ∨ results.length = count)) ↔
      (∃ results words tail, results.length = count ∧
        List.Forall₂ (RoomyWord layout limit) results words ∧ rest = words.flatten ++ tail) ∨
          0 < count ∧ BrokenResult layout limit rest := by
  have hall : (∃ results tail, Accepts limit ((bufReadProxyGetResult layout).readN count) rest
      results tail) ↔ ∃ results words tail, results.length = count ∧
        List.Forall₂ (RoomyWord layout limit) results words ∧ rest = words.flatten ++ tail := by
    simp only [accepts_results_iff h]
    constructor
    · rintro ⟨results, tail, hlen, words, hwords, hrest⟩
      exact ⟨results, words, tail, hlen, hwords, hrest⟩
    · rintro ⟨results, words, tail, hlen, hwords, hrest⟩
      exact ⟨results, tail, hlen, words, hwords, hrest⟩
  rw [← hall, ← collect_all_iff, ← givesUp_bufReadProxyGetResult_iff h]
  rcases Nat.eq_zero_or_pos count with rfl | hpos
  · simp [collect]
  · rw [← collect_nil_iff hpos]
    constructor
    · rintro ⟨hbounded, results, hresults, rfl | hlen⟩
      · exact Or.inr ⟨hpos, hbounded, hresults⟩
      · exact Or.inl ⟨hbounded, results, hresults, hlen⟩
    · rintro (⟨hbounded, results, hresults, hlen⟩ | ⟨-, hbounded, hresults⟩)
      · exact ⟨hbounded, results, hresults, Or.inr hlen⟩
      · exact ⟨hbounded, [], hresults, Or.inl rfl⟩

end Results

/-- The decoder is safe exactly on the blobs that have all their results, in no more memory, and on
those that are broken before the first one. -/
theorem readsSafely_iff (layout : Layout) (parcel : List UInt8) :
    ReadsSafely layout parcel ↔
      ∀ raw, rawOf parcel = some raw → Complete layout raw ∨ BrokenAtOnce layout raw := by
  cases hraw : rawOf parcel with
  | none =>
    have hread : readProxyGetResultVecFromParcel layout parcel = ([], some []) := by
      rw [readProxyGetResultVecFromParcel, hraw]
    refine iff_of_true ⟨?_, [], by rw [hread], Or.inl rfl⟩ fun raw h => (by cases h)
    rw [hread]
    simp
  | some raw =>
    have hshort := short_of_rawOf hraw
    rw [readsSafely_of_rawOf hraw]
    have hone : (∀ raw', some raw = some raw' → Complete layout raw' ∨ BrokenAtOnce layout raw') ↔
        Complete layout raw ∨ BrokenAtOnce layout raw := by
      simp
    rw [hone]
    rcases short_or_announces raw with hlen | ⟨count, rest, hcount, rfl⟩
    · refine iff_of_true ?_ (Or.inr (Or.inl hlen))
      rw [readProxyGetResultVec_of_short hlen]
      exact ⟨by simp, [], rfl, Or.inl rfl⟩
    obtain ⟨limit, hlimit⟩ : ∃ limit, (sizeBytes count ++ rest).length = limit := ⟨_, rfl⟩
    rw [complete_iff hcount hlimit, brokenAtOnce_iff hcount hlimit, hlimit]
    rw [hlimit] at hshort
    by_cases hle : count ≤ rest.length ∧ count * layout.resultSize ≤ limit
    · have hannounces : ∀ n, Announces (sizeBytes count ++ rest) n ↔ n = count := by
        intro n
        constructor
        · rintro ⟨hn, rest', hraw⟩
          exact (sizeBytes_append_inj hcount hn hraw).1.symm
        · rintro rfl
          exact ⟨hcount, rest, rfl⟩
      have hcollect := @collect_safely_iff layout limit count rest hshort.tail
      rw [readProxyGetResultVec_of_le hcount (hle.2.trans hshort.limit_le)]
      simp only [hannounces, List.forall_mem_cons]
      rw [and_assoc, hcollect]
      simp [MemoryRequest.Bounded, hle]
    · refine iff_of_false ?_ ?_
      · rintro ⟨hbounded, -⟩
        exact hle (hbounded _ (mem_readProxyGetResultVec hcount))
      · rintro (⟨hroom, results, words, tail, rfl, hwords, rfl⟩ | ⟨-, hle', -⟩)
        · have hwords' := length_le_words (forall₂_roomyWord_iff.mp hwords).2
          rw [List.length_append] at hle
          exact hle ⟨by omega, hroom⟩
        · exact hle hle'

/-- The sizes on a machine of 64 bits. -/
def wordLayout : Layout := ⟨24, 88⟩

/-- A reply of eight bytes that announces `2 ^ 62` results. -/
def hugeReply : List UInt8 :=
  basicBytes (8 : Int32) ++ (basicBytes (8 : Int32) ++ sizeBytes (2 ^ 62))

/-- A reply that announces `2 ^ 62` results panics. -/
theorem not_readsSafely :
    ¬∀ (layout : Layout) (parcel : List UInt8), ReadsSafely layout parcel := by
  intro h
  obtain ⟨results, hresults, -⟩ := (h wordLayout hugeReply).returns
  have hpanic : (readProxyGetResultVecFromParcel wordLayout hugeReply).2 = none := by
    decide +kernel
  rw [hpanic] at hresults
  cases hresults

end Metered

end Rust

end DataShare
