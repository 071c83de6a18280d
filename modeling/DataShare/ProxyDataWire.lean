import DataShare.CppProxyData
import DataShare.RustProxyData

/-!
# Proxy data between Rust and C++

The Rust client and the C++ service have each written down the format of the proxy-data
messages, and in each direction C++ has fields that Rust does not know.

* a published `DataShareProxyData` : Rust writes neither the two flags nor the maximum value
  length that C++ reads. What C++ takes for an item is always longer than what Rust wrote
  for it (`wireLength_of_sameData`), so C++ decodes no vector but the empty one
  (`decodedByCpp_iff`).
* a `DataProxyGetResult` : C++ writes multi-values behind the allow list, and Rust does not
  skip them. After the first result Rust reads from a place before the next one. It gets
  the results right exactly when it can hold them (`InRust`) and the bytes there happen to
  be theirs again (`Aligned`, `readByRust_iff`). For results with real URIs, that is when
  there is at most one (`aligned_iff_length_le_one`).
-/

namespace DataShare

/-! ## The two data models -/

def Rust.DataProxyValue.toCpp : Rust.DataProxyValue → Cpp.DataProxyValue
  | .int v => .int v
  | .double v => .double v
  | .string v => .string (utf8Bytes v)
  | .bool v => .bool v

/-- The enumerators that both have are the same numbers. -/
def Rust.DataProxyErrorCode.toCpp (code : Rust.DataProxyErrorCode) : UInt32 :=
  code.toI32.toUInt32

/-- The C++ item has the fields that the Rust item has and does not declare undefined, and
the default values of the fields that it lacks. -/
structure SameData (data : Rust.DataShareProxyData) (cpp : Cpp.DataShareProxyData) : Prop where
  uri : cpp.uri = utf8Bytes data.uri
  value : ¬data.isValueUndefined → cpp.value = data.value.toCpp
  allowList : ¬data.isAllowListUndefined → cpp.allowList = data.allowList.map utf8Bytes
  isValueUndefined : cpp.isValueUndefined = data.isValueUndefined
  isAllowListUndefined : cpp.isAllowListUndefined = data.isAllowListUndefined
  trustProviders : cpp.trustProviders = []
  multiValues : cpp.multiValues = .empty
  maxValueLength : cpp.maxValueLength = 4096
  isTrustProvidersUndefined : cpp.isTrustProvidersUndefined = false
  isMultiValues : cpp.isMultiValues = false

/-- The Rust result has the fields of the C++ result, but for the multi-values. -/
structure SameResult (cpp : Cpp.DataProxyGetResult) (rust : Rust.DataProxyGetResult) : Prop where
  uri : cpp.uri = utf8Bytes rust.uri
  result : cpp.result = rust.result.toCpp
  value : cpp.value = rust.value.toCpp
  allowList : cpp.allowList = rust.allowList.map utf8Bytes

/-- What Rust writes for the items is decoded to the same items by C++. -/
def DecodedByCpp (items : List Rust.DataShareProxyData) : Prop :=
  ∃ len blob datas, Rust.writeProxyDataVecToParcel items = [.int32 len, .rawData blob] ∧
    ((Cpp.unmarshalProxyDataVecToBuffer []).run ⟨blob, true⟩).1 = some datas ∧
      List.Forall₂ SameData items datas

/-- What Rust reads from the parcel are the results. -/
def ReadByRust (results : List Cpp.DataProxyGetResult) (parcel : Cpp.MessageParcel) : Prop :=
  List.Forall₂ SameResult results (Rust.readProxyGetResultVecFromParcel parcel.bytes)

/-! ## What Rust writes, as C++ writes it -/

theorem bufWriteString_eq (s : String) :
    Rust.bufWriteString s = Cpp.marshalStringToBuffer (utf8Bytes s) :=
  rfl

theorem bufWriteStringVec_eq (vec : List String) :
    Rust.bufWriteStringVec vec = Cpp.marshalStringVecToBuffer (vec.map utf8Bytes) := by
  rw [Rust.bufWriteStringVec, Rust.bufWriteUsize, Cpp.marshalStringVecToBuffer,
    Cpp.marshalVecToBuffer, vecBytes, List.length_map, List.flatMap_map]
  rfl

theorem bufWriteBool_eq (v : Bool) : Rust.bufWriteBool v = Cpp.marshalBasicTypeToBuffer v := by
  cases v <;> rfl

theorem bufWriteProxyValue_eq (value : Rust.DataProxyValue) :
    Rust.bufWriteProxyValue value = Cpp.marshalDataProxyValueToBuffer value.toCpp := by
  cases value with
  | int v => rfl
  | double v => rfl
  | string v => rfl
  | bool v =>
    rw [Rust.bufWriteProxyValue, bufWriteBool_eq]
    rfl

/-! ## The words of the C++ readers -/

namespace Cpp

instance : ExactFeed IStream where
  take_exact n bs w s h := by
    change (if n ≤ bs.length then (some (bs.take n), (⟨bs.drop n, true⟩ : IStream))
      else (none, ⟨[], false⟩)) = (some w, s) at h
    split at h
    · next hn =>
      obtain ⟨rfl, rfl⟩ : bs.take n = w ∧ (⟨bs.drop n, true⟩ : IStream) = s := by simpa using h
      exact ⟨by simpa using hn, bs.drop n, (List.take_append_drop n bs).symm, rfl⟩
    · simp at h

theorem spells_checkGood : Spells IStream.checkGood fun _ w => w = [] := by
  intro bs u s hrun
  obtain rfl : (⟨bs, true⟩ : IStream) = s := congrArg Prod.snd hrun
  exact ⟨[], bs, rfl, rfl, rfl⟩

theorem spells_string : Spells unmarshalStringToBuffer fun s w => w = marshalStringToBuffer s :=
  (spells_bytes maxIpcSize).mono fun _ _ h => h.2

theorem spells_stringVec :
    Spells unmarshalStringVecToBuffer fun l w => w = marshalStringVecToBuffer l := by
  refine (spells_vec spells_string).mono ?_
  rintro l _ ⟨-, ws, hws, rfl⟩
  rw [flatten_of_forall₂ hws]
  rfl

/-- The type of a value has many words, all of one length. -/
theorem spells_dataProxyValue :
    Spells unmarshalDataProxyValueFromBuffer fun value w =>
      w.length = (marshalDataProxyValueToBuffer value).length := by
  refine spells_size.bind ?_
  rintro typeId _ ⟨-, rfl⟩
  split
  · refine spells_basic.bind ?_
    rintro v w ⟨hlen, -⟩
    exact Spells.pure (by simp [marshalDataProxyValueToBuffer, DataProxyValue.marshalVal, hlen])
  · refine spells_basic.bind ?_
    rintro v w ⟨hlen, -⟩
    exact Spells.pure (by simp [marshalDataProxyValueToBuffer, DataProxyValue.marshalVal, hlen])
  · refine spells_string.bind ?_
    rintro v _ rfl
    exact Spells.pure (by simp [marshalDataProxyValueToBuffer, DataProxyValue.marshalVal])
  · refine spells_basic.bind ?_
    rintro v w ⟨hlen, -⟩
    exact Spells.pure (by simp [marshalDataProxyValueToBuffer, DataProxyValue.marshalVal, hlen])
  · exact Spells.fail _

theorem spells_multiValues (multiValues : MultiValues) :
    Spells (unmarshalMultiValuesFromBuffer multiValues) fun _ _ => True := by
  have hvalue : ∀ app (m : MultiValues),
      Spells (unmarshalAppValueFromBuffer app m) fun _ _ => True := by
    intro app m
    exact spells_string.bind fun _ _ _ => spells_dataProxyValue.bind fun _ _ _ =>
      Spells.pure trivial
  have happ : ∀ m : MultiValues, Spells (unmarshalAppFromBuffer m) fun _ _ => True := by
    intro m
    exact spells_string.bind fun app _ _ => spells_size.bind fun n _ _ =>
      Spells.ite (fun _ => Spells.fail _) fun _ => Spells.foldN (hvalue app) n m
  exact spells_size.bind fun n _ _ =>
    Spells.ite (fun _ => Spells.fail _) fun _ => Spells.foldN happ n multiValues

/-- The bytes an item takes at least, without its trusted providers and multi-values. -/
def DataShareProxyData.wireLength (data : DataShareProxyData) : ℕ :=
  (marshalStringToBuffer data.uri).length + 4 +
    (if data.isValueUndefined then 0 else (marshalDataProxyValueToBuffer data.value).length) +
      (if data.isAllowListUndefined then 0
        else (marshalStringVecToBuffer data.allowList).length) + 4

/-- A field that its flag may declare undefined. -/
theorem spells_flagged {α : Type} {p : Reader IStream α} {len : α → ℕ}
    (hp : Spells p fun a w => w.length = len a) (undefined : Bool) (a : α) :
    Spells (if undefined then pure a else p) fun b w =>
      w.length = if undefined then 0 else len b := by
  refine Spells.ite (fun h => Spells.pure ?_) fun h => hp.mono ?_
  · rw [if_pos h, List.length_nil]
  · intro b w hw
    rw [if_neg h, hw]

theorem spells_proxyData :
    Spells unmarshalProxyDataFromBuffer fun data w => data.wireLength ≤ w.length := by
  have hflag : Spells (unmarshalBasicTypeToBuffer Bool) fun _ w => w.length = 1 :=
    spells_basic.mono fun _ _ h => h.1
  have hlist : Spells unmarshalStringVecToBuffer fun l w =>
      w.length = (marshalStringVecToBuffer l).length :=
    spells_stringVec.mono fun _ _ h => congrArg List.length h
  have hmulti : ∀ (isMulti : Bool) (m : MultiValues),
      Spells (if isMulti then unmarshalMultiValuesFromBuffer m else pure m) fun _ _ => True :=
    fun isMulti m => Spells.ite (fun _ => spells_multiValues m) fun _ => Spells.pure trivial
  refine spells_string.bind ?_
  rintro uri _ rfl
  refine hflag.bind fun isValueUndefined _ h1 => hflag.bind fun isAllowListUndefined _ h2 =>
    hflag.bind fun isTrustProvidersUndefined _ h3 => hflag.bind fun isMultiValues _ h4 => ?_
  refine (spells_flagged spells_dataProxyValue _ _).bind fun value _ h5 =>
    (spells_flagged hlist _ _).bind fun allowList _ h6 =>
      (spells_flagged hlist _ _).bind fun trustProviders _ _ =>
        (hmulti _ _).bind fun multiValues _ _ => ?_
  refine (spells_basic (α := Int32)).bind fun maxValueLength _ h7 =>
    spells_checkGood.bind fun _ _ _ => Spells.pure ?_
  have h4bytes : BasicType.size Int32 = 4 := rfl
  simp only [DataShareProxyData.wireLength, List.length_append, h1, h2, h3, h4, h5, h6, h7.1,
    h4bytes]
  omega

end Cpp

/-! ## Published proxy data -/

/-- C++ reads two flags and a 32-bit length more than Rust writes. -/
theorem wireLength_of_sameData {data : Rust.DataShareProxyData} {cpp : Cpp.DataShareProxyData}
    (h : SameData data cpp) : cpp.wireLength = (Rust.bufWriteProxyData data).length + 6 := by
  have hvalue : (if cpp.isValueUndefined then 0
        else (Cpp.marshalDataProxyValueToBuffer cpp.value).length) =
      (if data.isValueUndefined then [] else Rust.bufWriteProxyValue data.value).length := by
    rw [h.isValueUndefined]
    split
    · rfl
    · next hdefined => rw [h.value hdefined, bufWriteProxyValue_eq]
  have hlist : (if cpp.isAllowListUndefined then 0
        else (Cpp.marshalStringVecToBuffer cpp.allowList).length) =
      (if data.isAllowListUndefined then [] else Rust.bufWriteStringVec data.allowList).length := by
    rw [h.isAllowListUndefined]
    split
    · rfl
    · next hdefined => rw [h.allowList hdefined, bufWriteStringVec_eq]
  have hflag : ∀ v, (Rust.bufWriteBool v).length = 1 := fun v => rfl
  simp only [Cpp.DataShareProxyData.wireLength, Rust.bufWriteProxyData, List.length_append, hvalue,
    hlist, hflag, h.uri, bufWriteString_eq]
  omega

/-- Decoded items took more bytes than were written for them. -/
theorem length_flatMap_le_of_sameData {items : List Rust.DataShareProxyData}
    {datas : List Cpp.DataShareProxyData} {ws : List (List UInt8)}
    (hsame : List.Forall₂ SameData items datas)
    (hws : List.Forall₂ (fun data w => data.wireLength ≤ w.length) datas ws) :
    (items.flatMap Rust.bufWriteProxyData).length + items.length ≤ ws.flatten.length := by
  induction hsame generalizing ws with
  | nil => simp
  | cons hdata _ ih =>
    cases hws with
    | cons hw hws =>
      have hitem := wireLength_of_sameData hdata
      have hrest := ih hws
      rw [List.flatMap_cons, List.length_append, List.flatten_cons, List.length_append,
        List.length_cons]
      omega

/-- C++ decodes what Rust writes for no items only. -/
theorem decodedByCpp_iff (items : List Rust.DataShareProxyData) :
    DecodedByCpp items ↔ items = [] := by
  constructor
  · rintro ⟨len, blob, datas, hparcel, hrun, hsame⟩
    obtain rfl : Rust.proxyDataVecBlob items = blob := by
      rw [Rust.writeProxyDataVecToParcel] at hparcel
      simp at hparcel
      exact hparcel.2
    have hvec : Spells (Cpp.unmarshalProxyDataVecToBuffer []) fun datas w =>
        ∃ ws, List.Forall₂ (fun data w => data.wireLength ≤ w.length) datas ws ∧
          w = sizeBytes datas.length ++ ws.flatten := by
      refine (spells_boundedVec _ Cpp.spells_proxyData).bind ?_
      rintro datas _ ⟨-, ws, hws, rfl⟩
      refine Cpp.spells_checkGood.bind ?_
      rintro _ _ rfl
      refine Spells.pure ?_
      rw [List.nil_append, List.append_nil, List.append_nil]
      exact ⟨ws, hws, rfl⟩
    rw [← Cpp.IStream.feed_eq] at hrun
    generalize hout : (Cpp.unmarshalProxyDataVecToBuffer []).run
      (ByteFeed.feed (Rust.proxyDataVecBlob items)) = out at hrun
    obtain ⟨o, s⟩ := out
    obtain rfl : o = some datas := hrun
    obtain ⟨_, rest, ⟨ws, hws, rfl⟩, hbytes, -⟩ := hvec _ _ _ hout
    have hmore := length_flatMap_le_of_sameData hsame hws
    have hlen := congrArg List.length hbytes
    simp only [Rust.proxyDataVecBlob, Rust.bufWriteUsize, List.length_append,
      length_sizeBytes] at hlen
    exact List.length_eq_zero_iff.mp (by omega)
  · rintro rfl
    exact ⟨8, _, [], rfl, rfl, .nil⟩

/-! ## The results of a reply -/

namespace Cpp

/-- The bytes that Rust reads as the value. -/
def DataProxyValue.RustWord (value : DataProxyValue) (w : List UInt8) : Prop :=
  match value with
  | .bool val => ∃ byte : UInt8, val = (byte != 0) ∧ w = marshalSizeToBuffer 3 ++ [byte]
  | value => w = marshalDataProxyValueToBuffer value

/-- The bytes that Rust reads as the result. Above four it knows no codes. -/
def DataProxyGetResult.RustWord (result : DataProxyGetResult) (w : List UInt8) : Prop :=
  ∃ (code : UInt32) (value : List UInt8), result.result = (if code < 4 then code else 4) ∧
    result.value.RustWord value ∧
      w = marshalStringToBuffer result.uri ++ (marshalBasicTypeToBuffer code ++
        (value ++ marshalStringVecToBuffer result.allowList))

/-- Rust has a result with these fields. -/
structure DataProxyGetResult.InRust (cpp : DataProxyGetResult) : Prop where
  uri : (fromUtf8 cpp.uri).isSome
  result : cpp.result ≤ 4
  value : ∀ val, cpp.value = .string val → (fromUtf8 val).isSome
  allowList : ∀ s ∈ cpp.allowList, (fromUtf8 s).isSome

end Cpp

/-- The results without their multi-values, one after the other, are what the message starts
with. -/
def Aligned (results : List Cpp.DataProxyGetResult) : Prop :=
  ∃ words, List.Forall₂ Cpp.DataProxyGetResult.RustWord results words ∧
    words.flatten <+: results.flatMap Cpp.marshalDataProxyGetResultToBuffer

theorem exists_utf8Bytes_eq {bs : List UInt8} (h : (fromUtf8 bs).isSome) :
    ∃ s, bs = utf8Bytes s := by
  obtain ⟨s, hs⟩ := Option.isSome_iff_exists.mp h
  exact ⟨s, (utf8Bytes_of_fromUtf8 hs).symm⟩

theorem exists_map_utf8Bytes_eq : ∀ {l : List (List UInt8)}, (∀ bs ∈ l, (fromUtf8 bs).isSome) →
    ∃ vec : List String, l = vec.map utf8Bytes
  | [], _ => ⟨[], rfl⟩
  | bs :: l, h => by
    obtain ⟨s, rfl⟩ := exists_utf8Bytes_eq (h bs List.mem_cons_self)
    obtain ⟨vec, rfl⟩ := exists_map_utf8Bytes_eq fun bs hbs => h bs (List.mem_cons_of_mem _ hbs)
    exact ⟨s :: vec, rfl⟩

theorem exists_toCpp_eq {result : UInt32} (h : result ≤ 4) :
    ∃ code : Rust.DataProxyErrorCode, result = code.toCpp := by
  have hle : result.toNat ≤ 4 := h
  have hcode : ∀ n (code : Rust.DataProxyErrorCode), code.toCpp.toNat = n → result.toNat = n →
      ∃ code : Rust.DataProxyErrorCode, result = code.toCpp :=
    fun n code hn hr => ⟨code, UInt32.toNat_inj.mp (hr.trans hn.symm)⟩
  have hcases : result.toNat = 0 ∨ result.toNat = 1 ∨ result.toNat = 2 ∨ result.toNat = 3 ∨
      result.toNat = 4 := by omega
  rcases hcases with hn | hn | hn | hn | hn
  · exact hcode 0 .success rfl hn
  · exact hcode 1 .uriNotExist rfl hn
  · exact hcode 2 .noPermission rfl hn
  · exact hcode 3 .overLimit rfl hn
  · exact hcode 4 .innerError rfl hn

theorem exists_sameResult {cpp : Cpp.DataProxyGetResult} (h : cpp.InRust) :
    ∃ rust, SameResult cpp rust := by
  obtain ⟨uri, huri⟩ := exists_utf8Bytes_eq h.uri
  obtain ⟨code, hcode⟩ := exists_toCpp_eq h.result
  obtain ⟨allowList, hallow⟩ := exists_map_utf8Bytes_eq h.allowList
  have hvalue : ∃ value : Rust.DataProxyValue, cpp.value = value.toCpp := by
    cases hv : cpp.value with
    | int v => exact ⟨.int v, rfl⟩
    | double v => exact ⟨.double v, rfl⟩
    | string v =>
      obtain ⟨s, rfl⟩ := exists_utf8Bytes_eq (h.value v hv)
      exact ⟨.string s, rfl⟩
    | bool v => exact ⟨.bool v, rfl⟩
  obtain ⟨value, hvalue⟩ := hvalue
  exact ⟨⟨uri, code, value, allowList⟩, huri, hcode, hvalue, hallow⟩

theorem SameResult.inRust {cpp : Cpp.DataProxyGetResult} {rust : Rust.DataProxyGetResult}
    (h : SameResult cpp rust) : cpp.InRust where
  uri := by rw [h.uri, fromUtf8_utf8Bytes]; rfl
  result := by
    rw [h.result]
    cases rust.result <;> decide
  value val hval := by
    rw [h.value] at hval
    cases hv : rust.value with
    | string s =>
      rw [hv] at hval
      obtain rfl : utf8Bytes s = val := Cpp.DataProxyValue.string.inj hval
      rw [fromUtf8_utf8Bytes]
      rfl
    | _ =>
      rw [hv] at hval
      cases hval
  allowList s hs := by
    rw [h.allowList] at hs
    obtain ⟨t, -, rfl⟩ := List.mem_map.mp hs
    rw [fromUtf8_utf8Bytes]
    rfl

theorem toCpp_fromI32 (code : Int32) :
    (Rust.DataProxyErrorCode.fromI32 code).toCpp =
      if code.toUInt32 < 4 then code.toUInt32 else 4 := by
  have hword : ∀ k : Int32, code.toUInt32 = k.toUInt32 → code = k :=
    fun k h => Int32.toBitVec_inj.mp (congrArg UInt32.toBitVec h)
  rw [Rust.DataProxyErrorCode.fromI32]
  split
  · next h => subst h; rfl
  split
  · next h => subst h; rfl
  split
  · next h => subst h; rfl
  split
  · next h => subst h; rfl
  · next h0 h1 h2 h3 =>
    rw [if_neg, Rust.DataProxyErrorCode.toCpp]
    · rfl
    · intro hlt
      have hnat : code.toUInt32.toNat < 4 := hlt
      have hk : ∀ k : UInt32, k.toNat = code.toUInt32.toNat → code.toUInt32 = k :=
        fun k hk => UInt32.toNat_inj.mp hk.symm
      have hcases : code.toUInt32.toNat = 0 ∨ code.toUInt32.toNat = 1 ∨
          code.toUInt32.toNat = 2 ∨ code.toUInt32.toNat = 3 := by omega
      rcases hcases with hn | hn | hn | hn
      · exact h0 (hword 0 (hk 0 hn.symm))
      · exact h1 (hword 1 (hk 1 hn.symm))
      · exact h2 (hword 2 (hk 2 hn.symm))
      · exact h3 (hword 3 (hk 3 hn.symm))

theorem toCpp_errorCode_injective : Function.Injective Rust.DataProxyErrorCode.toCpp := by
  intro a b h
  revert h
  cases a <;> cases b <;> decide

theorem rustWord_value_iff (value : Rust.DataProxyValue) (w : List UInt8) :
    value.toCpp.RustWord w ↔ value.Word w := by
  cases value with
  | bool v => exact Iff.rfl
  | int v => exact Iff.rfl
  | double v => exact Iff.rfl
  | string v => exact Iff.rfl

/-- Rust reads the result from its words. -/
theorem SameResult.rustWord_iff {cpp : Cpp.DataProxyGetResult} {rust : Rust.DataProxyGetResult}
    (h : SameResult cpp rust) (w : List UInt8) : cpp.RustWord w ↔ rust.Word w := by
  simp only [Cpp.DataProxyGetResult.RustWord, Rust.DataProxyGetResult.Word, h.uri, h.result,
    h.value, h.allowList, rustWord_value_iff, bufWriteString_eq, bufWriteStringVec_eq]
  constructor
  · rintro ⟨code, value, hcode, hvalue, rfl⟩
    refine ⟨⟨code⟩, value, toCpp_errorCode_injective ?_, hvalue, rfl⟩
    rw [toCpp_fromI32, hcode]
  · rintro ⟨code, value, hcode, hvalue, rfl⟩
    refine ⟨code.toUInt32, value, ?_, hvalue, rfl⟩
    rw [← hcode, toCpp_fromI32]

theorem forall₂_rustWord_iff {results : List Cpp.DataProxyGetResult}
    {rusts : List Rust.DataProxyGetResult} (h : List.Forall₂ SameResult results rusts)
    (words : List (List UInt8)) :
    List.Forall₂ Cpp.DataProxyGetResult.RustWord results words ↔
      List.Forall₂ Rust.DataProxyGetResult.Word rusts words := by
  induction h generalizing words with
  | nil => simp [List.forall₂_nil_left_iff]
  | cons hr _ ih => simp only [List.forall₂_cons_left_iff, hr.rustWord_iff, ih]

theorem exists_forall₂_sameResult {results : List Cpp.DataProxyGetResult}
    (h : ∀ r ∈ results, r.InRust) : ∃ rusts, List.Forall₂ SameResult results rusts := by
  induction results with
  | nil => exact ⟨[], .nil⟩
  | cons r results ih =>
    obtain ⟨rust, hr⟩ := exists_sameResult (h r List.mem_cons_self)
    obtain ⟨rusts, hrs⟩ := ih fun q hq => h q (List.mem_cons_of_mem r hq)
    exact ⟨rust :: rusts, .cons hr hrs⟩

/-- The loop over the results starts behind their number. -/
theorem readProxyGetResultVec_vecBytes {ι : Type} (enc : ι → List UInt8) {l : List ι}
    (hlen : l.length < 2 ^ 64) :
    Rust.readProxyGetResultVec (vecBytes enc l) =
      Rust.bufReadProxyGetResult.collect l.length ⟨l.flatMap enc⟩ := by
  have hcount : Rust.bufReadUsize.run ⟨vecBytes enc l⟩ = (some l.length, ⟨l.flatMap enc⟩) :=
    reads_size hlen _
  rw [Rust.readProxyGetResultVec, hcount]

/-- The buffer that C++ has written is handed to the loop whole. -/
theorem readProxyGetResultVecFromParcel_of_marshal {str : List UInt8} {parcel : Cpp.MessageParcel}
    (h : Cpp.marshalRawBuffer str = some parcel) (hpos : 0 < str.length) :
    Rust.readProxyGetResultVecFromParcel parcel.bytes = Rust.readProxyGetResultVec str := by
  have hmax := Cpp.length_le_of_marshalRawBuffer h
  rw [Cpp.marshalRawBuffer, if_neg (by omega)] at h
  obtain rfl : [.int32 (Int32.ofNat str.length), .rawData str] = parcel := Option.some.inj h
  have hint : (Int32.ofNat str.length).toInt = str.length :=
    Int32.toInt_ofNat_of_lt (lt_of_le_of_lt hmax (by decide))
  have hnonneg : ¬Int32.ofNat str.length ≤ 0 := by
    rw [Int32.le_iff_toInt_le, hint, show (0 : Int32).toInt = 0 from rfl]
    omega
  have hraw : Reads (Rust.Cursor.readExact (Int32.ofNat str.length).toInt.toNat) str str := by
    rw [hint, Int.toNat_natCast]
    exact ByteFeed.run_take str
  have hlength := reads_basic (σ := Rust.Cursor) (Int32.ofNat str.length)
  have hread : Reads Rust.readRaw
      (basicBytes (Int32.ofNat str.length) ++ (basicBytes (Int32.ofNat str.length) ++ str)) str := by
    refine hlength.bind ?_
    rw [if_neg hnonneg]
    exact hlength.bind hraw
  have hbytes : Cpp.MessageParcel.bytes [.int32 (Int32.ofNat str.length), .rawData str] =
      basicBytes (Int32.ofNat str.length) ++ (basicBytes (Int32.ofNat str.length) ++ str) := by
    simp [Cpp.MessageParcel.bytes]
  have hrun := hread []
  rw [List.append_nil, Rust.Cursor.feed_eq] at hrun
  rw [Rust.readProxyGetResultVecFromParcel, Rust.rawOf, hbytes, hrun]

/-- Exactly which replies Rust reads as they were sent. -/
theorem readByRust_iff (results : List Cpp.DataProxyGetResult) (parcel : Cpp.MessageParcel)
    (h : Cpp.marshalDataProxyGetResultVec results = some parcel) :
    ReadByRust results parcel ↔ (∀ r ∈ results, r.InRust) ∧ Aligned results := by
  have hpos : 0 < (Cpp.marshalDataProxyGetResultVecToBuffer results).length := by
    rw [Cpp.marshalDataProxyGetResultVecToBuffer, Cpp.length_marshalVecToBuffer]
    omega
  have hmax := Cpp.length_le_of_marshalRawBuffer h
  obtain ⟨hlen, -⟩ :=
    Cpp.fits_of_marshalVecToBuffer Cpp.length_marshalDataProxyGetResultToBuffer_pos hmax
  have hbytes : (results.flatMap Cpp.marshalDataProxyGetResultToBuffer).length < 2 ^ 64 := by
    have hsize := Cpp.maxIpcSize_lt
    rw [Cpp.marshalDataProxyGetResultVecToBuffer, Cpp.length_marshalVecToBuffer] at hmax
    omega
  rw [ReadByRust, readProxyGetResultVecFromParcel_of_marshal h hpos,
    Cpp.marshalDataProxyGetResultVecToBuffer, Cpp.marshalVecToBuffer,
    readProxyGetResultVec_vecBytes _ hlen]
  constructor
  · intro hsame
    have hall := (List.forall₂_and_left _ _).mp (hsame.imp fun _ _ h => ⟨h.inRust, h⟩)
    refine ⟨hall.1, ?_⟩
    have hcount := hsame.length_eq
    generalize hread : Rust.bufReadProxyGetResult.collect results.length
      ⟨results.flatMap Cpp.marshalDataProxyGetResultToBuffer⟩ = rusts at hsame hcount
    rw [hcount] at hread
    obtain ⟨s, hrun⟩ := (Reader.collect_eq_iff _).mp hread
    obtain ⟨_, rest, ⟨-, words, hwords, rfl⟩, hprefix, -⟩ :=
      Rust.spells_proxyGetResult.readN _ _ _ _ hrun
    exact ⟨words, (forall₂_rustWord_iff hsame words).mpr hwords, rest, hprefix.symm⟩
  · rintro ⟨hall, words, hwords, rest, hrest⟩
    obtain ⟨rusts, hsame⟩ := exists_forall₂_sameResult hall
    have hfits : words.flatten.length < 2 ^ 64 := by
      have hle := congrArg List.length hrest
      rw [List.length_append] at hle
      omega
    have hreads := reads_readN_words (Rust.reads_proxyGetResult_words
      ((forall₂_rustWord_iff hsame words).mp hwords) hfits)
    have hread := (Reader.collect_eq_iff _).mpr ⟨_, hreads rest⟩
    rw [hrest, ← hsame.length_eq] at hread
    exact hread ▸ hsame

/-! ## Which replies are aligned -/

/-- A URI of at least two bytes, none of them zero. -/
def Cpp.RealUri (uri : Cpp.StdString) : Prop :=
  2 ≤ uri.length ∧ 0 ∉ uri

/-- A result without its multi-values. -/
def Cpp.DataProxyGetResult.fields (result : Cpp.DataProxyGetResult) : List UInt8 :=
  Cpp.marshalStringToBuffer result.uri ++ (Cpp.marshalBasicTypeToBuffer result.result ++
    (Cpp.marshalDataProxyValueToBuffer result.value ++
      Cpp.marshalStringVecToBuffer result.allowList))

theorem marshalDataProxyGetResultToBuffer_eq (result : Cpp.DataProxyGetResult) :
    Cpp.marshalDataProxyGetResultToBuffer result =
      result.fields ++ Cpp.marshalDataProxyValueVecToBuffer result.multiValues := by
  simp [Cpp.marshalDataProxyGetResultToBuffer, Cpp.DataProxyGetResult.fields]

theorem Cpp.DataProxyGetResult.length_rustWord {result : Cpp.DataProxyGetResult} {w : List UInt8}
    (h : result.RustWord w) : w.length = result.fields.length := by
  obtain ⟨code, value, -, hvalue, rfl⟩ := h
  have hlen : value.length = (Cpp.marshalDataProxyValueToBuffer result.value).length := by
    cases hv : result.value with
    | bool v =>
      rw [hv] at hvalue
      obtain ⟨byte, -, rfl⟩ := hvalue
      rfl
    | _ => rw [hv] at hvalue; exact congrArg List.length hvalue
  simp [Cpp.DataProxyGetResult.fields, hlen]

theorem Cpp.DataProxyGetResult.rustWord_fields {result : Cpp.DataProxyGetResult}
    (h : result.result ≤ 4) : result.RustWord result.fields := by
  refine ⟨result.result, Cpp.marshalDataProxyValueToBuffer result.value, ?_, ?_, rfl⟩
  · split
    · rfl
    · next hge => exact UInt32.le_antisymm h (UInt32.not_lt.mp hge)
  · cases result.value with
    | bool v => exact ⟨if v then 1 else 0, by cases v <;> rfl, by cases v <;> rfl⟩
    | _ => rfl

/-- The second byte of a small count is zero. -/
theorem getElem?_sizeBytes_append {n : ℕ} (hn : n < 256) (bs : List UInt8) :
    (sizeBytes n ++ bs)[1]? = some 0 := by
  have hsmall : (UInt64.ofNat n).toNat = n := UInt64.toNat_ofNat_of_lt' (by change n < 2 ^ 64; omega)
  have hdiv : n / 256 = 0 := by omega
  have hbytes : sizeBytes n = UInt8.ofNat n :: 0 :: leBytes 6 0 := by
    change leBytes 8 (UInt64.ofNat n).toNat = _
    rw [hsmall, leBytes, leBytes, hdiv]
    rfl
  rw [hbytes]
  rfl

/-- What follows the count of the multi-values has a zero as its second byte, be it a value
or, if there is none, a result with an empty URI. -/
theorem getElem?_multiValues_append {values : List Cpp.DataProxyValue} {bs : List UInt8}
    (h : values = [] → bs[1]? = some 0) :
    (values.flatMap Cpp.marshalDataProxyValueToBuffer ++ bs)[1]? = some 0 := by
  cases values with
  | nil => exact h rfl
  | cons v values =>
    have hindex : v.index < 256 := by cases v <;> simp [Cpp.DataProxyValue.index]
    rw [List.flatMap_cons, Cpp.marshalDataProxyValueToBuffer, Cpp.marshalSizeToBuffer,
      List.append_assoc, List.append_assoc]
    exact getElem?_sizeBytes_append hindex _

/-- A second result is never where Rust looks for it, if it has a real URI. -/
theorem not_aligned {r₁ r₂ : Cpp.DataProxyGetResult} {results : List Cpp.DataProxyGetResult}
    (huri : Cpp.RealUri r₂.uri) : ¬Aligned (r₁ :: r₂ :: results) := by
  rintro ⟨words, hwords, rest, hrest⟩
  obtain ⟨w₁, ws, hw₁, hws, rfl⟩ := List.forall₂_cons_left_iff.mp hwords
  obtain ⟨w₂, ws, hw₂, -, rfl⟩ := List.forall₂_cons_left_iff.mp hws
  obtain ⟨code, value, -, -, rfl⟩ := hw₂
  simp only [List.flatten_cons, List.flatMap_cons, marshalDataProxyGetResultToBuffer_eq,
    List.append_assoc] at hrest
  -- Rust takes the first result from its own bytes and goes on at its multi-values
  have hshift := (List.append_inj hrest (Cpp.DataProxyGetResult.length_rustWord hw₁)).2
  simp only [Cpp.marshalStringToBuffer, stringBytes, Cpp.marshalDataProxyValueVecToBuffer,
    Cpp.marshalVecToBuffer, vecBytes, List.append_assoc] at hshift
  obtain ⟨hcount, hbytes⟩ := List.append_inj hshift (by simp)
  have hsecond : r₂.uri[1]? = some 0 := by
    have hget := congrArg (·[1]?) hbytes
    simp only [List.getElem?_append_left huri.1] at hget
    rw [hget]
    refine getElem?_multiValues_append fun hnil => ?_
    have hzero : sizeBytes r₂.uri.length = sizeBytes 0 := by rw [hcount, hnil]; rfl
    simp only [Cpp.DataProxyGetResult.fields, Cpp.marshalStringToBuffer, stringBytes, hzero,
      List.append_assoc]
    exact getElem?_sizeBytes_append (by decide) _
  exact huri.2 (List.mem_of_getElem? hsecond)

theorem aligned_iff_length_le_one {results : List Cpp.DataProxyGetResult}
    (huri : ∀ r ∈ results, Cpp.RealUri r.uri) (hcode : ∀ r ∈ results, r.result ≤ 4) :
    Aligned results ↔ results.length ≤ 1 := by
  rcases results with _ | ⟨r₁, _ | ⟨r₂, results⟩⟩
  · exact iff_of_true ⟨[], .nil, List.nil_prefix⟩ (by simp)
  · refine iff_of_true ⟨[r₁.fields], .cons ?_ .nil, ?_⟩ (by simp)
    · exact Cpp.DataProxyGetResult.rustWord_fields (hcode r₁ (by simp))
    · rw [List.flatten_singleton, List.flatMap_singleton, marshalDataProxyGetResultToBuffer_eq]
      exact List.prefix_append _ _
  · exact iff_of_false (not_aligned (huri r₂ (by simp))) (by simp)

/-- When Rust and C++ agree on the proxy-data messages. For results that Rust can hold and
whose URIs are real, the last condition is that there is at most one. -/
theorem proxyData_wire_iff (items : List Rust.DataShareProxyData)
    (results : List Cpp.DataProxyGetResult) :
    (DecodedByCpp items ∧
          (∀ parcel, Cpp.marshalDataProxyGetResultVec results = some parcel →
            ReadByRust results parcel) ↔
        items = [] ∧ ((Cpp.marshalDataProxyGetResultVec results).isSome →
          (∀ r ∈ results, r.InRust) ∧ Aligned results)) ∧
      ((∀ r ∈ results, r.InRust ∧ Cpp.RealUri r.uri) →
        (Aligned results ↔ results.length ≤ 1)) := by
  refine ⟨?_, fun h => aligned_iff_length_le_one (fun r hr => (h r hr).2)
    fun r hr => (h r hr).1.result⟩
  rw [decodedByCpp_iff]
  refine and_congr_right fun _ => ?_
  constructor
  · intro h hsome
    obtain ⟨parcel, hparcel⟩ := Option.isSome_iff_exists.mp hsome
    exact (readByRust_iff results parcel hparcel).mp (h parcel hparcel)
  · intro h parcel hparcel
    exact (readByRust_iff results parcel hparcel).mpr (h (by rw [hparcel]; rfl))

/-- A result with the given URI and the value 7. -/
def sevenResult (uri : String) : Cpp.DataProxyGetResult :=
  ⟨utf8Bytes uri, 0, .int 7, [], []⟩

theorem proxyData_wire_iff_one :
    Aligned [sevenResult "datashareproxy://a/x"] ↔
      [sevenResult "datashareproxy://a/x"].length ≤ 1 := by
  refine (proxyData_wire_iff [] [sevenResult "datashareproxy://a/x"]).2 ?_
  intro r hr
  obtain rfl := List.mem_singleton.mp hr
  exact ⟨⟨by decide +kernel, by decide, by simp [sevenResult], by simp [sevenResult]⟩,
    by decide +kernel, by decide +kernel⟩

/-- C++ refuses one published item, and of two results Rust reads only the first. -/
theorem not_proxyData_wire :
    ¬((∀ items, DecodedByCpp items) ∧
      ∀ results parcel, Cpp.marshalDataProxyGetResultVec results = some parcel →
        ReadByRust results parcel) ∧
    ((Cpp.unmarshalProxyDataVecToBuffer []).run
        ⟨Rust.proxyDataVecBlob [{ uri := "datashareproxy://a/x" }], true⟩).1 = none ∧
    ((Cpp.marshalDataProxyGetResultVec [sevenResult "datashareproxy://a/x",
        sevenResult "datashareproxy://a/y"]).map fun parcel =>
          Rust.readProxyGetResultVecFromParcel parcel.bytes) =
      some [⟨"datashareproxy://a/x", .success, .int 7, []⟩] := by
  refine ⟨?_, by decide +kernel, by decide +kernel⟩
  rintro ⟨hitems, -⟩
  exact absurd ((decodedByCpp_iff [{ uri := "datashareproxy://a/x" }]).mp (hitems _)) (by simp)

end DataShare
