import DataShare.PredicatesFields

/-!
# The two wire paths of predicates

What `unmarshal_predicates_from_buffer` and `deserialize` make of one message : each is the
`decode` of its path, and each refuses a stream that ends within the message
(`decodes_buffer`, `decodes_parcel`). The buffer has counts of 64 bits, which are never
exhausted, and the parcel counts of 32 bits with a sign (`WirePredicates.Counted`).
-/

namespace DataShare

namespace Rust

open MsgParcel (ofFields)

/-! ## The buffer path -/

theorem consumes_readExact (bs : List UInt8) :
    Consumes Cursor.mk (Cursor.readExact bs.length) bs bs where
  whole rest := by simp [Cursor.readExact]
  short s t h ht := by
    have hlen : 0 < t.length := List.length_pos_iff.mpr ht
    have hbs : bs.length = s.length + t.length := by rw [h, List.length_append]
    have hn : ¬bs.length ≤ s.length := by omega
    simp [Cursor.readExact, hn]

theorem consumes_basic {α : Type} [BasicType α] (a : α) :
    Consumes Cursor.mk (readBasic Cursor α) (writeBasic a) a := by
  have h := (consumes_readExact (basicBytes a)).decodes.map (ofBasicBytes (α := α))
  rw [length_basicBytes, Option.map_some, ofBasicBytes_basicBytes] at h
  exact h

theorem consumes_size {n : ℕ} (hn : n < 2 ^ 64) :
    Consumes Cursor.mk (readSize Cursor) (sizeBytes n) n := by
  have h := (consumes_basic (UInt64.ofNat n)).decodes.map UInt64.toNat
  rw [Option.map_some, UInt64.toNat_ofNat_of_lt' hn] at h
  exact h

theorem decodes_string (s : String) (hs : (utf8Bytes s).length < 2 ^ 64) :
    Decodes Cursor.mk readString (writeString s) (decodeString (some maxIpcSize) s) := by
  have hbytes : Decodes Cursor.mk (readBytes Cursor maxIpcSize) (writeString s)
      (if (utf8Bytes s).length > maxIpcSize then none else some (utf8Bytes s)) := by
    refine (consumes_size hs).bind ?_
    by_cases hlimit : (utf8Bytes s).length > maxIpcSize
    · rw [if_pos hlimit, if_pos hlimit]
      exact Refuses.fail _
    · rw [if_neg hlimit, if_neg hlimit]
      exact consumes_readExact _
  have h := hbytes.bind fun buf _ => Decodes.ofOption (fromUtf8 buf)
  rw [List.append_nil] at h
  unfold decodeString
  by_cases hlimit : (utf8Bytes s).length > maxIpcSize
  · rw [if_pos hlimit] at h
    rwa [if_neg (by rw [allows_some]; omega)]
  · rw [if_neg hlimit, Option.bind_some, fromUtf8_utf8Bytes] at h
    rwa [if_pos (by rw [allows_some]; omega)]

section Buffer

variable {ι α : Type} {enc : ι → List UInt8} {p : Reader Cursor α} {dec : ι → Option α} {l : List ι}

/-- A list behind its count, as part of a buffer. -/
theorem decodes_vec (hpos : ∀ x ∈ l, 0 < (enc x).length) (hlen : (vecBytes enc l).length < 2 ^ 64)
    (h : ∀ x ∈ l, (enc x).length < 2 ^ 64 → Decodes Cursor.mk p (enc x) (dec x)) :
    Decodes Cursor.mk (readVec p) (vecBytes enc l) (l.mapM dec) := by
  obtain ⟨hcount, hitem⟩ := bounds_of_vecBytes hpos
  exact (consumes_size (hcount.trans_lt hlen)).bind
    (Decodes.readN fun x hx => h x hx ((hitem x hx).trans_lt hlen))

end Buffer

theorem mapM_some {α : Type} (l : List α) : l.mapM some = some l :=
  calc
    l.mapM some = some (l.map id) := mapM_eq_some_map fun _ _ => rfl
    _ = some l := by rw [List.map_id]

theorem decodes_basicVec {α : Type} [BasicType α] (hsize : 0 < BasicType.size α) (vs : List α)
    (hlen : (vecBytes writeBasic vs).length < 2 ^ 64) :
    Decodes Cursor.mk (readBasicVec α) (vecBytes writeBasic vs)
      (decodeBasics (some maxIpcSize) vs) := by
  have hcount : vs.length < 2 ^ 64 :=
    (length_le_of_basicVec hsize le_rfl).trans_lt ((Nat.div_le_self _ _).trans_lt hlen)
  unfold decodeBasics
  refine (consumes_size hcount).bind ?_
  by_cases hlimit : vs.length > maxIpcSize / BasicType.size α
  · rw [if_pos hlimit, if_neg (by rw [Option.map_some, allows_some]; omega)]
    exact Refuses.fail _
  · rw [if_neg hlimit, if_pos (by rw [Option.map_some, allows_some]; omega)]
    have h := Decodes.readN (l := vs) fun v _ => (consumes_basic v).decodes
    rwa [mapM_some] at h

theorem decodes_strings (vs : List String) (hlen : (writeStringVec vs).length < 2 ^ 64) :
    Decodes Cursor.mk readStringVec (writeStringVec vs)
      (vs.mapM (decodeString (some maxIpcSize))) := by
  refine decodes_vec (fun s _ => length_writeString_pos s) hlen fun s _ hs => ?_
  rw [writeString, length_stringBytes] at hs
  exact decodes_string s (by omega)

theorem decodes_single (v : WireSingle) (hlen : (bufferBytes v.fields).length < 2 ^ 64) :
    Decodes Cursor.mk readSingleValue (bufferBytes v.fields) (v.decode (some maxIpcSize)) := by
  have htag := fun tag : UInt8 => consumes_basic tag
  cases v <;> simp only [WireSingle.fields, WireField.bytes, bufferBytes_cons, bufferBytes_nil,
    List.append_nil] at hlen ⊢
  case null => exact (htag singleTypeNull).bind_nil (Consumes.pure SingleValue.null)
  case int v => exact (htag singleTypeInt).bind ((consumes_basic v).decodes.map SingleValue.int)
  case double v =>
    exact (htag singleTypeDouble).bind ((consumes_basic v).decodes.map SingleValue.double)
  case string v =>
    rw [List.length_append, writeString, length_stringBytes] at hlen
    exact (htag singleTypeString).bind ((decodes_string v (by omega)).map SingleValue.string)
  case bool v => exact (htag singleTypeBool).bind ((consumes_basic v).decodes.map SingleValue.bool)
  case long v => exact (htag singleTypeLong).bind ((consumes_basic v).decodes.map SingleValue.long)
  case unknown tag h =>
    have hne : ∀ k, k ≤ singleTypeLong → tag ≠ k := fun k hk heq =>
      absurd (heq ▸ h) (UInt8.not_lt.mpr hk)
    refine (htag tag).bind_nil ?_
    rw [if_neg (hne _ (by decide)), if_neg (hne _ (by decide)), if_neg (hne _ (by decide)),
      if_neg (hne _ (by decide)), if_neg (hne _ (by decide)), if_neg (hne _ (by decide))]
    exact Refuses.fail _

theorem decodes_multi (m : WireMulti) (hlen : (bufferBytes m.fields).length < 2 ^ 64) :
    Decodes Cursor.mk readMultiValue (bufferBytes m.fields) (m.decode (some maxIpcSize)) := by
  have htag := fun tag : UInt8 => consumes_basic tag
  cases m <;> simp only [WireMulti.fields, WireField.bytes, bufferBytes_cons, bufferBytes_nil,
    List.append_nil, List.length_append] at hlen ⊢
  case null => exact (htag multiTypeNull).bind_nil (Consumes.pure [])
  case ints vs =>
    rw [bufferBytes_countedBasic fun _ => rfl] at hlen ⊢
    exact (htag multiTypeIntVec).bind
      ((decodes_basicVec (by decide) vs (by omega)).map (List.map SingleValue.int))
  case longs vs =>
    rw [bufferBytes_countedBasic fun _ => rfl] at hlen ⊢
    exact (htag multiTypeLongVec).bind
      ((decodes_basicVec (by decide) vs (by omega)).map (List.map SingleValue.long))
  case doubles vs =>
    rw [bufferBytes_countedBasic fun _ => rfl] at hlen ⊢
    exact (htag multiTypeDoubleVec).bind
      ((decodes_basicVec (by decide) vs (by omega)).map (List.map SingleValue.double))
  case strings vs =>
    rw [bufferBytes_countedStrings] at hlen ⊢
    exact (htag multiTypeStringVec).bind
      ((decodes_strings vs (by omega)).map (List.map SingleValue.string))
  case unknown tag h =>
    have hne : ∀ k, k ≤ multiTypeStringVec → tag ≠ k := fun k hk heq =>
      absurd (heq ▸ h) (UInt8.not_lt.mpr hk)
    refine (htag tag).bind_nil ?_
    rw [if_neg (hne _ (by decide)), if_neg (hne _ (by decide)), if_neg (hne _ (by decide)),
      if_neg (hne _ (by decide)), if_neg (hne _ (by decide))]
    exact Refuses.fail _

theorem length_singleFields_pos (v : WireSingle) : 0 < (bufferBytes v.fields).length := by
  cases v <;> simp [WireSingle.fields, WireField.bytes, writeBasic, BasicType.size]

theorem length_multiFields_pos (m : WireMulti) : 0 < (bufferBytes m.fields).length := by
  cases m <;> simp [WireMulti.fields, WireField.bytes, writeBasic, BasicType.size]

theorem length_itemFields_pos (item : WireItem) : 0 < (bufferBytes item.fields).length := by
  simp [WireItem.fields, WireField.bytes, writeBasic, BasicType.size]

theorem decodes_item (item : WireItem) (hlen : (bufferBytes item.fields).length < 2 ^ 64) :
    Decodes Cursor.mk readOperationItem (bufferBytes item.fields) (item.decode bufferPath) := by
  simp only [WireItem.fields, bufferBytes_cons, bufferBytes_append, bufferBytes_counted,
    List.length_append] at hlen ⊢
  have hsingles := decodes_vec (l := item.singles) (fun v _ => length_singleFields_pos v)
    (by omega) fun v _ hv => decodes_single v hv
  have hmultis := decodes_vec (l := item.multis) (fun m _ => length_multiFields_pos m)
    (by omega) fun m _ hm => decodes_multi m hm
  refine (consumes_basic item.op).bind (hsingles.bind fun singleParams _ => ?_)
  exact hmultis.map (OperationItem.ofParams (.ofCode item.op) singleParams)

/-- The buffer path, on a whole message or on a part of it. -/
theorem decodes_buffer (t : WirePredicates) (hlen : (bufferBytes t.fields).length < 2 ^ 64) :
    Decodes Cursor.mk readPredicates (bufferBytes t.fields) (t.decode bufferPath) := by
  simp only [WirePredicates.fields, bufferBytes_cons, bufferBytes_append, bufferBytes_nil,
    List.append_nil, WireField.bytes, bufferBytes_countedStrings, List.length_append] at hlen ⊢
  rw [bufferBytes_counted] at hlen ⊢
  have hitems := decodes_vec (l := t.items) (fun item _ => length_itemFields_pos item)
    (by omega) fun item _ hi => decodes_item item hi
  have hclause := decodes_string t.whereClause
    (by rw [writeString, length_stringBytes] at hlen; omega)
  have hargs := decodes_strings t.whereArgs (by omega)
  have horder := decodes_string t.order
    (by simp only [writeString, length_stringBytes] at hlen; omega)
  refine hitems.bind fun operations _ => hclause.bind fun whereClause _ =>
    hargs.bind fun whereArgs _ => ?_
  have hmode := fun order => (consumes_basic t.mode).decodes.map fun mode =>
    (⟨operations, whereClause, whereArgs, order, mode⟩ : DataSharePredicates)
  rw [Option.map_eq_bind]
  exact horder.bind fun order _ => hmode order

/-! ## The parcel path -/

theorem rounds_ofNat {n : ℕ} (hn : n < 2 ^ 31) : rounds (Int32.ofNat n) = n := by
  rw [rounds, Int32.toInt_ofNat_of_lt hn, Int.toNat_natCast]

theorem rounds_lt (count : Int32) : rounds count < 2 ^ 31 :=
  count.toNatClampNeg_lt

def WireMulti.count : WireMulti → ℕ
  | .ints vs => vs.length
  | .longs vs => vs.length
  | .doubles vs => vs.length
  | .strings vs => vs.length
  | _ => 0

/-- Every count is an `i32`. -/
structure WirePredicates.Counted (t : WirePredicates) : Prop where
  items : t.items.length < 2 ^ 31
  whereArgs : t.whereArgs.length < 2 ^ 31
  singles : ∀ item ∈ t.items, item.singles.length < 2 ^ 31
  multis : ∀ item ∈ t.items, item.multis.length < 2 ^ 31
  values : ∀ item ∈ t.items, ∀ m ∈ item.multis, m.count < 2 ^ 31

section Parcel

variable {σ : Type} [MsgParcel σ] {ι α : Type}

theorem decodes_counted {p : Reader σ α} {enc : ι → List ParcelField} {dec : ι → Option α}
    {l : List ι} (hlen : l.length < 2 ^ 31) (h : ∀ x ∈ l, Decodes ofFields p (enc x) (dec x)) :
    Decodes ofFields (readCounted σ p) ([countField l.length] ++ l.flatMap enc) (l.mapM dec) := by
  refine (consumes_field .i32 (Int32.ofNat l.length)).bind ?_
  rw [rounds_ofNat hlen]
  exact Decodes.readN h

theorem decodes_scalars (type : ParcelType) {field : type.Val → WireField}
    (hfield : ∀ v, (field v).parcel = ⟨type, v⟩) (vs : List type.Val) (hlen : vs.length < 2 ^ 31) :
    Decodes ofFields (readCounted σ (MsgParcel.read type))
      (parcelFields (countedFields (fun v => [field v]) vs)) (some vs) := by
  have h := decodes_counted (σ := σ) (l := vs) hlen
    fun v _ => (consumes_field type v).decodes
  rw [mapM_some] at h
  have hfields : parcelFields (countedFields (fun v => [field v]) vs) =
      [countField vs.length] ++ vs.flatMap fun v => [⟨type, v⟩] := by
    rw [parcelFields_counted]
    simp [hfield]
  rwa [hfields]

theorem decodeString_none (s : String) : decodeString none s = some s :=
  if_pos (allows_none _)

theorem decodeBasics_none [BasicType α] (vs : List α) : decodeBasics none vs = some vs :=
  if_pos (allows_none _)

/-- A tag above all known ones is still above them as a `u32`. -/
theorem toUInt32_ne {last tag : UInt8} {k : UInt32} (hk : k.toNat ≤ last.toNat) (h : last < tag) :
    tag.toUInt32 ≠ k := by
  intro heq
  have hnat := congrArg UInt32.toNat heq
  rw [UInt8.toNat_toUInt32] at hnat
  rw [UInt8.lt_iff_toNat_lt] at h
  omega

theorem decodes_singleVariant (v : WireSingle) :
    Decodes ofFields (readSingleValueVariant σ) (parcelFields v.fields) (v.decode none) := by
  have htag := fun tag : UInt8 => consumes_field (σ := σ) .u32 tag.toUInt32
  cases v <;> simp only [WireSingle.fields, WireField.parcel, parcelFields_cons, parcelFields_nil,
    List.append_nil]
  case null => exact (htag singleTypeNull).bind_nil (Consumes.pure SingleValue.null)
  case int v =>
    exact (htag singleTypeInt).bind ((consumes_field .i32 v).decodes.map SingleValue.int)
  case double v =>
    exact (htag singleTypeDouble).bind ((consumes_field .f64 v).decodes.map SingleValue.double)
  case string v =>
    rw [WireSingle.decode, decodeString_none]
    exact (htag singleTypeString).bind ((consumes_field .string v).decodes.map SingleValue.string)
  case bool v =>
    exact (htag singleTypeBool).bind ((consumes_field .bool v).decodes.map SingleValue.bool)
  case long v =>
    exact (htag singleTypeLong).bind ((consumes_field .i64 v).decodes.map SingleValue.long)
  case unknown tag h =>
    have hne : ∀ k : UInt32, k.toNat ≤ singleTypeLong.toNat → tag.toUInt32 ≠ k := fun k hk =>
      toUInt32_ne hk h
    refine (htag tag).bind_nil ?_
    rw [if_neg (hne 0 (by decide)), if_neg (hne 1 (by decide)), if_neg (hne 2 (by decide)),
      if_neg (hne 3 (by decide)), if_neg (hne 4 (by decide)), if_neg (hne 5 (by decide))]
    exact Refuses.fail _

theorem decodes_multiVariant (m : WireMulti) (hcount : m.count < 2 ^ 31) :
    Decodes ofFields (readMultiValueVariant σ) (parcelFields m.fields) (m.decode none) := by
  have htag := fun tag : UInt8 => consumes_field (σ := σ) .u32 tag.toUInt32
  cases m <;> simp only [WireMulti.fields, WireField.parcel, parcelFields_cons, parcelFields_nil,
    List.append_nil, WireMulti.decode, decodeBasics_none]
  case null => exact (htag multiTypeNull).bind_nil (Consumes.pure [])
  case ints vs =>
    exact (htag multiTypeIntVec).bind
      ((decodes_scalars .i32 (fun _ => rfl) vs hcount).map (List.map SingleValue.int))
  case longs vs =>
    exact (htag multiTypeLongVec).bind
      ((decodes_scalars .i64 (fun _ => rfl) vs hcount).map (List.map SingleValue.long))
  case doubles vs =>
    exact (htag multiTypeDoubleVec).bind
      ((decodes_scalars .f64 (fun _ => rfl) vs hcount).map (List.map SingleValue.double))
  case strings vs =>
    have hvs : vs.mapM (decodeString none) = some vs :=
      (mapM_eq_some_map fun s _ => decodeString_none s).trans (congrArg some (List.map_id vs))
    rw [hvs]
    exact (htag multiTypeStringVec).bind
      ((decodes_scalars .string (fun _ => rfl) vs hcount).map (List.map SingleValue.string))
  case unknown tag h =>
    have hne : ∀ k : UInt32, k.toNat ≤ multiTypeStringVec.toNat → tag.toUInt32 ≠ k := fun k hk =>
      toUInt32_ne hk h
    refine (htag tag).bind_nil ?_
    rw [if_neg (hne 0 (by decide)), if_neg (hne 1 (by decide)), if_neg (hne 2 (by decide)),
      if_neg (hne 3 (by decide)), if_neg (hne 4 (by decide))]
    exact Refuses.fail _

/-- The lists of an item : the first one counts. -/
theorem decodes_multis (ms : List WireMulti) (hlen : ms.length < 2 ^ 31)
    (hcount : ∀ m ∈ ms, m.count < 2 ^ 31) :
    Decodes ofFields (readMultiValues σ) (parcelFields (countedFields WireMulti.fields ms))
      ((ms.mapM (WireMulti.decode none)).map fun multiParams => multiParams.head?.bind dropEmpty) := by
  have hread := consumes_field (σ := σ) .i32 (Int32.ofNat ms.length)
  rw [parcelFields_counted]
  refine hread.bind ?_
  cases ms with
  | nil => exact Consumes.pure none
  | cons m ms =>
    have hpos : Int32.ofNat (m :: ms).length > 0 := by
      rw [gt_iff_lt, Int32.lt_iff_toInt_lt, Int32.toInt_ofNat_of_lt hlen]
      exact Int.natCast_pos.mpr (Nat.succ_pos _)
    have hm := decodes_multiVariant (σ := σ) m (hcount m List.mem_cons_self)
    have hms := Decodes.readN fun m' hm' =>
      decodes_multiVariant (σ := σ) m' (hcount m' (List.mem_cons_of_mem m hm'))
    rw [if_pos hpos, rounds_ofNat hlen, List.length_cons, Nat.add_sub_cancel, mapM_cons_eq,
      List.flatMap_cons]
    have hboth := hm.bind fun vals _ => hms.map fun _ => dropEmpty vals
    have hvals : ((m.decode none).bind fun vals =>
        (ms.mapM (WireMulti.decode none)).map (vals :: ·)).map
          (fun multiParams => multiParams.head?.bind dropEmpty) =
        (m.decode none).bind fun vals =>
          (ms.mapM (WireMulti.decode none)).map fun _ => dropEmpty vals := by
      cases m.decode none with
      | none => rfl
      | some vals => cases ms.mapM (WireMulti.decode none) <;> rfl
    rw [hvals]
    exact hboth

theorem decodes_itemVariant (item : WireItem) (hsingles : item.singles.length < 2 ^ 31)
    (hmultis : item.multis.length < 2 ^ 31) (hcount : ∀ m ∈ item.multis, m.count < 2 ^ 31) :
    Decodes ofFields (deserializeItem σ) (parcelFields item.fields) (item.decode parcelPath) := by
  have hop := consumes_field (σ := σ) .i32 item.op
  have hread := decodes_counted (σ := σ) hsingles fun v _ => decodes_singleVariant v
  have hmulti := decodes_multis (σ := σ) item.multis hmultis hcount
  simp only [WireItem.fields, parcelFields_cons, parcelFields_append]
  rw [parcelFields_counted WireSingle.fields]
  refine hop.bind ?_
  rw [← List.nil_append ([countField _] ++ _ ++ _)]
  refine (Decodes.ofOption (OperationType.fromI32 item.op)).bind fun operation _ => ?_
  refine hread.bind fun singleParams _ => ?_
  have hitem := hmulti.map fun multiValues =>
    OperationItem.ofVariants operation singleParams multiValues
  rw [Option.map_map] at hitem
  exact hitem

/-- The parcel path, on a whole message or on a part of it. -/
theorem decodes_parcel (t : WirePredicates) (hcounted : t.Counted) :
    Decodes ofFields (deserialize σ) (parcelFields t.fields) (t.decode parcelPath) := by
  have hitems := decodes_counted (σ := σ) hcounted.items fun item hi =>
    decodes_itemVariant item (hcounted.singles item hi) (hcounted.multis item hi)
      (hcounted.values item hi)
  have hfield : ∀ s, (WireField.string s).parcel = ⟨.string, s⟩ := fun _ => rfl
  have hargs := decodes_scalars (σ := σ) .string hfield t.whereArgs hcounted.whereArgs
  have hclause := consumes_field (σ := σ) .string t.whereClause
  have horder := consumes_field (σ := σ) .string t.order
  have hmode := consumes_field (σ := σ) .i16 t.mode
  have hstrings : t.whereArgs.mapM (decodeString none) = some t.whereArgs :=
    (mapM_eq_some_map fun s _ => decodeString_none s).trans (congrArg some (List.map_id _))
  simp only [WirePredicates.fields, WirePredicates.decode, parcelFields_append, parcelFields_cons,
    parcelFields_nil, List.append_nil, parcelPath, decodeString_none, hstrings]
  rw [parcelFields_counted WireItem.fields]
  refine hitems.bind fun operations _ => ?_
  exact hclause.bind (Consumes.bind hargs (horder.bind (hmode.decodes.map fun mode =>
    (⟨operations, t.whereClause, t.whereArgs, t.order, mode⟩ : DataSharePredicates))))

end Parcel

end Rust

end DataShare
