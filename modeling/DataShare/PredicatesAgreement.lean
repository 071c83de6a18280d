import DataShare.PredicatesPaths

/-!
# Where the two wire paths of predicates agree

For predicates of the builders the two results are equal exactly when nothing is too long
for the buffer or for a parcel count, and no list is written without an element type
(`agree_iff`) : such a list comes back empty from the buffer and is dropped by the parcel.

A stream that is not cut short is refused by one path only if it has an operation code that
is not known, which the buffer path takes for `EqualTo`, or something longer than the
buffer path allows, and not both (`sameRefusal_iff`).
-/

namespace DataShare

namespace Rust

open MsgParcel (ofFields)

/-! ## Streams -/

/-- The stream `s` has the fields of `t`, as far as both go. -/
def Corresponds (s : List WireField) (t : WirePredicates) : Prop :=
  (∃ r, s = t.fields ++ r) ∨ ∃ r, t.fields = s ++ r

/-- The stream `s` ends before the message does. -/
def CutShort (s : List WireField) (t : WirePredicates) : Prop :=
  ∃ r, r ≠ [] ∧ t.fields = s ++ r

/-- A path refuses a stream that is cut short, or of which it does not accept the message. -/
theorem refuses_iff {τ σ α : Type} {feed : List τ → σ} {p : Reader σ α}
    {enc : List WireField → List τ} (happend : ∀ fs gs, enc (fs ++ gs) = enc fs ++ enc gs)
    (hne : ∀ fs, fs ≠ [] → enc fs ≠ []) {t : WirePredicates} {o : Option α}
    (hdec : Decodes feed p (enc t.fields) o) {s : List WireField} (h : Corresponds s t) :
    (p.run (feed (enc s))).1 = none ↔ CutShort s t ∨ o = none := by
  by_cases hcut : CutShort s t
  · obtain ⟨r, hr, hfields⟩ := hcut
    rw [hfields, happend] at hdec
    exact iff_of_true (hdec.run_cut (hne r hr)) (.inl ⟨r, hr, hfields⟩)
  · have hwhole : ∃ r, s = t.fields ++ r := by
      rcases h with h | ⟨r, hr⟩
      · exact h
      · have hnil : r = [] := by
          by_contra hr'
          exact hcut ⟨r, hr', hr⟩
        exact ⟨[], by rw [hr, hnil, List.append_nil, List.append_nil]⟩
    obtain ⟨r, rfl⟩ := hwhole
    rw [happend, hdec.run]
    simp [hcut]

theorem bufferBytes_ne_nil (fs : List WireField) (h : fs ≠ []) : bufferBytes fs ≠ [] := by
  cases fs with
  | nil => exact absurd rfl h
  | cons f fs => exact List.append_ne_nil_of_left_ne_nil f.bytes_ne_nil _

theorem parcelFields_ne_nil (fs : List WireField) (h : fs ≠ []) : parcelFields fs ≠ [] := by
  simpa [parcelFields] using h

/-- One path refuses the stream exactly when the other does. -/
def SameRefusal (σ : Type) [MsgParcel σ] (s : List WireField) : Prop :=
  unmarshalPredicatesFromBuffer (bufferBytes s) = none ↔ deserializeFrom σ (parcelFields s) = none

theorem same_iff {cut tags within codes : Prop} :
    ((cut ∨ ¬(tags ∧ within)) ↔ (cut ∨ ¬(tags ∧ codes))) ↔
      cut ∨ ¬tags ∨ (within ↔ codes) := by
  tauto

theorem sameRefusal_iff (σ : Type) [MsgParcel σ] {t : WirePredicates} (hcounted : t.Counted)
    (hlen : (bufferBytes t.fields).length < 2 ^ 64) {s : List WireField} (h : Corresponds s t) :
    SameRefusal σ s ↔ CutShort s t ∨ ¬t.KnownTags ∨
      (t.Within (some maxIpcSize) ↔ t.KnownCodes) := by
  have hbuffer := refuses_iff bufferBytes_append bufferBytes_ne_nil (decodes_buffer t hlen) h
  have hparcel := refuses_iff parcelFields_append parcelFields_ne_nil
    (decodes_parcel (σ := σ) t hcounted) h
  have hnone : ∀ o : Option DataSharePredicates, o = none ↔ ¬o.isSome := fun o => by simp
  rw [hnone (t.decode bufferPath), isSome_decode_buffer] at hbuffer
  rw [hnone (t.decode parcelPath), isSome_decode_parcel] at hparcel
  exact (iff_congr hbuffer hparcel).trans same_iff

/-! ## Messages of the writers -/

theorem SingleValue.decode_wire {limit : Option ℕ} {v : SingleValue} (h : v.wire.Within limit) :
    v.wire.decode limit = some v.normalize := by
  cases v with
  | string s =>
    have hs : decodeString limit s = some s := if_pos h
    rw [SingleValue.wire, WireSingle.decode, hs]
    rfl
  | _ => rfl

theorem decode_strings {limit : Option ℕ} {values : List String}
    (h : ∀ s ∈ values, Allows limit (utf8Bytes s).length) :
    values.mapM (decodeString limit) = some values :=
  (mapM_eq_some_map fun s hs => if_pos (h s hs)).trans (congrArg some (List.map_id values))

theorem decode_wireMulti {limit : Option ℕ} {values : List SingleValue}
    (h : (wireMulti values).Within limit) :
    (wireMulti values).decode limit = some (normalizeMulti values) := by
  revert h
  unfold wireMulti normalizeMulti
  rcases values.head? with - | v
  · exact fun _ => rfl
  cases v with
  | int _ => exact fun h => congrArg (Option.map _) (if_pos h)
  | long _ => exact fun h => congrArg (Option.map _) (if_pos h)
  | double _ => exact fun h => congrArg (Option.map _) (if_pos h)
  | string _ => exact fun h => congrArg (Option.map _) (decode_strings h)
  | _ => exact fun _ => rfl

theorem count_wireMulti (values : List SingleValue) :
    (wireMulti values).count = (normalizeMulti values).length := by
  unfold wireMulti normalizeMulti
  rcases values.head? with - | v
  · rfl
  cases v with
  | int _ => exact List.length_map _ |>.symm
  | long _ => exact List.length_map _ |>.symm
  | double _ => exact List.length_map _ |>.symm
  | string _ => exact List.length_map _ |>.symm
  | _ => rfl

/-- What a path makes of an item that was written. -/
def OperationItem.along (path : WirePath) (item : OperationItem) : OperationItem :=
  path.item item.operation (item.singleParams.map (·.normalize))
    (item.multiValues.toList.map normalizeMulti)

/-- What a path makes of predicates that were written. -/
def DataSharePredicates.along (path : WirePath) (p : DataSharePredicates) : DataSharePredicates :=
  { p with operations := p.operations.map (·.along path) }

theorem OperationItem.decode_wire {path : WirePath} {item : OperationItem}
    (hop : path.operation item.operation.toI32 = some item.operation)
    (hsingles : ∀ v ∈ item.wire.singles, v.Within path.limit)
    (hmultis : ∀ m ∈ item.wire.multis, m.Within path.limit) :
    item.wire.decode path = some (item.along path) := by
  have hs : (item.singleParams.map (·.wire)).mapM (WireSingle.decode path.limit) =
      some (item.singleParams.map (·.normalize)) := by
    rw [List.mapM_map]
    exact mapM_eq_some_map fun v hv => SingleValue.decode_wire (hsingles _ (List.mem_map_of_mem hv))
  have hm : (item.multiValues.toList.map wireMulti).mapM (WireMulti.decode path.limit) =
      some (item.multiValues.toList.map normalizeMulti) := by
    rw [List.mapM_map]
    exact mapM_eq_some_map fun values hv => decode_wireMulti (hmultis _ (List.mem_map_of_mem hv))
  rw [WireItem.decode, OperationItem.wire, hop, hs, hm]
  rfl

theorem DataSharePredicates.decode_wire {path : WirePath} {p : DataSharePredicates}
    (hop : ∀ operation, path.operation (OperationType.toI32 operation) = some operation)
    (h : p.wire.Within path.limit) : p.wire.decode path = some (p.along path) := by
  have hitems : (p.operations.map (·.wire)).mapM (WireItem.decode path) =
      some (p.operations.map (·.along path)) := by
    rw [List.mapM_map]
    refine mapM_eq_some_map fun item hi => ?_
    have hwithin := h.items item.wire (List.mem_map_of_mem hi)
    exact OperationItem.decode_wire (hop _) hwithin.1 hwithin.2
  have hargs : p.whereArgs.mapM (decodeString path.limit) = some p.whereArgs :=
    decode_strings h.whereArgs
  have hclause : decodeString path.limit p.whereClause = some p.whereClause := if_pos h.whereClause
  have horder : decodeString path.limit p.order = some p.order := if_pos h.order
  simp only [WirePredicates.decode, DataSharePredicates.wire, hitems, hclause, hargs, horder]
  rfl

theorem bufferPath_toI32 (operation : OperationType) :
    bufferPath.operation operation.toI32 = some operation := by
  simp [bufferPath, OperationType.ofCode]

/-! ## Items on the two paths -/

/-- A list that is written with an element type. -/
def Typed (values : List SingleValue) : Prop :=
  match values.head? with
  | some (.int _) | some (.long _) | some (.double _) | some (.string _) => True
  | _ => False

theorem typed_iff (values : List SingleValue) : Typed values ↔ normalizeMulti values ≠ [] := by
  unfold Typed normalizeMulti
  rcases values with - | ⟨v, values⟩
  · simp
  · cases v <;> simp [SingleValue.asInt?, SingleValue.asLong?, SingleValue.asDouble?,
      SingleValue.asString?]

theorem dropEmpty_eq_some {vals : List SingleValue} : dropEmpty vals = some vals ↔ vals ≠ [] := by
  cases vals <;> simp [dropEmpty]

theorem multiValues_ofVariants (operation : OperationType) (singleParams : List SingleValue)
    (multiValues : Option (List SingleValue)) :
    (OperationItem.ofVariants operation singleParams multiValues).multiValues = multiValues := by
  unfold OperationItem.ofVariants
  rcases singleParams with - | ⟨first, - | ⟨second, extra⟩⟩
  · rfl
  · dsimp only
    split
    · rfl
    · split <;> rfl
  · dsimp only
    split <;> rfl

/-- The two ways to make an item of its parameters differ only for a `Limit` or an `Offset`
with more than one. -/
theorem ofParams_eq_ofVariants {operation : OperationType} (singleParams : List SingleValue)
    (multiParams : List (List SingleValue))
    (h : operation = .limit ∨ operation = .offset → singleParams.length ≤ 1) :
    OperationItem.ofParams operation singleParams multiParams =
      .ofVariants operation singleParams multiParams.head? := by
  unfold OperationItem.ofParams OperationItem.ofVariants
  rcases singleParams with - | ⟨first, - | ⟨second, extra⟩⟩
  · rfl
  · rfl
  · have hop : ¬(operation = .limit ∨ operation = .offset) := fun hop => by simpa using h hop
    dsimp only
    rw [if_neg hop]
    rfl

theorem length_singleParams_le {item : OperationItem} (h : item.Built) :
    item.singleParams.length ≤ 2 ∧
      (item.operation = .limit ∨ item.operation = .offset → item.singleParams.length ≤ 1) := by
  have hvalue : item.value.toList.length ≤ 1 := by cases item.value <;> simp
  have hlen : item.singleParams.length =
      (if item.field = "" then [] else [SingleValue.string item.field]).length +
        item.value.toList.length := by
    rw [OperationItem.singleParams, h.extra, List.append_nil, List.length_append]
  constructor
  · split at hlen <;> simp only [List.length_nil, List.length_singleton] at hlen <;> omega
  · intro hop
    rw [if_pos (h.limit hop), List.length_nil] at hlen
    omega

/-- The paths agree on an item of the builders exactly when its list has an element type. -/
theorem OperationItem.along_eq_iff {item : OperationItem} (h : item.Built) :
    item.along bufferPath = item.along parcelPath ↔
      ∀ values, item.multiValues = some values → Typed values := by
  have hmake := ofParams_eq_ofVariants (item.singleParams.map (·.normalize))
    (item.multiValues.toList.map normalizeMulti)
    fun hop => by rw [List.length_map]; exact (length_singleParams_le h).2 hop
  constructor
  · intro heq values hvalues
    have hmulti := congrArg OperationItem.multiValues heq
    simp only [OperationItem.along, bufferPath, parcelPath, OperationItem.multiValues_ofParams,
      multiValues_ofVariants, hvalues, Option.toList_some, List.map_cons, List.head?_cons,
      Option.bind_some] at hmulti
    rw [typed_iff]
    exact dropEmpty_eq_some.mp hmulti.symm
  · intro htyped
    have hmulti : (item.multiValues.toList.map normalizeMulti).head?.bind dropEmpty =
        (item.multiValues.toList.map normalizeMulti).head? := by
      rcases hvalues : item.multiValues with - | values
      · rfl
      · exact dropEmpty_eq_some.mpr ((typed_iff values).mp (htyped values hvalues))
    refine hmake.trans ?_
    rw [← hmulti]
    rfl

/-! ## Predicates of the builders -/

/-- Both paths give the same predicates back. -/
def Agree (σ : Type) [MsgParcel σ] (p : DataSharePredicates) : Prop :=
  ∃ q, unmarshalPredicatesFromBuffer (marshalPredicatesToBuffer p) = some q ∧
    deserializeFrom σ (serialize p) = some q

/-- The lists that a parcel gives have fewer than `2 ^ 31` elements. -/
structure DataSharePredicates.Counted (q : DataSharePredicates) : Prop where
  operations : q.operations.length < 2 ^ 31
  whereArgs : q.whereArgs.length < 2 ^ 31
  values : ∀ item ∈ q.operations, ∀ vals, item.multiValues = some vals → vals.length < 2 ^ 31

section Parcel

variable {σ : Type} [MsgParcel σ]

theorem ensures_counted {α : Type} {P : α → Prop} {p : Reader σ α} (h : Ensures p P) :
    Ensures (readCounted σ p) fun l => l.length < 2 ^ 31 ∧ ∀ a ∈ l, P a := by
  refine Ensures.bind_any _ fun count => ?_
  intro s l s' hrun
  obtain ⟨hlen, hall⟩ := h.readN (rounds count) s l s' hrun
  exact ⟨hlen ▸ rounds_lt count, hall⟩

theorem ensures_multiVariant :
    Ensures (readMultiValueVariant σ) fun vals => vals.length < 2 ^ 31 := by
  have hlist : ∀ {α : Type} (p : Reader σ α) (f : α → SingleValue),
      Ensures (do let vs ← readCounted σ p; pure (vs.map f)) fun vals => vals.length < 2 ^ 31 :=
    fun p f => (ensures_counted (Ensures.trivial p)).bind fun vs hvs =>
      Ensures.pure (by rw [List.length_map]; exact hvs.1)
  refine Ensures.bind_any _ fun index => ?_
  split
  · exact Ensures.pure (by simp)
  split
  · exact hlist _ _
  split
  · exact hlist _ _
  split
  · exact hlist _ _
  split
  · exact hlist _ _
  · exact Ensures.fail _

theorem ensures_multiValues : Ensures (readMultiValues σ) fun multiValues =>
    ∀ vals, multiValues = some vals → vals.length < 2 ^ 31 := by
  refine Ensures.bind_any _ fun mpCount => ?_
  split
  · refine ensures_multiVariant.bind fun vals hvals => Ensures.bind_any _ fun _ => ?_
    refine Ensures.pure fun vals' h => ?_
    unfold dropEmpty at h
    split at h
    · cases h
    · exact Option.some.inj h ▸ hvals
  · exact Ensures.pure fun vals h => nomatch h

theorem ensures_deserialize : Ensures (deserialize σ) DataSharePredicates.Counted := by
  have hitem : Ensures (deserializeItem σ) fun item =>
      ∀ vals, item.multiValues = some vals → vals.length < 2 ^ 31 := by
    refine Ensures.bind_any _ fun op => Ensures.bind_any _ fun operation => ?_
    refine Ensures.bind_any _ fun singleParams => ensures_multiValues.bind fun multiValues hmulti => ?_
    refine Ensures.pure fun vals h => hmulti vals ?_
    rwa [multiValues_ofVariants] at h
  refine (ensures_counted hitem).bind fun operations hops => Ensures.bind_any _ fun clause => ?_
  refine (ensures_counted (Ensures.trivial _)).bind fun whereArgs hargs => ?_
  refine Ensures.bind_any _ fun order => Ensures.bind_any _ fun mode => ?_
  exact Ensures.pure ⟨hops.1, hargs.1, hops.2⟩

end Parcel

theorem counted_of_deserialize {σ : Type} [MsgParcel σ] {fields : List ParcelField}
    {q : DataSharePredicates} (h : deserializeFrom σ fields = some q) : q.Counted :=
  ensures_deserialize (ofFields fields) q ((deserialize σ).run (ofFields fields)).2 (Prod.ext h rfl)

/-- What the buffer path gives back has the counts of what was written. -/
theorem counted_wire {p : DataSharePredicates} (hbuilt : ∀ item ∈ p.operations, item.Built)
    (h : (p.along bufferPath).Counted) : p.wire.Counted where
  items := by simpa [DataSharePredicates.along, DataSharePredicates.wire] using h.operations
  whereArgs := h.whereArgs
  singles item hi := by
    obtain ⟨item, hmem, rfl⟩ := List.mem_map.mp hi
    have hlen := (length_singleParams_le (hbuilt item hmem)).1
    rw [OperationItem.wire, List.length_map]
    omega
  multis item hi := by
    obtain ⟨item, -, rfl⟩ := List.mem_map.mp hi
    rw [OperationItem.wire, List.length_map]
    cases item.multiValues <;> simp
  values item hi m hm := by
    obtain ⟨item, hmem, rfl⟩ := List.mem_map.mp hi
    obtain ⟨values, hvalues, rfl⟩ := List.mem_map.mp hm
    have hmulti : (item.along bufferPath).multiValues = some (normalizeMulti values) := by
      rw [Option.mem_toList] at hvalues
      rw [OperationItem.along, bufferPath, OperationItem.multiValues_ofParams, hvalues]
      rfl
    rw [count_wireMulti]
    exact h.values _ (List.mem_map_of_mem hmem) _ hmulti

theorem agree_iff (σ : Type) [MsgParcel σ] {p : DataSharePredicates}
    (hbuilt : ∀ item ∈ p.operations, item.Built)
    (hlen : (marshalPredicatesToBuffer p).length < 2 ^ 64) :
    Agree σ p ↔ p.wire.Within (some maxIpcSize) ∧ p.wire.Counted ∧
      ∀ item ∈ p.operations, ∀ values, item.multiValues = some values → Typed values := by
  have hbuffer : unmarshalPredicatesFromBuffer (marshalPredicatesToBuffer p) =
      p.wire.decode bufferPath := by
    rw [marshalPredicates_eq] at hlen ⊢
    exact (decodes_buffer p.wire hlen).run_feed
  have hparcel : p.wire.Counted → deserializeFrom σ (serialize p) = some (p.along parcelPath) := by
    intro hcounted
    rw [serialize_eq, deserializeFrom, (decodes_parcel p.wire hcounted).run_feed]
    exact DataSharePredicates.decode_wire OperationType.fromI32_toI32 p.wire.within_none
  have hitems : p.along bufferPath = p.along parcelPath ↔
      ∀ item ∈ p.operations, ∀ values, item.multiValues = some values → Typed values := by
    rw [DataSharePredicates.along, DataSharePredicates.along, DataSharePredicates.mk.injEq,
      List.map_inj_left]
    simp only [and_true]
    exact forall₂_congr fun item hi => OperationItem.along_eq_iff (hbuilt item hi)
  rw [Agree, hbuffer]
  constructor
  · rintro ⟨q, hq, hq'⟩
    have hwithin := ((isSome_decode_buffer _).mp (Option.isSome_iff_exists.mpr ⟨q, hq⟩)).2
    rw [DataSharePredicates.decode_wire bufferPath_toI32 hwithin] at hq
    obtain rfl := Option.some.inj hq
    have hcounted := counted_wire hbuilt (counted_of_deserialize hq')
    exact ⟨hwithin, hcounted, hitems.mp (Option.some.inj (hq'.symm.trans (hparcel hcounted)))⟩
  · rintro ⟨hwithin, hcounted, htyped⟩
    refine ⟨_, DataSharePredicates.decode_wire bufferPath_toI32 hwithin, ?_⟩
    rw [hitems.mpr htyped]
    exact hparcel hcounted

/-- Where the two paths agree : on predicates of the builders, and on streams of fields. -/
theorem paths_iff (σ : Type) [MsgParcel σ] :
    (∀ calls, (marshalPredicatesToBuffer (buildPredicates calls)).length < 2 ^ 64 →
      (Agree σ (buildPredicates calls) ↔
        (buildPredicates calls).wire.Within (some maxIpcSize) ∧
          (buildPredicates calls).wire.Counted ∧
            ∀ item ∈ (buildPredicates calls).operations, ∀ values,
              item.multiValues = some values → Typed values)) ∧
    ∀ (t : WirePredicates) (s : List WireField), t.Counted →
      (bufferBytes t.fields).length < 2 ^ 64 → Corresponds s t →
        (SameRefusal σ s ↔ CutShort s t ∨ ¬t.KnownTags ∨
          (t.Within (some maxIpcSize) ↔ t.KnownCodes)) :=
  ⟨fun calls => agree_iff σ (built_of_mem_buildPredicates calls),
    fun _ _ hcounted hlen h => sameRefusal_iff σ hcounted hlen h⟩

/-- One item of the operation 99, without parameters. -/
def unknownCode : WirePredicates :=
  ⟨[⟨99, [], []⟩], "", [], "", 0⟩

theorem counted_unknownCode : unknownCode.Counted := by
  constructor <;> simp [unknownCode]

theorem paths_iff_unknownCode :
    (Agree FieldQueue (buildPredicates [.equalTo "a" (.int 1)]) ↔
      (buildPredicates [.equalTo "a" (.int 1)]).wire.Within (some maxIpcSize) ∧
        (buildPredicates [.equalTo "a" (.int 1)]).wire.Counted ∧
          ∀ item ∈ (buildPredicates [.equalTo "a" (.int 1)]).operations, ∀ values,
            item.multiValues = some values → Typed values) ∧
    (SameRefusal FieldQueue unknownCode.fields ↔ CutShort unknownCode.fields unknownCode ∨
      ¬unknownCode.KnownTags ∨
        (unknownCode.Within (some maxIpcSize) ↔ unknownCode.KnownCodes)) :=
  ⟨(paths_iff FieldQueue).1 [.equalTo "a" (.int 1)] (by decide),
    (paths_iff FieldQueue).2 unknownCode unknownCode.fields counted_unknownCode (by decide)
      (.inl ⟨[], (List.append_nil _).symm⟩)⟩

/-- An empty list comes back on one path only, and an unknown code is refused on one path
only. -/
theorem paths_differ :
    (¬∀ calls, Agree FieldQueue (buildPredicates calls)) ∧
      ¬∀ s, SameRefusal FieldQueue s := by
  constructor
  · intro h
    obtain ⟨q, hbuffer, hparcel⟩ := h [.inSet "a" []]
    have hb : unmarshalPredicatesFromBuffer (marshalPredicatesToBuffer
        (buildPredicates [.inSet "a" []])) =
        some (.fromOperations [⟨.in, "a", none, some [], []⟩]) := by decide +kernel
    have hp : deserializeFrom FieldQueue (serialize (buildPredicates [.inSet "a" []])) =
        some (.fromOperations [⟨.in, "a", none, none, []⟩]) := by decide +kernel
    have heq := (hb.symm.trans hbuffer).trans (hparcel.symm.trans hp)
    exact absurd (Option.some.inj heq) (by decide)
  · intro h
    have hparcel : deserializeFrom FieldQueue (parcelFields unknownCode.fields) = none := by
      decide +kernel
    have hbuffer : unmarshalPredicatesFromBuffer (bufferBytes unknownCode.fields) ≠ none := by
      decide +kernel
    exact hbuffer ((h unknownCode.fields).mpr hparcel)

end Rust

end DataShare
