import DataShare.PredicatesWire
import DataShare.RustPredicatesVerify

/-!
# Both verifications of predicates

The Rust item has its field apart from its values, where C++ looks at the first parameter. So
there are two items to compare (`SameParams`) : those that the same builder calls make
(`sameParams_buildPredicates`), and those that one side reads from what the other writes
(`SameItem.sameParams`, `sameParams_toRust`).

What Rust rejects, C++ rejects too. C++ alone rejects an item with a field that is a name up to
white space that is not ASCII, and an item without a field whose first value, which C++
takes for the field, is no name (`Overlooked`). Both answer the same exactly if no such item
comes first among those that C++ rejects, or a later one with its operation stands in for it
(`verifyPredicates_eq_iff`).
-/

namespace DataShare

namespace Rust

/-! ## What is rejected -/

/-- The error of a kind. -/
def errorOf : PredicatesVerifyType → Int32
  | .default => 0
  | .single2ParamsPublic | .single3ParamsPublic => fieldInvalid
  | _ => fieldIllegal

/-- The texts of an item that Rust checks. -/
def OperationItem.fieldsOf (item : OperationItem) : PredicatesVerifyType → List String
  | .default => []
  | .multi2ParamsSys => (item.multiValues.getD []).filterMap (·.asString?)
  | _ => [item.field]

def OperationItem.fields (item : OperationItem) : List String :=
  item.fieldsOf (getVerifyType item.operation)

/-- Rust finds no error in the item. -/
def OperationItem.allowed (item : OperationItem) : Bool :=
  item.fields.all verifyField

@[simp] theorem verifyField_empty : verifyField "" = true := by
  rw [verifyField, if_pos rfl]

/-- A check that fails gives its error. -/
theorem ite_eq_false (b : Bool) (err : Int32) :
    (if b = false then err else 0) = if b = true then 0 else err := by
  cases b <;> rfl

theorem verifyByType_eq (verifyType : PredicatesVerifyType) (item : OperationItem) :
    verifyByType verifyType item =
      if (item.fieldsOf verifyType).all verifyField then 0 else errorOf verifyType := by
  have hsingle : ∀ err : Int32, (if checkParamNum .single2ParamsPublic item = false then 0
      else if verifyField item.field = false then err else 0) =
        if verifyField item.field = true then 0 else err := by
    intro err
    by_cases hfield : item.field = ""
    · simp [hfield]
    · simp [checkParamNum, hfield]
      split <;> simp_all
  unfold verifyByType OperationItem.fieldsOf
  rcases verifyType
  case default => simp
  case multi2ParamsSys =>
    rcases hvals : item.multiValues with _ | vals
    · simp [checkParamNum, hvals]
    · rw [if_neg (by simp [checkParamNum, hvals])]
      exact ite_eq_false (verifyFields vals) _
  all_goals simpa [checkParamNum, errorOf] using hsingle _

theorem verify_eq (item : OperationItem) :
    item.verify = if item.allowed then 0 else errorOf (getVerifyType item.operation) :=
  verifyByType_eq _ item

theorem errorOf_ne_zero {item : OperationItem} (h : item.allowed = false) :
    errorOf (getVerifyType item.operation) ≠ 0 := by
  rw [OperationItem.allowed, OperationItem.fields] at h
  generalize getVerifyType item.operation = verifyType at h
  cases verifyType with
  | default => cases h
  | _ => decide

def PredicatesVerifyType.toCpp : PredicatesVerifyType → Cpp.PredicatesVerifyType
  | default => .verifyDefault
  | single2ParamsPublic => .single2ParamsPublic
  | single3ParamsPublic => .single3ParamsPublic
  | single2ParamsSys => .single2ParamsSys
  | single3ParamsSys => .single3ParamsSys
  | multi2ParamsSys => .multi2ParamsSys

/-- Both have the same sets of operations. -/
theorem getPredicatesVerifyType_toI32 (operation : OperationType) :
    Cpp.getPredicatesVerifyType operation.toI32 = (getVerifyType operation).toCpp := by
  cases operation <;> decide

end Rust

namespace Cpp

/-- The texts of an item that C++ checks. -/
def OperationItem.fieldsOf (item : OperationItem) : PredicatesVerifyType → List StdString
  | .verifyDefault => []
  | .multi2ParamsSys => (item.multiParams.headD .null).toStdStrings
  | _ => [(item.singleParams.headD .null).toStdString]

def OperationItem.fields (item : OperationItem) : List StdString :=
  item.fieldsOf (getPredicatesVerifyType item.operation)

/-- C++ finds no error in the item. -/
def OperationItem.allowed (item : OperationItem) : Bool :=
  item.fields.all verifyField

theorem verifyPredicatesByType_eq (verifyType : Rust.PredicatesVerifyType) (item : OperationItem) :
    verifyPredicatesByType verifyType.toCpp item =
      if (item.fieldsOf verifyType.toCpp).all verifyField then 0 else Rust.errorOf verifyType := by
  unfold verifyPredicatesByType OperationItem.fieldsOf
  rcases verifyType
  case default => simp [Rust.PredicatesVerifyType.toCpp]
  case multi2ParamsSys =>
    rcases hparams : item.multiParams with _ | ⟨value, values⟩
    · simp [Rust.PredicatesVerifyType.toCpp, checkParamNum, hparams, MutliValue.toStdStrings]
    · rw [if_neg (by simp [Rust.PredicatesVerifyType.toCpp, checkParamNum, hparams])]
      exact (Rust.ite_eq_false item.verifyMulti _).trans (by rw [OperationItem.verifyMulti, hparams]; rfl)
  all_goals
    rcases hparams : item.singleParams with _ | ⟨value, values⟩
    · simp [Rust.PredicatesVerifyType.toCpp, checkParamNum, hparams, SingleValue.toStdString,
        verifyField]
    · rw [if_neg (by simp [Rust.PredicatesVerifyType.toCpp, checkParamNum, hparams])]
      refine (Rust.ite_eq_false item.verifySingle _).trans ?_
      simp [OperationItem.verifySingle, hparams, Rust.PredicatesVerifyType.toCpp]
      rfl

theorem verify_eq (item : OperationItem) {operation : Rust.OperationType}
    (h : item.operation = operation.toI32) :
    item.verify = if item.allowed then 0 else Rust.errorOf (Rust.getVerifyType operation) := by
  rw [OperationItem.verify, OperationItem.allowed, OperationItem.fields, h,
    Rust.getPredicatesVerifyType_toI32, verifyPredicatesByType_eq]

end Cpp

/-! ## Corresponding items -/

namespace Rust

/-- The single parameters of an item behind its field. -/
def OperationItem.values (item : OperationItem) : List SingleValue :=
  item.value.toList ++ item.extraSingleParams

/-- The operation takes one field. -/
def PredicatesVerifyType.IsSingle : PredicatesVerifyType → Prop
  | default | multi2ParamsSys => False
  | _ => True

end Rust

/-- The first parameter is the field. An empty field may be left out, and builders of C++ fill up
with nulls. C++ has more list parameters than Rust, which looks at the first. -/
structure SameParams (item : Rust.OperationItem) (item' : Cpp.OperationItem) : Prop where
  operation : item'.operation = item.operation.toI32
  single : ∃ field nulls, (field = [.string item.field] ∨ item.field = "" ∧ field = []) ∧
    List.Forall₂ SameSingle (field ++ (item.values ++ List.replicate nulls .null)) item'.singleParams
  multi : List.Forall₂ SameMulti item.multiValues.toList (item'.multiParams.take 1)

/-- Rust allows the item, but it has a field that is not ASCII, or no field and a first value
that C++ takes for a field. -/
def Overlooked (item : Rust.OperationItem) (item' : Cpp.OperationItem) : Prop :=
  item.allowed = true ∧ ((∃ field ∈ item.fields, ¬Rust.IsAscii field) ∨
    (Rust.getVerifyType item.operation).IsSingle ∧ item.field = "" ∧
      ∃ value rest, item'.singleParams = .string value :: rest ∧ Cpp.verifyField value = false)

theorem filterMap_asString_eq_nil {α : Type} {f : α → Rust.SingleValue}
    (hf : ∀ a, (f a).asString? = none) (vs : List α) :
    (vs.map f).filterMap (·.asString?) = [] := by
  simp [hf]

/-- The strings of corresponding lists. -/
theorem SameMulti.toStdStrings_eq {values : List Rust.SingleValue} {value : Cpp.MutliValue}
    (h : SameMulti values value) :
    value.toStdStrings = (values.filterMap (·.asString?)).map utf8Bytes := by
  cases h with
  | null => rfl
  | strings vs => rw [Rust.filterMap_asString_map]; rfl
  | ints vs => rw [filterMap_asString_eq_nil fun _ => rfl]; rfl
  | longs vs => rw [filterMap_asString_eq_nil fun _ => rfl]; rfl
  | doubles vs => rw [filterMap_asString_eq_nil fun _ => rfl]; rfl

/-- The list that C++ checks. -/
theorem SameParams.multi_eq {item : Rust.OperationItem} {item' : Cpp.OperationItem}
    (h : SameParams item item') : (item'.multiParams.headD .null).toStdStrings =
      ((item.multiValues.getD []).filterMap (·.asString?)).map utf8Bytes := by
  have hmulti := h.multi
  generalize item.multiValues = values at hmulti ⊢
  generalize item'.multiParams = params at hmulti ⊢
  rcases values with _ | values
  · rcases params with _ | ⟨value, rest⟩
    · rfl
    · cases hmulti
  · rcases params with _ | ⟨value, rest⟩
    · cases hmulti
    · exact (List.forall₂_cons.mp hmulti).1.toStdStrings_eq

/-- The field that C++ checks, or the value in its place. -/
theorem SameParams.single_cases {item : Rust.OperationItem} {item' : Cpp.OperationItem}
    (h : SameParams item item') :
    (item'.singleParams.headD .null).toStdString = utf8Bytes item.field ∨
      item.field = "" ∧ ∃ value rest, item'.singleParams = .string value :: rest := by
  obtain ⟨field, nulls, rfl | ⟨hempty, rfl⟩, hsingle⟩ := h.single
  · obtain ⟨value', rest', hfirst, -, hparams⟩ := List.forall₂_cons_left_iff.mp hsingle
    rw [hparams]
    cases hfirst
    exact Or.inl rfl
  · rcases item'.singleParams with _ | ⟨value, rest⟩
    · exact Or.inl (by rw [hempty]; rfl)
    · cases value with
      | string value => exact Or.inr ⟨hempty, value, rest, rfl⟩
      | _ => exact Or.inl (by rw [hempty]; rfl)

theorem all_verifyField_iff (fields : List String) :
    (fields.map utf8Bytes).all Cpp.verifyField = true ↔
      fields.all Rust.verifyField = true ∧ ∀ field ∈ fields, Rust.IsAscii field := by
  simp only [List.all_eq_true, List.forall_mem_map, Rust.verifyField_utf8Bytes, forall_and]

/-- A field that both check. -/
theorem allowed_of_same {fields : List String} {fields' : List Cpp.StdString} {value : Prop}
    (h : fields' = fields.map utf8Bytes) (hvalue : ¬value) :
    fields'.all Cpp.verifyField = true ↔ fields.all Rust.verifyField = true ∧
      ¬(fields.all Rust.verifyField = true ∧
        ((∃ field ∈ fields, ¬Rust.IsAscii field) ∨ value)) := by
  rw [h, all_verifyField_iff]
  refine and_congr_right fun hall => ?_
  simp only [hall, true_and, hvalue, or_false, not_exists, not_and, not_not]

/-- C++ allows what Rust allows, unless it is overlooked. -/
theorem SameParams.allowed_iff {item : Rust.OperationItem} {item' : Cpp.OperationItem}
    (h : SameParams item item') :
    item'.allowed = true ↔ item.allowed = true ∧ ¬Overlooked item item' := by
  unfold Overlooked Cpp.OperationItem.allowed Cpp.OperationItem.fields Rust.OperationItem.allowed
    Rust.OperationItem.fields
  rw [h.operation, Rust.getPredicatesVerifyType_toI32]
  generalize Rust.getVerifyType item.operation = kind
  rcases kind
  case default => exact allowed_of_same rfl fun hvalue => hvalue.1
  case multi2ParamsSys => exact allowed_of_same h.multi_eq fun hvalue => hvalue.1
  all_goals
    rcases h.single_cases with hfield | ⟨hempty, value, rest, hparams⟩
    · refine allowed_of_same (congrArg (fun field => [field]) hfield) ?_
      rintro ⟨-, hempty, value, rest, hparams, hbad⟩
      rw [hparams, hempty] at hfield
      rw [show value = [] from hfield] at hbad
      cases hbad
    · simp [Cpp.OperationItem.fieldsOf, Rust.OperationItem.fieldsOf, hempty, hparams,
        Rust.PredicatesVerifyType.toCpp, Rust.PredicatesVerifyType.IsSingle,
        Cpp.SingleValue.toStdString, Rust.IsAscii]

/-! ## The answers -/

namespace Rust

/-- The first item that Rust rejects has the operation. -/
def StandsIn (operation : OperationType) (items : List OperationItem) : Prop :=
  ∃ before item after, items = before ++ item :: after ∧
    (∀ earlier ∈ before, earlier.allowed = true) ∧ item.allowed = false ∧
      item.operation = operation

theorem verifyItems_cons_of_allowed {item : OperationItem} (items : List OperationItem)
    (h : item.allowed = true) : verifyItems (item :: items) = verifyItems items := by
  rw [verifyItems, verify_eq, if_pos h]
  rfl

theorem verifyItems_cons_of_rejected {item : OperationItem} (items : List OperationItem)
    (h : item.allowed = false) :
    verifyItems (item :: items) = (item.operation.toI32, errorOf (getVerifyType item.operation)) := by
  have hverify : item.verify = errorOf (getVerifyType item.operation) := by
    rw [verify_eq, h]
    rfl
  rw [verifyItems, hverify, if_pos (errorOf_ne_zero h)]

theorem toI32_injective : Function.Injective OperationType.toI32 := by
  intro t t' h
  have heq := OperationType.fromI32_toI32 t
  rw [h, OperationType.fromI32_toI32] at heq
  exact (Option.some.inj heq).symm

theorem verifyItems_eq_iff (operation : OperationType) (hzero : errorOf (getVerifyType operation) ≠ 0) :
    ∀ items, verifyItems items = (operation.toI32, errorOf (getVerifyType operation)) ↔
      StandsIn operation items
  | [] => by
    refine iff_of_false (fun h => hzero (congrArg Prod.snd h).symm) ?_
    rintro ⟨before, item, after, hitems, -⟩
    simp at hitems
  | item :: items => by
    by_cases hitem : item.allowed = true
    · rw [verifyItems_cons_of_allowed items hitem, verifyItems_eq_iff operation hzero items]
      constructor
      · rintro ⟨before, next, after, rfl, hbefore, hnext⟩
        exact ⟨item :: before, next, after, rfl, List.forall_mem_cons.mpr ⟨hitem, hbefore⟩, hnext⟩
      · rintro ⟨before, next, after, hitems, hbefore, hnext, hop⟩
        rcases before with _ | ⟨first, before⟩
        · obtain ⟨rfl, -⟩ := List.cons.inj hitems
          rw [hitem] at hnext
          cases hnext
        · obtain ⟨rfl, rfl⟩ := List.cons.inj hitems
          exact ⟨before, next, after, rfl, (List.forall_mem_cons.mp hbefore).2, hnext, hop⟩
    · rw [Bool.not_eq_true] at hitem
      rw [verifyItems_cons_of_rejected items hitem]
      constructor
      · intro h
        exact ⟨[], item, items, rfl, by simp, hitem, toI32_injective (congrArg Prod.fst h)⟩
      · rintro ⟨before, next, after, hitems, hbefore, -, hop⟩
        rcases before with _ | ⟨first, before⟩
        · obtain ⟨rfl, -⟩ := List.cons.inj hitems
          rw [hop]
        · obtain ⟨rfl, -⟩ := List.cons.inj hitems
          rw [hbefore _ List.mem_cons_self] at hitem
          cases hitem

end Rust

theorem Overlooked.errorOf_ne_zero {item : Rust.OperationItem} {item' : Cpp.OperationItem}
    (h : Overlooked item item') : Rust.errorOf (Rust.getVerifyType item.operation) ≠ 0 := by
  unfold Overlooked Rust.OperationItem.fields at h
  generalize Rust.getVerifyType item.operation = kind at h
  cases kind with
  | default => rcases h.2 with ⟨field, hfield, -⟩ | ⟨hsingle, -⟩ <;> contradiction
  | _ => decide

/-- An overlooked item comes first only where a later one stands in for it. -/
def Unnoticed (items : List Rust.OperationItem) (items' : List Cpp.OperationItem) : Prop :=
  ∀ before item after before' item' after', items = before ++ item :: after →
    items' = before' ++ item' :: after' → before.length = before'.length →
      (∀ earlier ∈ before', earlier.allowed = true) → Overlooked item item' →
        Rust.StandsIn item.operation after

theorem unnoticed_cons_of_allowed {item : Rust.OperationItem} {item' : Cpp.OperationItem}
    (items : List Rust.OperationItem) (items' : List Cpp.OperationItem)
    (hover : ¬Overlooked item item') (h : item'.allowed = true) :
    Unnoticed (item :: items) (item' :: items') ↔ Unnoticed items items' := by
  constructor
  · intro hall before next after before' next' after' hitems hitems' hlen hbefore
    refine hall (item :: before) next after (item' :: before') next' after' ?_ ?_ ?_ ?_
    · rw [hitems, List.cons_append]
    · rw [hitems', List.cons_append]
    · rw [List.length_cons, List.length_cons, hlen]
    · exact List.forall_mem_cons.mpr ⟨h, hbefore⟩
  · intro hall before next after before' next' after' hitems hitems' hlen hbefore hnext
    rcases before with _ | ⟨first, before⟩
    · obtain rfl := List.length_eq_zero_iff.mp hlen.symm
      obtain ⟨rfl, -⟩ := List.cons.inj hitems
      obtain ⟨rfl, -⟩ := List.cons.inj hitems'
      exact absurd hnext hover
    · rcases before' with _ | ⟨first', before'⟩
      · cases hlen
      · obtain ⟨-, rfl⟩ := List.cons.inj hitems
        obtain ⟨-, rfl⟩ := List.cons.inj hitems'
        exact hall before next after before' next' after' rfl rfl (Nat.succ_injective hlen)
          (List.forall_mem_cons.mp hbefore).2 hnext

theorem unnoticed_cons_of_rejected {item : Rust.OperationItem} {item' : Cpp.OperationItem}
    (items : List Rust.OperationItem) (items' : List Cpp.OperationItem)
    (h : item'.allowed = false) :
    Unnoticed (item :: items) (item' :: items') ↔
      (Overlooked item item' → Rust.StandsIn item.operation items) := by
  constructor
  · intro hall
    exact hall [] item items [] item' items' rfl rfl rfl (by simp)
  · intro hfirst before next after before' next' after' hitems hitems' hlen hbefore
    rcases before' with _ | ⟨first', before'⟩
    · obtain rfl := List.length_eq_zero_iff.mp hlen
      obtain ⟨rfl, rfl⟩ := List.cons.inj hitems
      obtain ⟨rfl, -⟩ := List.cons.inj hitems'
      exact hfirst
    · obtain ⟨rfl, -⟩ := List.cons.inj hitems'
      rw [hbefore _ List.mem_cons_self] at h
      cases h

theorem verifyItems_eq_verifyOperations_iff {items : List Rust.OperationItem}
    {items' : List Cpp.OperationItem} (h : List.Forall₂ SameParams items items') :
    Rust.verifyItems items = Cpp.verifyOperations items' ↔ Unnoticed items items' := by
  induction h with
  | nil =>
    refine iff_of_true rfl ?_
    intro before item after before' item' after' hitems
    simp at hitems
  | @cons item item' items items' hsame _ ih =>
    have hverify := Cpp.verify_eq item' hsame.operation
    by_cases hallowed : item'.allowed = true
    · obtain ⟨hitem, hover⟩ := hsame.allowed_iff.mp hallowed
      rw [unnoticed_cons_of_allowed items items' hover hallowed, ← ih,
        Rust.verifyItems_cons_of_allowed items hitem, Cpp.verifyOperations, hverify, if_pos hallowed]
      rfl
    rw [if_neg hallowed] at hverify
    have hoperation : Rust.errorOf (Rust.getVerifyType item.operation) ≠ 0 →
        Cpp.verifyOperations (item' :: items') =
          (item.operation.toI32, Rust.errorOf (Rust.getVerifyType item.operation)) := by
      intro hzero
      rw [Cpp.verifyOperations, hverify, if_pos hzero, hsame.operation]
    rw [unnoticed_cons_of_rejected items items' (Bool.eq_false_of_not_eq_true hallowed)]
    by_cases hitem : item.allowed = true
    · have hover : Overlooked item item' := by
        by_contra hover
        exact hallowed (hsame.allowed_iff.mpr ⟨hitem, hover⟩)
      rw [hoperation hover.errorOf_ne_zero, Rust.verifyItems_cons_of_allowed items hitem,
        Rust.verifyItems_eq_iff item.operation hover.errorOf_ne_zero]
      exact ⟨fun h _ => h, fun h => h hover⟩
    · rw [Bool.not_eq_true] at hitem
      rw [hoperation (Rust.errorOf_ne_zero hitem), Rust.verifyItems_cons_of_rejected items hitem]
      refine iff_of_true rfl fun hover => ?_
      rw [hover.1] at hitem
      cases hitem

/-! ## Where corresponding items come from -/

/-- The item that C++ reads from what Rust writes. -/
theorem SameItem.sameParams {item : Rust.OperationItem} {item' : Cpp.OperationItem}
    (h : SameItem item item') : SameParams item item' := by
  have hsingle := h.single
  rw [Rust.OperationItem.singleParams] at hsingle
  have hmulti := h.multi
  refine ⟨h.operation, ?_, ?_⟩
  · by_cases hempty : item.field = ""
    · rw [if_pos hempty, List.nil_append] at hsingle
      exact ⟨[], 0, Or.inr ⟨hempty, rfl⟩, by simpa [Rust.OperationItem.values] using hsingle⟩
    · rw [if_neg hempty] at hsingle
      exact ⟨_, 0, Or.inl rfl, by simpa [Rust.OperationItem.values] using hsingle⟩
  · rwa [List.take_of_length_le]
    rw [← hmulti.length_eq]
    cases item.multiValues <;> simp

theorem sameSingle_toRust {value : Cpp.SingleValue} (h : value.Accepted) :
    SameSingle value.toRust value := by
  cases value with
  | string val =>
    have hsame := SameSingle.string (toRustString val)
    rwa [utf8Bytes_toRustString h] at hsame
  | _ => constructor

theorem sameMulti_toRust {value : Cpp.MutliValue} (h : value.Accepted) :
    SameMulti value.toRust value := by
  cases value with
  | string val =>
    have hsame := SameMulti.strings (val.map toRustString)
    have hbytes : (val.map toRustString).map utf8Bytes = val := by
      rw [List.map_map]
      exact (List.map_congr_left fun s hs => utf8Bytes_toRustString (h s hs)).trans (List.map_id _)
    rwa [hbytes, List.map_map] at hsame
  | _ => constructor

/-- The item that Rust reads from what C++ writes. -/
theorem sameParams_toRust {item : Cpp.OperationItem} (h : item.Accepted)
    {operation : Rust.OperationType}
    (hop : Rust.OperationType.fromI32 item.operation = some operation) :
    SameParams item.toRust item := by
  have hsingle : List.Forall₂ SameSingle (item.singleParams.map (·.toRust)) item.singleParams := by
    rw [List.forall₂_map_left_iff, List.forall₂_same]
    exact fun value hvalue => sameSingle_toRust (h.single value hvalue)
  rw [Cpp.OperationItem.toRust, hop, Option.getD_some]
  refine ⟨?_, ?_, ?_⟩
  · rw [Rust.OperationItem.operation_ofParams, Rust.OperationType.toI32_of_fromI32 hop]
  · generalize item.singleParams.map (·.toRust) = params at hsingle ⊢
    have hrest : ∀ rest : List Rust.SingleValue, rest.head?.toList ++ rest.tail = rest := by
      intro rest
      cases rest <;> rfl
    rcases params with _ | ⟨first, rest⟩
    · exact ⟨[], 0, Or.inr ⟨rfl, rfl⟩, by simpa [Rust.OperationItem.ofParams,
        Rust.OperationItem.values] using hsingle⟩
    · by_cases hlimit : operation = .limit ∨ operation = .offset
      · refine ⟨[], 0, Or.inr ⟨by simp [Rust.OperationItem.ofParams, hlimit], rfl⟩, ?_⟩
        simpa [Rust.OperationItem.ofParams, Rust.OperationItem.values, hlimit] using hsingle
      · cases first with
        | string s =>
          refine ⟨_, 0, Or.inl rfl, ?_⟩
          simpa [Rust.OperationItem.ofParams, Rust.OperationItem.values, hlimit, hrest] using hsingle
        | _ =>
          refine ⟨[], 0, Or.inr ⟨by simp [Rust.OperationItem.ofParams, hlimit], rfl⟩, ?_⟩
          simpa [Rust.OperationItem.ofParams, Rust.OperationItem.values, hlimit] using hsingle
  · rw [Rust.OperationItem.multiValues_ofParams]
    have hmulti := h.multi
    generalize item.multiParams = params at hmulti ⊢
    rcases params with _ | ⟨first, rest⟩
    · exact .nil
    · exact .cons (sameMulti_toRust (hmulti first List.mem_cons_self)) .nil

/-- The builder calls that both languages have. -/
inductive SameCall : Rust.BuilderCall → Cpp.BuilderCall → Prop
  | equalTo (field : String) {value : Rust.SingleValue} {value' : Cpp.SingleValue}
      (h : SameSingle value value') :
      SameCall (.equalTo field value) (.equalTo (utf8Bytes field) value')
  | notEqualTo (field : String) {value : Rust.SingleValue} {value' : Cpp.SingleValue}
      (h : SameSingle value value') :
      SameCall (.notEqualTo field value) (.notEqualTo (utf8Bytes field) value')
  | greaterThan (field : String) {value : Rust.SingleValue} {value' : Cpp.SingleValue}
      (h : SameSingle value value') :
      SameCall (.greaterThan field value) (.greaterThan (utf8Bytes field) value')
  | lessThan (field : String) {value : Rust.SingleValue} {value' : Cpp.SingleValue}
      (h : SameSingle value value') :
      SameCall (.lessThan field value) (.lessThan (utf8Bytes field) value')
  | inSet (field : String) {values : List Rust.SingleValue} {values' : Cpp.MutliValue}
      (h : SameMulti values values') :
      SameCall (.inSet field values) (.in (utf8Bytes field) values')
  | orderByAsc (field : String) : SameCall (.orderByAsc field) (.orderByAsc (utf8Bytes field))
  | orderByDesc (field : String) : SameCall (.orderByDesc field) (.orderByDesc (utf8Bytes field))

namespace Cpp.DataSharePredicates

theorem operations_pushOperation (p : DataSharePredicates) (item : OperationItem) :
    (p.pushOperation item).operations = p.operations ++ [item] := by
  rw [pushOperation]
  split <;> rfl

end Cpp.DataSharePredicates

/-- The items of an operation with a field and values. -/
theorem sameParams_singles (operation : Rust.OperationType) (field : String)
    {value : Option Rust.SingleValue} {value' : Cpp.SingleValue}
    (h : SameSingle (value.getD .null) value') :
    SameParams ⟨operation, field, value, none, []⟩
      ⟨operation.toI32, [.string (utf8Bytes field), value', .null], []⟩ := by
  refine ⟨rfl, ?_, .nil⟩
  rcases value with _ | value
  · exact ⟨_, 2, Or.inl rfl, .cons (.string field) (.cons h (.cons .null .nil))⟩
  · exact ⟨_, 1, Or.inl rfl, .cons (.string field) (.cons h (.cons .null .nil))⟩

/-- The same calls build corresponding items. -/
theorem sameParams_apply {p : Rust.DataSharePredicates} {p' : Cpp.DataSharePredicates}
    (h : List.Forall₂ SameParams p.operations p'.operations) {call : Rust.BuilderCall}
    {call' : Cpp.BuilderCall} (hcall : SameCall call call') :
    List.Forall₂ SameParams (call.apply p).operations (call'.apply p').operations := by
  have hpush : ∀ {item item'}, SameParams item item' →
      List.Forall₂ SameParams (p.push item).operations (p'.pushOperation item').operations := by
    intro item item' hitem
    rw [Cpp.DataSharePredicates.operations_pushOperation]
    exact List.rel_append h (.cons hitem .nil)
  cases hcall with
  | equalTo field hvalue => exact hpush (sameParams_singles .equalTo field hvalue)
  | notEqualTo field hvalue => exact hpush (sameParams_singles .notEqualTo field hvalue)
  | greaterThan field hvalue => exact hpush (sameParams_singles .greaterThan field hvalue)
  | lessThan field hvalue => exact hpush (sameParams_singles .lessThan field hvalue)
  | inSet field hvalues =>
    exact hpush ⟨rfl, ⟨_, 0, Or.inl rfl, .cons (.string field) .nil⟩, .cons hvalues .nil⟩
  | orderByAsc field => exact hpush (sameParams_singles .orderByAsc field .null)
  | orderByDesc field => exact hpush (sameParams_singles .orderByDesc field .null)

theorem sameParams_buildPredicates {calls : List Rust.BuilderCall} {calls' : List Cpp.BuilderCall}
    (h : List.Forall₂ SameCall calls calls') :
    List.Forall₂ SameParams (Rust.buildPredicates calls).operations
      (Cpp.buildPredicates calls').operations := by
  have hfoldl : ∀ (p : Rust.DataSharePredicates) (p' : Cpp.DataSharePredicates),
      List.Forall₂ SameParams p.operations p'.operations →
        List.Forall₂ SameParams (calls.foldl Rust.BuilderCall.apply p).operations
          (calls'.foldl Cpp.BuilderCall.apply p').operations := by
    induction h with
    | nil => exact fun _ _ hp => hp
    | cons hcall _ ih => exact fun _ _ hp => ih _ _ (sameParams_apply hp hcall)
  exact hfoldl _ _ .nil

/-! ## The same answer -/

/-- Both answer the same exactly if the items that C++ alone rejects stay unnoticed. -/
theorem verifyPredicates_eq_iff (p : Rust.DataSharePredicates) (p' : Cpp.DataSharePredicates)
    (h : List.Forall₂ SameParams p.operations p'.operations) :
    Rust.verifyPredicates p = Cpp.DataSharePredicatesVerify.verifyPredicates p' ↔
      Unnoticed p.operations p'.operations :=
  verifyItems_eq_verifyOperations_iff h

/-- `EqualTo("name", 1)` and `OrderByAsc("age")`. -/
theorem verifyPredicates_eq_iff_names :
    Rust.verifyPredicates (Rust.buildPredicates [.equalTo "name" (.int 1), .orderByAsc "age"]) =
        Cpp.DataSharePredicatesVerify.verifyPredicates (Cpp.buildPredicates
          [.equalTo (utf8Bytes "name") (.int 1), .orderByAsc (utf8Bytes "age")]) ↔
      Unnoticed (Rust.buildPredicates [.equalTo "name" (.int 1), .orderByAsc "age"]).operations
        (Cpp.buildPredicates
          [.equalTo (utf8Bytes "name") (.int 1), .orderByAsc (utf8Bytes "age")]).operations :=
  verifyPredicates_eq_iff _ _
    (sameParams_buildPredicates (.cons (.equalTo "name" (.int 1)) (.cons (.orderByAsc "age") .nil)))

/-- `GreaterThan("\u00a0name", 1)` is fine in Rust and illegal in C++. -/
theorem not_verifyPredicates_eq :
    ¬∀ (calls : List Rust.BuilderCall) (calls' : List Cpp.BuilderCall),
      List.Forall₂ SameCall calls calls' → Rust.verifyPredicates (Rust.buildPredicates calls) =
        Cpp.DataSharePredicatesVerify.verifyPredicates (Cpp.buildPredicates calls') := by
  intro h
  have hsame := h _ _ (.cons (.greaterThan "\u00a0name" (.int 1)) .nil)
  have hrust : Rust.verifyPredicates
      (Rust.buildPredicates [.greaterThan "\u00a0name" (.int 1)]) = (0, 0) := by
    decide +kernel
  have hcpp : Cpp.DataSharePredicatesVerify.verifyPredicates
      (Cpp.buildPredicates [.greaterThan (utf8Bytes "\u00a0name") (.int 1)]) = (3, 1087) := by
    decide +kernel
  rw [hrust, hcpp] at hsame
  cases hsame

end DataShare
