import Mathlib.Computability.RegularExpressions
import DataShare.CppPredicates

/-!
# The verification of predicates

`DataSharePredicatesVerify` checks the fields of a request against a few patterns, before the
provider builds SQL of them. A field of a system interface that matches none is illegal. A
field of a public interface that matches none is only invalid : `DataShareStubImpl` reports
it and goes on.

The loop over the items returns the first error, of either kind. So an illegal field behind
an invalid one is not seen, and the answer depends on the order of the items. It does not
exactly if the items have errors of at most one kind (`verifyPredicates_enforced_iff`).
-/

namespace DataShare

namespace Cpp

def eFieldIllegal : Int32 := 1087

def eFieldInvalid : Int32 := 1088

/-! ## The patterns -/

section Patterns

open RegularExpression

abbrev Pattern := RegularExpression UInt8

def oneOf (chars : List UInt8) : Pattern :=
  chars.foldr (fun c p => char c + p) 0

/-- `\s`, in the C locale. -/
def whitespace : Pattern :=
  oneOf [32, 9, 10, 11, 12, 13]

/-- The bytes from `first` on. -/
def charRange (first : UInt8) (n : ℕ) : List UInt8 :=
  (List.range n).map fun i => first + UInt8.ofNat i

/-- `[a-zA-Z0-9_]+`. -/
def wordPattern : Pattern :=
  let wordChar := oneOf (charRange 97 26 ++ (charRange 65 26 ++ (charRange 48 10 ++ [95])))
  wordChar * star wordChar

/-- `^\s*core\s*$`, with `core` as it is, in parentheses, in brackets or in quotes. -/
def optionalBrackets (core : Pattern) : Pattern :=
  let spaced (p : Pattern) : Pattern := star whitespace * (p * star whitespace)
  spaced core + (spaced (char 40 * (core * char 41)) +
    (spaced (char 91 * (core * char 93)) + spaced (char 34 * (core * char 34))))

def colnameOptionalBrackets : Pattern :=
  optionalBrackets wordPattern

def tablenameDotColnameOptionalBrackets : Pattern :=
  optionalBrackets (wordPattern * (char 46 * wordPattern))

/-- The pattern starts with a dollar sign. -/
def ampersandDotColnameOptionalBrackets : Pattern :=
  optionalBrackets (char 36 * (char 46 * wordPattern))

def storeTableColnameOptionalBrackets : Pattern :=
  optionalBrackets (wordPattern * (char 46 * (wordPattern * (char 46 * wordPattern))))

end Patterns

/-- An empty field is allowed. -/
def verifyField (field : StdString) : Bool :=
  if field = [] then true
  else
    colnameOptionalBrackets.rmatch field || (tablenameDotColnameOptionalBrackets.rmatch field ||
      (ampersandDotColnameOptionalBrackets.rmatch field ||
        storeTableColnameOptionalBrackets.rmatch field))

def verifyFields (fields : List StdString) : Bool :=
  fields.all verifyField

/-! ## The items -/

/-- `operator std::string` : empty for a value of another type. -/
def SingleValue.toStdString : SingleValue → StdString
  | .string val => val
  | _ => []

/-- `operator std::vector<std::string>`. -/
def MutliValue.toStdStrings : MutliValue → List StdString
  | .string val => val
  | _ => []

inductive PredicatesVerifyType
  | verifyDefault
  | single2ParamsPublic
  | single3ParamsPublic
  | single2ParamsSys
  | single3ParamsSys
  | multi2ParamsSys
deriving DecidableEq, Repr

def single2ParamsPublicSet : List OperationType := [.orderByAsc, .orderByDesc]

def single3ParamsPublicSet : List OperationType := [.equalTo]

def single2ParamsSysSet : List OperationType := [.isNull, .isNotNull, .indexedBy, .keyPrefix]

def single3ParamsSysSet : List OperationType :=
  [.notEqualTo, .greaterThan, .lessThan, .greaterThanOrEqualTo, .lessThanOrEqualTo, .notIn, .like,
    .unlike, .beginWith, .endWith, .contains, .glob, .between, .notBetween]

def multi2ParamsSysSet : List OperationType := [.inKey, .groupBy]

def getPredicatesVerifyType (type : Int32) : PredicatesVerifyType :=
  let isIn (set : List OperationType) : Bool := set.any fun t => t.code == type
  if isIn single2ParamsPublicSet then .single2ParamsPublic
  else if isIn single3ParamsPublicSet then .single3ParamsPublic
  else if isIn single2ParamsSysSet then .single2ParamsSys
  else if isIn single3ParamsSysSet then .single3ParamsSys
  else if isIn multi2ParamsSysSet then .multi2ParamsSys
  else .verifyDefault

def checkParamNum (verifyType : PredicatesVerifyType) (item : OperationItem) : Bool :=
  match verifyType with
  | .verifyDefault => true
  | .multi2ParamsSys => item.multiParams.length > 0
  | _ => item.singleParams.length > 0

/-- `VerifyField(item.GetSingle(0))`, after the check of the number of parameters. -/
def OperationItem.verifySingle (item : OperationItem) : Bool :=
  verifyField (item.singleParams.headD .null).toStdString

/-- `VerifyFields(item.multiParams[0])`. -/
def OperationItem.verifyMulti (item : OperationItem) : Bool :=
  verifyFields (item.multiParams.headD .null).toStdStrings

def verifyPredicatesByType (verifyType : PredicatesVerifyType) (item : OperationItem) : Int32 :=
  if verifyType = .verifyDefault ∨ checkParamNum verifyType item = false then 0
  else
    match verifyType with
    | .single2ParamsPublic | .single3ParamsPublic =>
      if item.verifySingle = false then eFieldInvalid else 0
    | .single2ParamsSys | .single3ParamsSys =>
      if item.verifySingle = false then eFieldIllegal else 0
    | .multi2ParamsSys => if item.verifyMulti = false then eFieldIllegal else 0
    | .verifyDefault => 0

def OperationItem.verify (item : OperationItem) : Int32 :=
  verifyPredicatesByType (getPredicatesVerifyType item.operation) item

/-! ## The loop -/

/-- The loop of `VerifyPredicates`, which gives the operation and its error. -/
def verifyOperations : List OperationItem → Int32 × Int32
  | [] => (0, 0)
  | oper :: operations =>
    if oper.verify ≠ 0 then (oper.operation, oper.verify) else verifyOperations operations

namespace DataSharePredicatesVerify

def verifyPredicates (predicates : DataSharePredicates) : Int32 × Int32 :=
  verifyOperations predicates.operations

end DataSharePredicatesVerify

namespace DataShareStubImpl

/-- An invalid field is reported only. -/
def verifyPredicates (predicates : DataSharePredicates) : Bool :=
  let errCode := (DataSharePredicatesVerify.verifyPredicates predicates).2
  errCode = eFieldInvalid || errCode = 0

end DataShareStubImpl

/-! ## What an item's error says -/

/-- The operation is of a public kind. -/
def OperationItem.IsPublic (item : OperationItem) : Prop :=
  getPredicatesVerifyType item.operation ∈
    [PredicatesVerifyType.single2ParamsPublic, .single3ParamsPublic]

/-- The operation is of a system kind, with one field. -/
def OperationItem.IsSystem (item : OperationItem) : Prop :=
  getPredicatesVerifyType item.operation ∈
    [PredicatesVerifyType.single2ParamsSys, .single3ParamsSys]

/-- The first parameter is there, and is no allowed field. -/
def OperationItem.BadSingle (item : OperationItem) : Prop :=
  ∃ first rest, item.singleParams = first :: rest ∧ verifyField first.toStdString = false

/-- The first list parameter is there, and not all of it are allowed fields. -/
def OperationItem.BadMulti (item : OperationItem) : Prop :=
  ∃ first rest, item.multiParams = first :: rest ∧
    ∃ field ∈ first.toStdStrings, verifyField field = false

/-- A public item whose field matches no pattern. -/
def OperationItem.Invalid (item : OperationItem) : Prop :=
  item.IsPublic ∧ item.BadSingle

/-- A system item with a field that matches no pattern. -/
def OperationItem.Illegal (item : OperationItem) : Prop :=
  item.IsSystem ∧ item.BadSingle ∨
    getPredicatesVerifyType item.operation = .multi2ParamsSys ∧ item.BadMulti

theorem badSingle_iff {item : OperationItem} :
    item.BadSingle ↔ item.singleParams ≠ [] ∧ item.verifySingle = false := by
  unfold OperationItem.BadSingle OperationItem.verifySingle
  cases item.singleParams <;> simp

theorem badMulti_iff {item : OperationItem} :
    item.BadMulti ↔ item.multiParams ≠ [] ∧ item.verifyMulti = false := by
  unfold OperationItem.BadMulti OperationItem.verifyMulti verifyFields
  cases item.multiParams <;> simp

theorem illegal_ne_ok : eFieldIllegal ≠ 0 := by decide

theorem invalid_ne_ok : eFieldInvalid ≠ 0 := by decide

theorem illegal_ne_invalid : eFieldIllegal ≠ eFieldInvalid := by decide

/-- The check of one parameter list, with the error of its kind. -/
theorem ite_check_eq_iff {missing bad : Prop} [Decidable missing] [Decidable bad]
    {err code : Int32} (hcode : code ≠ 0) :
    (if missing then 0 else if bad then err else 0) = code ↔ err = code ∧ ¬missing ∧ bad := by
  by_cases hmissing : missing
  · simp [hmissing, hcode.symm]
  · by_cases hbad : bad
    · simp [hmissing, hbad]
    · simp [hmissing, hbad, hcode.symm]

theorem verify_eq_illegal_iff (item : OperationItem) :
    item.verify = eFieldIllegal ↔ item.Illegal := by
  unfold OperationItem.Illegal OperationItem.IsSystem OperationItem.verify verifyPredicatesByType
  rw [badSingle_iff, badMulti_iff]
  rcases getPredicatesVerifyType item.operation <;>
    simp [checkParamNum, ite_check_eq_iff, illegal_ne_ok, illegal_ne_invalid.symm,
      illegal_ne_ok.symm, List.length_eq_zero_iff]

theorem verify_eq_invalid_iff (item : OperationItem) :
    item.verify = eFieldInvalid ↔ item.Invalid := by
  unfold OperationItem.Invalid OperationItem.IsPublic OperationItem.verify verifyPredicatesByType
  rw [badSingle_iff]
  rcases getPredicatesVerifyType item.operation <;>
    simp [checkParamNum, ite_check_eq_iff, invalid_ne_ok, illegal_ne_invalid,
      invalid_ne_ok.symm, List.length_eq_zero_iff]

theorem verify_cases (item : OperationItem) :
    item.verify = 0 ∨ item.verify = eFieldInvalid ∨ item.verify = eFieldIllegal := by
  unfold OperationItem.verify verifyPredicatesByType
  split
  · exact Or.inl rfl
  · split <;> (try split) <;> simp

example : verifyField (utf8Bytes " [t.c] ") = true := by decide +kernel

example : verifyField (utf8Bytes "a b") = false := by decide +kernel

/-! ## The order of the items -/

theorem verifyOperations_cons_of_ne {item : OperationItem} (operations : List OperationItem)
    (h : item.verify ≠ 0) : (verifyOperations (item :: operations)).2 = item.verify := by
  rw [verifyOperations, if_pos h]

/-- Without illegal fields nothing is rejected. -/
theorem verifyOperations_of_legal : ∀ {operations : List OperationItem},
    (∀ item ∈ operations, ¬item.Illegal) →
      (verifyOperations operations).2 = eFieldInvalid ∨ (verifyOperations operations).2 = 0
  | [], _ => Or.inr rfl
  | item :: operations, h => by
    obtain ⟨hitem, hrest⟩ := List.forall_mem_cons.mp h
    rw [← verify_eq_illegal_iff] at hitem
    rcases verify_cases item with hok | hinvalid | hillegal
    · rw [verifyOperations, if_neg (not_not_intro hok)]
      exact verifyOperations_of_legal hrest
    · rw [verifyOperations_cons_of_ne operations (hinvalid ▸ invalid_ne_ok), hinvalid]
      exact Or.inl rfl
    · exact absurd hillegal hitem

/-- Without invalid fields an illegal one is always seen. -/
theorem verifyOperations_of_valid : ∀ {operations : List OperationItem},
    (∀ item ∈ operations, ¬item.Invalid) → (∃ item ∈ operations, item.Illegal) →
      (verifyOperations operations).2 = eFieldIllegal
  | [], _, hex => by
    obtain ⟨item, hitem, -⟩ := hex
    exact absurd hitem List.not_mem_nil
  | item :: operations, h, hex => by
    obtain ⟨hitem, hrest⟩ := List.forall_mem_cons.mp h
    rw [← verify_eq_invalid_iff] at hitem
    rcases verify_cases item with hok | hinvalid | hillegal
    · rw [verifyOperations, if_neg (not_not_intro hok)]
      refine verifyOperations_of_valid hrest ?_
      obtain ⟨bad, hbad, hillegal⟩ := hex
      rcases List.mem_cons.mp hbad with rfl | hbad
      · rw [← verify_eq_illegal_iff, hok] at hillegal
        exact absurd hillegal.symm illegal_ne_ok
      · exact ⟨bad, hbad, hillegal⟩
    · exact absurd hinvalid hitem
    · rw [verifyOperations_cons_of_ne operations (hillegal ▸ illegal_ne_ok), hillegal]

namespace DataShareStubImpl

theorem verifyPredicates_iff {p : DataSharePredicates} :
    verifyPredicates p = true ↔
      (verifyOperations p.operations).2 = eFieldInvalid ∨ (verifyOperations p.operations).2 = 0 := by
  rw [verifyPredicates, DataSharePredicatesVerify.verifyPredicates, Bool.or_eq_true,
    decide_eq_true_iff, decide_eq_true_iff]

theorem verifyPredicates_eq_false {p : DataSharePredicates}
    (h : (verifyOperations p.operations).2 = eFieldIllegal) : verifyPredicates p = false := by
  rw [← Bool.not_eq_true, verifyPredicates_iff, h]
  simp [illegal_ne_invalid, illegal_ne_ok]

/-- A request with an illegal field is rejected, and the order of the items does not matter. -/
def Enforced (p : DataSharePredicates) : Prop :=
  ((∃ item ∈ p.operations, item.Illegal) → verifyPredicates p = false) ∧
    ∀ p' : DataSharePredicates, p'.operations.Perm p.operations →
      verifyPredicates p' = verifyPredicates p

/-- An item that is moved to the front decides. -/
theorem exists_perm_verify {p : DataSharePredicates} {item : OperationItem}
    (hitem : item ∈ p.operations) (h : item.verify ≠ 0) :
    ∃ p' : DataSharePredicates, p'.operations.Perm p.operations ∧
      (verifyOperations p'.operations).2 = item.verify :=
  ⟨{ p with operations := item :: p.operations.erase item }, (List.perm_cons_erase hitem).symm,
    verifyOperations_cons_of_ne _ h⟩

/-- Exactly when no illegal field hides. -/
theorem verifyPredicates_enforced_iff (p : DataSharePredicates) :
    Enforced p ↔
      ¬((∃ item ∈ p.operations, item.Illegal) ∧ ∃ item ∈ p.operations, item.Invalid) := by
  constructor
  · rintro ⟨hreject, horder⟩ ⟨hillegal, item, hitem, hinvalid⟩
    rw [← verify_eq_invalid_iff] at hinvalid
    obtain ⟨p', hperm, hfirst⟩ := exists_perm_verify hitem (hinvalid ▸ invalid_ne_ok)
    have haccept : verifyPredicates p' = true :=
      verifyPredicates_iff.mpr (Or.inl (hfirst.trans hinvalid))
    rw [horder p' hperm, hreject hillegal] at haccept
    cases haccept
  · intro hone
    by_cases hillegal : ∃ item ∈ p.operations, item.Illegal
    · -- every order is rejected
      have hvalid : ∀ item ∈ p.operations, ¬item.Invalid := fun item hitem hinvalid =>
        hone ⟨hillegal, item, hitem, hinvalid⟩
      have hreject : ∀ p' : DataSharePredicates, p'.operations.Perm p.operations →
          verifyPredicates p' = false := by
        intro p' hperm
        obtain ⟨item, hitem, hitem'⟩ := hillegal
        exact verifyPredicates_eq_false (verifyOperations_of_valid
          (fun item hitem => hvalid item (hperm.mem_iff.mp hitem))
          ⟨item, hperm.mem_iff.mpr hitem, hitem'⟩)
      have hself := hreject p (List.Perm.refl _)
      exact ⟨fun _ => hself, fun p' hperm => (hreject p' hperm).trans hself.symm⟩
    · -- every order is accepted
      have haccept : ∀ p' : DataSharePredicates, p'.operations.Perm p.operations →
          verifyPredicates p' = true := by
        intro p' hperm
        exact verifyPredicates_iff.mpr (verifyOperations_of_legal fun item hitem hitem' =>
          hillegal ⟨item, hperm.mem_iff.mp hitem, hitem'⟩)
      have hself := haccept p (List.Perm.refl _)
      exact ⟨fun h => absurd h hillegal, fun p' hperm => (haccept p' hperm).trans hself.symm⟩

/-- `EqualTo("a b", 1)` and then `GreaterThan("a b", 1)`. -/
def hiddenIllegalField : DataSharePredicates :=
  { operations := [⟨1, [.string (utf8Bytes "a b"), .int 1], []⟩,
      ⟨3, [.string (utf8Bytes "a b"), .int 1], []⟩] }

/-- The illegal field of the second item is not seen. -/
theorem not_enforced_hiddenIllegalField :
    ¬∀ p : DataSharePredicates, Enforced p := by
  intro h
  have hillegal : (⟨3, [.string (utf8Bytes "a b"), .int 1], []⟩ : OperationItem).Illegal :=
    (verify_eq_illegal_iff _).mp (by decide +kernel)
  have hreject := (h hiddenIllegalField).1 ⟨_, by simp [hiddenIllegalField], hillegal⟩
  have haccept : verifyPredicates hiddenIllegalField = true := by decide +kernel
  rw [haccept] at hreject
  cases hreject

end DataShareStubImpl

end Cpp

end DataShare
