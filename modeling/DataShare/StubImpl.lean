import DataShare.CppValuesBucket
import DataShare.PredicatesVerify

/-!
# The entry points of the provider

`DataShareStubImpl` stands between the requests of other processes and the extension of the
provider. Each of its operations checks the permission of the caller, and those that take
predicates verify them, before the extension is called through `uvQueue_`. The two checks
are copied from entry point to entry point, and `BatchUpdate` has only the first.

A request reaches the extension with all its checks made unless it is a `BatchUpdate` with
predicates that would not pass (`mediated_iff`).
-/

namespace DataShare

namespace Cpp

def dataShareError : Int32 := -1

def defaultNumber : Int32 := -1

def permissionErrorNumber : Int32 := -2

/-- An entry of `UpdateOperations`, a map from uris. -/
structure UpdateOperation where
  valuesBucket : DataShareValuesBucket
  predicates : DataSharePredicates

abbrev UpdateOperations := OrderedMap StdString (List UpdateOperation)

/-- `DataShareExtAbility`, to its `abilityInfo_`. -/
structure ExtAbility where
  readPermission : StdString
  writePermission : StdString

/-- A call of a method of the extension. -/
inductive ExtensionCall
  | update (uri : StdString) (predicates : DataSharePredicates) (value : DataShareValuesBucket)
  | batchUpdate (operations : UpdateOperations)
  | delete (uri : StdString) (predicates : DataSharePredicates)
  | query (uri : StdString) (predicates : DataSharePredicates) (columns : List StdString)

/-- The stub with the permissions of the caller, and what the extension answers. -/
structure DataShareStubImpl where
  extension : Option ExtAbility
  /-- `VerifyAccessToken` of the calling token. -/
  granted : StdString → Bool
  flag : Int32
  answer : ExtensionCall → Int32
  batchAnswer : ExtensionCall → List (StdString × List Int32)
  /-- A result set is named by a number, and `none` is a null pointer. -/
  resultSet : ExtensionCall → Option ℕ
  businessError : ExtensionCall → Int32

/-- What an entry point returns, and the calls of the extension it makes. -/
structure Handled (ρ : Type) where
  ret : ρ
  calls : List ExtensionCall

namespace DataShareStubImpl

variable (stub : DataShareStubImpl)

def checkCallingPermission (permission : StdString) : Bool :=
  permission = [] || stub.granted permission

/-- `JsSyncCall` or `StsSyncCall`, which call the extension and take its result. With another
flag nothing is called. -/
def syncCall {ρ : Type} (call : ExtensionCall) (ret result : ρ) : Handled ρ :=
  if stub.flag = 0 ∨ stub.flag = 1 then ⟨result, [call]⟩ else ⟨ret, []⟩

/-- What the entry points have in common : the owner, the permission of the caller, and the
call, each with what is returned if it ends there. -/
def guardedCall {ρ : Type} (permission : ExtAbility → StdString) (call : ExtensionCall)
    (noOwner denied ret result : ρ) : Handled ρ :=
  match stub.extension with
  | none => ⟨noOwner, []⟩
  | some extension =>
    if stub.checkCallingPermission (permission extension) = false then ⟨denied, []⟩
    else stub.syncCall call ret result

/-- The check of the predicates, before all else. -/
def verifiedCall {ρ : Type} (predicates : DataSharePredicates) (rejected : ρ)
    (handled : Handled ρ) : Handled ρ :=
  if verifyPredicates predicates = false then ⟨rejected, []⟩ else handled

def update (uri : StdString) (predicates : DataSharePredicates) (value : DataShareValuesBucket) :
    Handled Int32 :=
  let call := .update uri predicates value
  verifiedCall predicates dataShareError
    (stub.guardedCall ExtAbility.writePermission call defaultNumber permissionErrorNumber 0
      (stub.answer call))

/-- The predicates are not verified. -/
def batchUpdate (operations : UpdateOperations) : Handled (Int32 × List (StdString × List Int32)) :=
  let call := .batchUpdate operations
  stub.guardedCall ExtAbility.writePermission call (defaultNumber, []) (permissionErrorNumber, [])
    (0, []) (stub.answer call, stub.batchAnswer call)

def delete (uri : StdString) (predicates : DataSharePredicates) : Handled Int32 :=
  let call := .delete uri predicates
  verifiedCall predicates dataShareError
    (stub.guardedCall ExtAbility.writePermission call defaultNumber permissionErrorNumber 0
      (stub.answer call))

/-- `E_OK` stands before the result of the extension. -/
def updateEx (uri : StdString) (predicates : DataSharePredicates) (value : DataShareValuesBucket) :
    Handled (Int32 × Int32) :=
  let call := .update uri predicates value
  verifiedCall predicates (dataShareError, 0)
    (stub.guardedCall ExtAbility.writePermission call (dataShareError, 0)
      (permissionErrorNumber, 0) (0, 0) (0, stub.answer call))

def deleteEx (uri : StdString) (predicates : DataSharePredicates) : Handled (Int32 × Int32) :=
  let call := .delete uri predicates
  verifiedCall predicates (dataShareError, 0)
    (stub.guardedCall ExtAbility.writePermission call (dataShareError, 0)
      (permissionErrorNumber, 0) (0, 0) (0, stub.answer call))

/-- The code of `businessError` stays `0` unless it is set. -/
def query (uri : StdString) (predicates : DataSharePredicates) (columns : List StdString) :
    Handled (Option ℕ × Int32) :=
  let call := .query uri predicates columns
  verifiedCall predicates (none, 0)
    (stub.guardedCall ExtAbility.readPermission call (none, 0) (none, permissionErrorNumber)
      (none, 0) (stub.resultSet call, stub.businessError call))

end DataShareStubImpl

/-! ## Requests -/

/-- The operations that carry predicates. -/
inductive StubRequest
  | update (uri : StdString) (predicates : DataSharePredicates) (value : DataShareValuesBucket)
  | batchUpdate (operations : UpdateOperations)
  | delete (uri : StdString) (predicates : DataSharePredicates)
  | updateEx (uri : StdString) (predicates : DataSharePredicates) (value : DataShareValuesBucket)
  | deleteEx (uri : StdString) (predicates : DataSharePredicates)
  | query (uri : StdString) (predicates : DataSharePredicates) (columns : List StdString)

namespace StubRequest

/-- The calls of the extension that the entry point of the request makes. -/
def calls (stub : DataShareStubImpl) : StubRequest → List ExtensionCall
  | .update uri predicates value => (stub.update uri predicates value).calls
  | .batchUpdate operations => (stub.batchUpdate operations).calls
  | .delete uri predicates => (stub.delete uri predicates).calls
  | .updateEx uri predicates value => (stub.updateEx uri predicates value).calls
  | .deleteEx uri predicates => (stub.deleteEx uri predicates).calls
  | .query uri predicates columns => (stub.query uri predicates columns).calls

/-- The method of the extension that corresponds to the request. -/
def target : StubRequest → ExtensionCall
  | .update uri predicates value => .update uri predicates value
  | .batchUpdate operations => .batchUpdate operations
  | .delete uri predicates => .delete uri predicates
  | .updateEx uri predicates value => .update uri predicates value
  | .deleteEx uri predicates => .delete uri predicates
  | .query uri predicates columns => .query uri predicates columns

/-- Every predicates value in the request. -/
def predicates : StubRequest → List DataSharePredicates
  | .update _ predicates _ => [predicates]
  | .batchUpdate operations =>
    operations.entries.flatMap fun entry => entry.2.map UpdateOperation.predicates
  | .delete _ predicates => [predicates]
  | .updateEx _ predicates _ => [predicates]
  | .deleteEx _ predicates => [predicates]
  | .query _ predicates _ => [predicates]

/-- The permission that the extension requires. -/
def permission (extension : ExtAbility) : StubRequest → StdString
  | .query _ _ _ => extension.readPermission
  | _ => extension.writePermission

/-- The caller holds the permission that the request requires. -/
def Permitted (stub : DataShareStubImpl) (request : StubRequest) : Prop :=
  ∃ extension, stub.extension = some extension ∧
    stub.checkCallingPermission (request.permission extension) = true

/-- `VerifyPredicates` is true for every predicates value in the request. -/
def Verified (request : StubRequest) : Prop :=
  ∀ p ∈ request.predicates, DataShareStubImpl.verifyPredicates p = true

/-- The extension is called only for what the request asks, and only after both checks. -/
def Mediated (stub : DataShareStubImpl) (request : StubRequest) : Prop :=
  ∀ call ∈ request.calls stub, call = request.target ∧ request.Permitted stub ∧ request.Verified

end StubRequest

/-! ## The two checks -/

section Checks

variable {ρ : Type} {stub : DataShareStubImpl}

/-- The calls behind the check of the permission. -/
theorem calls_guardedCall (permission : ExtAbility → StdString) (call : ExtensionCall)
    (noOwner denied ret result : ρ) :
    (stub.guardedCall permission call noOwner denied ret result).calls =
      if (∃ extension, stub.extension = some extension ∧
          stub.checkCallingPermission (permission extension) = true) ∧
        (stub.flag = 0 ∨ stub.flag = 1) then [call] else [] := by
  unfold DataShareStubImpl.guardedCall DataShareStubImpl.syncCall
  rcases stub.extension with _ | extension
  · simp
  · by_cases hcheck : stub.checkCallingPermission (permission extension) = true
    · by_cases hflag : stub.flag = 0 ∨ stub.flag = 1 <;> simp [hcheck, hflag]
    · simp [hcheck]

/-- The calls behind the check of the predicates. -/
theorem calls_verifiedCall (predicates : DataSharePredicates) (rejected : ρ)
    (handled : Handled ρ) :
    (DataShareStubImpl.verifiedCall predicates rejected handled).calls =
      if DataShareStubImpl.verifyPredicates predicates = true then handled.calls else [] := by
  unfold DataShareStubImpl.verifiedCall
  by_cases h : DataShareStubImpl.verifyPredicates predicates = true <;> simp [h]

end Checks

namespace StubRequest

variable {stub : DataShareStubImpl} {request : StubRequest}

/-- The checks that the entry point of the request makes. -/
def Checked (stub : DataShareStubImpl) (request : StubRequest) : Prop :=
  request.Permitted stub ∧ ((∃ operations, request = .batchUpdate operations) ∨ request.Verified)

theorem verified_singleton {p : DataSharePredicates} (h : request.predicates = [p]) :
    request.Verified ↔ DataShareStubImpl.verifyPredicates p = true := by
  rw [Verified, h, List.forall_mem_singleton]

/-- An entry point that verifies its one predicates value. -/
theorem mem_verified_guarded {ρ : Type} {p : DataSharePredicates}
    {permission : ExtAbility → StdString} {call target : ExtensionCall}
    {rejected noOwner denied ret result : ρ} :
    call ∈ (DataShareStubImpl.verifiedCall p rejected
        (stub.guardedCall permission target noOwner denied ret result)).calls ↔
      call = target ∧ ((∃ extension, stub.extension = some extension ∧
        stub.checkCallingPermission (permission extension) = true) ∧
          DataShareStubImpl.verifyPredicates p = true) ∧ (stub.flag = 0 ∨ stub.flag = 1) := by
  rw [calls_verifiedCall, calls_guardedCall]
  by_cases hverified : DataShareStubImpl.verifyPredicates p = true
  · by_cases hcall : (∃ extension, stub.extension = some extension ∧
        stub.checkCallingPermission (permission extension) = true) ∧ (stub.flag = 0 ∨ stub.flag = 1)
    · simp [hverified, hcall]
    · simp only [hverified, if_true, if_neg hcall, List.not_mem_nil, false_iff, and_true]
      rintro ⟨-, h⟩
      exact hcall h
  · simp [hverified]

/-- What each entry point does : it calls the method that corresponds to the request, behind
the checks it makes. -/
theorem mem_calls_iff {call : ExtensionCall} :
    call ∈ request.calls stub ↔
      call = request.target ∧ request.Checked stub ∧ (stub.flag = 0 ∨ stub.flag = 1) := by
  have hsingle : ∀ p, request.predicates = [p] → (∀ operations, request ≠ .batchUpdate operations) →
      (request.Checked stub ↔
        request.Permitted stub ∧ DataShareStubImpl.verifyPredicates p = true) := by
    intro p hp hbatch
    rw [Checked, verified_singleton hp]
    simp [hbatch]
  cases request with
  | update uri p value =>
    rw [hsingle p rfl (by simp)]
    exact mem_verified_guarded
  | batchUpdate operations =>
    simp only [calls, DataShareStubImpl.batchUpdate, calls_guardedCall, Checked]
    split
    · next h =>
      rw [List.mem_singleton]
      exact ⟨fun hcall => ⟨hcall, ⟨h.1, Or.inl ⟨operations, rfl⟩⟩, h.2⟩, And.left⟩
    · next h =>
      simp only [List.not_mem_nil, false_iff]
      rintro ⟨-, ⟨hpermitted, -⟩, hflag⟩
      exact h ⟨hpermitted, hflag⟩
  | delete uri p =>
    rw [hsingle p rfl (by simp)]
    exact mem_verified_guarded
  | updateEx uri p value =>
    rw [hsingle p rfl (by simp)]
    exact mem_verified_guarded
  | deleteEx uri p =>
    rw [hsingle p rfl (by simp)]
    exact mem_verified_guarded
  | query uri p columns =>
    rw [hsingle p rfl (by simp)]
    exact mem_verified_guarded

/-- Exactly when a request reaches the extension with all its checks made only. -/
theorem mediated_iff (stub : DataShareStubImpl) (request : StubRequest) :
    request.Mediated stub ↔
      ∀ operations, request = .batchUpdate operations → request.Permitted stub →
        stub.flag = 0 ∨ stub.flag = 1 → request.Verified := by
  constructor
  · intro h operations hbatch hpermitted hflag
    exact (h request.target (mem_calls_iff.mpr ⟨rfl, ⟨hpermitted, Or.inl ⟨operations, hbatch⟩⟩,
      hflag⟩)).2.2
  · intro h call hcall
    obtain ⟨htarget, ⟨hpermitted, hchecked⟩, hflag⟩ := mem_calls_iff.mp hcall
    refine ⟨htarget, hpermitted, ?_⟩
    rcases hchecked with ⟨operations, hbatch⟩ | hverified
    · exact h operations hbatch hpermitted hflag
    · exact hverified

end StubRequest

/-- A provider that everyone may write to. -/
def openStub : DataShareStubImpl where
  extension := some ⟨[], []⟩
  granted _ := false
  flag := 0
  answer _ := 0
  batchAnswer _ := []
  resultSet _ := none
  businessError _ := 0

/-- The update of `uri` where `GreaterThan("a b", 1)`. -/
def illegalBatch : UpdateOperations :=
  OrderedMap.empty.assign [117]
    [⟨{}, { operations := [⟨3, [.string (utf8Bytes "a b"), .int 1], []⟩] }⟩]

/-- The batch is handed to the extension, with predicates that do not pass. -/
theorem not_mediated_illegalBatch :
    ¬∀ (stub : DataShareStubImpl) (request : StubRequest), request.Mediated stub := by
  intro h
  have hcall : .batchUpdate illegalBatch ∈ (StubRequest.batchUpdate illegalBatch).calls openStub :=
    List.mem_singleton_self _
  have hverified := (h openStub (.batchUpdate illegalBatch) _ hcall).2.2
    { operations := [⟨3, [.string (utf8Bytes "a b"), .int 1], []⟩] } (List.mem_singleton_self _)
  revert hverified
  decide +kernel

end Cpp

end DataShare
