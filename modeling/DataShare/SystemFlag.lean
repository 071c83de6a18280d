import DataShare.AmbientFlag

/-!
# The flag of system callers

A request of a system application is to be sent with an offset on its code. Both service proxies
learn of it from a flag : an operation stores it, sends its request, and resets the flag.

The Rust proxy has one flag for all threads, so that a request is sent with the code of its own
operation exactly if no other thread has stored another value since the operation stored its own
(`Rust.ownCode_iff`). The flag of the C++ proxy is one for each thread, and `SetSilentSwitch` resets
it there as well : in all runs, every request of these calls has its own code
(`Cpp.ownCode_of_threadLocal`).
-/

namespace DataShare

/-! ## Codes -/

/-- The commands of the service whose codes depend on the flag. -/
inductive DataShareServiceCmd where
  | query | addTemplate | delTemplate | publish | getData
  | subscribeRdb | unsubscribeRdb | enableSubscribeRdb | disableSubscribeRdb
  | subscribePublished | unsubscribePublished | enableSubscribePublished | disableSubscribePublished
  | notifyObservers | setSilentSwitch | getSilentProxyStatus
  | insertEx | deleteEx | updateEx
  deriving DecidableEq, Repr

def DataShareServiceCmd.code : DataShareServiceCmd → UInt32
  | query => 0
  | addTemplate => 1
  | delTemplate => 2
  | publish => 3
  | getData => 4
  | subscribeRdb => 5
  | unsubscribeRdb => 6
  | enableSubscribeRdb => 7
  | disableSubscribeRdb => 8
  | subscribePublished => 9
  | unsubscribePublished => 10
  | enableSubscribePublished => 11
  | disableSubscribePublished => 12
  | notifyObservers => 14
  | setSilentSwitch => 15
  | getSilentProxyStatus => 16
  | insertEx => 19
  | deleteEx => 20
  | updateEx => 21

/-- `SYSTEM_CODE_OFFSET`, and `DATA_SHARE_CMD_SYSTEM_CODE`. -/
def systemCodeOffset : UInt32 := 100

/-- `cast_ipc_code`, and `CastIPCCode`. -/
def castIpcCode (isSystem : Bool) (cmd : DataShareServiceCmd) : UInt32 :=
  if isSystem then cmd.code + systemCodeOffset else cmd.code

/-- A request, with what its call says of the caller, and whether the call stores this flag. -/
structure FlaggedRequest where
  cmd : DataShareServiceCmd
  isSystem : Bool
  flagged : Bool
  deriving DecidableEq

/-- The request is sent with the offset exactly if its call is one of a system caller. -/
def OwnCode (sent : FlaggedRequest × Bool) : Prop :=
  castIpcCode sent.2 sent.1.cmd = sent.1.cmd.code + systemCodeOffset ↔ sent.1.isSystem = true

instance : DecidablePred OwnCode := fun _ => inferInstanceAs (Decidable (_ ↔ _))

theorem castIpcCode_eq_offset (isSystem : Bool) (cmd : DataShareServiceCmd) :
    castIpcCode isSystem cmd = cmd.code + systemCodeOffset ↔ isSystem = true := by
  cases isSystem with
  | true => simp [castIpcCode]
  | false => simp [castIpcCode, systemCodeOffset]

theorem ownCode_iff_flag (sent : FlaggedRequest × Bool) :
    OwnCode sent ↔ sent.2 = sent.1.isSystem := by
  unfold OwnCode
  rw [castIpcCode_eq_offset]
  exact Bool.eq_iff_iff.symm

/-! ## Calls -/

/-- The calls that send requests. A request is sent if there is a proxy, and its parcel can be
written. -/
inductive SystemCall where
  /-- The flag is set, the request is sent, and the flag is cleaned. -/
  | flagged (isSystem : Bool) (cmd : DataShareServiceCmd) (written : Bool)
  | setSilentSwitch (isSystem proxy written : Bool)
  | getSilentProxyStatus (isSystem proxy written : Bool)
  /-- An operation that leaves the flag alone. -/
  | unflagged (cmd : DataShareServiceCmd)
  deriving DecidableEq

abbrev SystemAccess := FlagAccess FlaggedRequest

/-- The request of a call that has stored the flag. -/
def sendFlagged (isSystem : Bool) (cmd : DataShareServiceCmd) (sends : Bool) : List SystemAccess :=
  if sends then [.request ⟨cmd, isSystem, true⟩] else []

def setAndClean (isSystem : Bool) (cmd : DataShareServiceCmd) (written : Bool) : List SystemAccess :=
  .store isSystem :: sendFlagged isSystem cmd written ++ [.store false]

namespace Rust

def accesses : SystemCall → List SystemAccess
  | .flagged isSystem cmd written => setAndClean isSystem cmd written
  | .setSilentSwitch isSystem proxy written =>
    .store isSystem :: sendFlagged isSystem .setSilentSwitch (proxy && written)
  | .getSilentProxyStatus isSystem proxy written =>
    if proxy then setAndClean isSystem .getSilentProxyStatus written else []
  | .unflagged cmd => [.request ⟨cmd, false, false⟩]

end Rust

namespace Cpp

def accesses : SystemCall → List SystemAccess
  | .flagged isSystem cmd written => setAndClean isSystem cmd written
  | .setSilentSwitch isSystem proxy written =>
    if proxy then setAndClean isSystem .setSilentSwitch written else []
  | .getSilentProxyStatus isSystem proxy written =>
    if proxy then setAndClean isSystem .getSilentProxyStatus written else []
  | .unflagged cmd => [.request ⟨cmd, false, false⟩]

end Cpp

/-! ## Requests and their stores -/

/-- A request that follows a store, and may be followed by another one. -/
theorem request_of_sendFlagged {isSystem sends : Bool} {cmd : DataShareServiceCmd}
    {tail pre post : List SystemAccess} {sent : FlaggedRequest} (htail : ∀ r, .request r ∉ tail)
    (h : .store isSystem :: sendFlagged isSystem cmd sends ++ tail = pre ++ .request sent :: post) :
    pre = [.store isSystem] ∧ sent = ⟨cmd, isSystem, true⟩ := by
  have hnot : ∀ {pre : List SystemAccess}, tail ≠ pre ++ .request sent :: post := by
    intro pre htail'
    exact htail sent (htail' ▸ List.mem_append_right _ List.mem_cons_self)
  rcases pre with _ | ⟨first, pre⟩
  · exact absurd h (by simp)
  · obtain ⟨rfl, hrest⟩ := List.cons.inj h
    unfold sendFlagged at hrest
    split at hrest
    · rcases pre with _ | ⟨second, pre⟩
      · obtain ⟨hrequest, -⟩ := List.cons.inj hrest
        exact ⟨rfl, (FlagAccess.request.inj hrequest).symm⟩
      · exact absurd (List.cons.inj hrest).2 hnot
    · exact absurd hrest hnot

/-- What `Guarded` asks of a request. -/
def GuardedBy (pre : List SystemAccess) (sent : FlaggedRequest) : Prop :=
  if sent.flagged then pre.getLast? = some (.store sent.isSystem)
  else pre = [] ∧ sent.isSystem = false

theorem guardedBy_of_sendFlagged {isSystem sends : Bool} {cmd : DataShareServiceCmd}
    {tail pre post : List SystemAccess} {sent : FlaggedRequest} (htail : ∀ r, .request r ∉ tail)
    (h : .store isSystem :: sendFlagged isSystem cmd sends ++ tail = pre ++ .request sent :: post) :
    GuardedBy pre sent := by
  obtain ⟨rfl, rfl⟩ := request_of_sendFlagged htail h
  rfl

theorem guardedBy_of_setAndClean {isSystem written : Bool} {cmd : DataShareServiceCmd}
    {pre post : List SystemAccess} {sent : FlaggedRequest}
    (h : setAndClean isSystem cmd written = pre ++ .request sent :: post) : GuardedBy pre sent :=
  guardedBy_of_sendFlagged (by simp) h

theorem guardedBy_of_unflagged {cmd : DataShareServiceCmd} {pre post : List SystemAccess}
    {sent : FlaggedRequest} (h : [.request ⟨cmd, false, false⟩] = pre ++ .request sent :: post) :
    GuardedBy pre sent := by
  rcases pre with _ | ⟨first, pre⟩
  · obtain rfl := FlagAccess.request.inj (List.cons.inj h).1
    exact ⟨rfl, rfl⟩
  · exact absurd (List.cons.inj h).2 (by simp)

theorem guardedBy_of_nil {pre post : List SystemAccess} {sent : FlaggedRequest}
    (h : [] = pre ++ .request sent :: post) : GuardedBy pre sent :=
  absurd h (by simp)

/-! ## One flag for all threads -/

namespace Rust

theorem guarded_accesses : Guarded accesses FlaggedRequest.isSystem FlaggedRequest.flagged := by
  intro call pre sent post h
  change GuardedBy pre sent
  cases call with
  | flagged isSystem cmd written => exact guardedBy_of_setAndClean h
  | setSilentSwitch isSystem proxy written =>
    rw [accesses, ← List.append_nil (_ :: _)] at h
    exact guardedBy_of_sendFlagged (by simp) h
  | getSilentProxyStatus isSystem proxy written =>
    rw [accesses] at h
    split at h
    · exact guardedBy_of_setAndClean h
    · exact guardedBy_of_nil h
  | unflagged cmd => exact guardedBy_of_unflagged h

/-- `IS_SYSTEM`. -/
def isSystemCell (_thread : ℕ) : ℕ := 0

/-- In a run of any threads, all requests are sent with their own codes exactly if for each of them
the last store of another thread since the call's own store, or the last store before a call without
one, has left the value of the call. -/
theorem ownCode_iff (calls : ℕ → List SystemCall)
    (run : Interleaving fun i => (calls i).flatMap accesses) :
    (∀ sent ∈ (flagRun isSystemCell run.events).2, OwnCode sent) ↔
      Undisturbed FlaggedRequest.isSystem FlaggedRequest.flagged isSystemCell run.events := by
  simp only [ownCode_iff_flag]
  exact sent_own_iff guarded_accesses run

/-- A system caller and another one, at the same time. -/
def twoCallers (i : ℕ) : List SystemCall :=
  if i = 0 then [.flagged true .query true] else if i = 1 then [.flagged false .query true] else []

/-- The second one stores its flag before the first one sends its request. -/
def overwritten : Interleaving fun i => (twoCallers i).flatMap accesses where
  events := [(0, .store true), (1, .store false), (0, .request ⟨.query, true, true⟩)]
  follows i := by
    by_cases hfirst : i = 0
    · subst hfirst
      exact ⟨[.store false], rfl⟩
    · by_cases hsecond : i = 1
      · subst hsecond
        exact ⟨[.request ⟨.query, false, true⟩, .store false], rfl⟩
      · simp [accessesOf, Ne.symm hfirst, Ne.symm hsecond]

theorem not_ownCode_overwritten :
    ¬ ∀ sent ∈ (flagRun isSystemCell overwritten.events).2, OwnCode sent := by
  decide +kernel

end Rust

/-! ## A flag for each thread -/

namespace Cpp

theorem guarded_accesses : Guarded accesses FlaggedRequest.isSystem FlaggedRequest.flagged := by
  intro call pre sent post h
  change GuardedBy pre sent
  cases call with
  | flagged isSystem cmd written => exact guardedBy_of_setAndClean h
  | setSilentSwitch isSystem proxy written =>
    rw [accesses] at h
    split at h
    · exact guardedBy_of_setAndClean h
    · exact guardedBy_of_nil h
  | getSilentProxyStatus isSystem proxy written =>
    rw [accesses] at h
    split at h
    · exact guardedBy_of_setAndClean h
    · exact guardedBy_of_nil h
  | unflagged cmd => exact guardedBy_of_unflagged h

theorem lastStore_setAndClean (i : ℕ) (isSystem written : Bool) (cmd : DataShareServiceCmd) :
    lastStore id i ((setAndClean isSystem cmd written).map (Prod.mk i)) = some false := by
  unfold setAndClean
  rw [List.map_append, lastStore_append, List.map_singleton, lastStore_singleton]
  simp [storeIn]

theorem cleaned_accesses : Cleaned accesses := by
  intro call i value hvalue
  cases call with
  | flagged isSystem cmd written =>
    rw [accesses, lastStore_setAndClean] at hvalue
    exact (Option.some_inj.mp hvalue).symm
  | setSilentSwitch isSystem proxy written =>
    rw [accesses] at hvalue
    split at hvalue
    · rw [lastStore_setAndClean] at hvalue
      exact (Option.some_inj.mp hvalue).symm
    · exact absurd hvalue (by simp)
  | getSilentProxyStatus isSystem proxy written =>
    rw [accesses] at hvalue
    split at hvalue
    · rw [lastStore_setAndClean] at hvalue
      exact (Option.some_inj.mp hvalue).symm
    · exact absurd hvalue (by simp)
  | unflagged cmd => exact absurd hvalue (by simp [accesses, lastStore, storeIn])

/-- Whatever the threads do, every request of these calls is sent with its own code. -/
theorem ownCode_of_threadLocal (calls : ℕ → List SystemCall)
    (run : Interleaving fun i => (calls i).flatMap accesses) :
    ∀ sent ∈ (flagRun id run.events).2, OwnCode sent := by
  simp only [ownCode_iff_flag]
  exact sent_own_of_threadLocal guarded_accesses cleaned_accesses run

end Cpp

end DataShare
