import DataShare.CppBuffer
import DataShare.SubscriptionLedger
import DataShare.History

/-!
# The C++ subscriber managers

`RdbSubscriberManager` and `PublishedDataSubscriberManager` are callbacks managers that keep the
last change node of every key. Their calls are those of the callbacks manager, with two things
more : a key whose last observer is deleted loses its node, and an observer that joins an enabled
one, or is enabled again, may be handed the node. The managers differ in what a key is, in how
nodes are handed out and in what a change does ; `ManagerClass` says so for each of them.

For a key `k` the calls of `outcome` are in closed form : what each does to the observer nodes of
`k`, and when the last change node goes (`keptOrForgotten`).
-/

namespace DataShare

/-! ## Flags of missed changes -/

section Nodes

variable {σ ω : Type}

/-- Reset the flag of the nodes a change is delivered to, and set it for the others. -/
def setNotifiedOn (nodes : List (ObserverNode σ ω)) : List (ObserverNode σ ω) :=
  nodes.map fun value =>
    { value with isNotifyOnEnabled := !(value.enabled && value.observer.isSome) }

/-- Set the flag of the disabled nodes. -/
def setDisabledNotifiedOn (nodes : List (ObserverNode σ ω)) : List (ObserverNode σ ω) :=
  nodes.map fun observerNode =>
    if observerNode.enabled then observerNode else { observerNode with isNotifyOnEnabled := true }

/-- The flag of the first node of the observer. -/
def notifiedOnEnabled [DecidableEq ω] (observer : Option ω) (nodes : List (ObserverNode σ ω)) :
    Bool :=
  ((nodes.find? fun node => node.observer = observer).map ObserverNode.isNotifyOnEnabled).getD false

end Nodes

namespace CallbacksManager

variable {κ σ ω : Type} [Ord κ] [Std.TransOrd κ]

def getObserversAndSetNotifiedOn (inputKey : κ) (callbacks : Callbacks κ σ ω) :
    Callbacks κ σ ω × List ω :=
  match callbacks.find? inputKey with
  | none => (callbacks, [])
  | some nodes => (callbacks.assign inputKey (setNotifiedOn nodes), enabledObservers nodes)

def setObserversNotifiedOnEnabled (key : κ) (callbacks : Callbacks κ σ ω) : Callbacks κ σ ω :=
  match callbacks.find? key with
  | none => callbacks
  | some nodes => callbacks.assign key (setDisabledNotifiedOn nodes)

def isObserversNotifiedOnEnabled [DecidableEq ω] (key : κ) (observer : Option ω)
    (callbacks : Callbacks κ σ ω) : Bool :=
  match callbacks.find? key with
  | none => false
  | some nodes => notifiedOnEnabled observer nodes

end CallbacksManager

namespace Cpp

open CallbacksManager (Callbacks)

/-! ## Calls -/

/-- `clearUri_` : the uri up to the first `?`. -/
def clearUriOf (uri : StdString) : StdString :=
  uri.takeWhile fun c => c ≠ 63

/-- What the keys of the two managers share : the uri with what is left of it. -/
structure ClearedUri where
  uri : StdString
  clearUri : StdString
  clear : clearUri = clearUriOf uri
  deriving DecidableEq

def ClearedUri.new (uri : StdString) : ClearedUri where
  uri := uri
  clearUri := clearUriOf uri
  clear := rfl

/-- The observers are numbered in the order `std::make_shared` made them. -/
structure SubscriberManager (κ ν : Type) [Ord κ] where
  callbacks : Callbacks κ ℕ ℕ
  lastChangeNodeMap : OrderedMap κ ν
  made : ℕ

/-- What a call leaves, sends, hands to observers with `OnChange`, and returns. -/
structure Served (κ ν γ : Type) [Ord κ] where
  manager : SubscriberManager κ ν
  requests : List (Request κ)
  calls : List (ℕ × γ)
  result : List (OperationResult κ)

/-- `std::map<Key, std::vector<ObserverNodeOnEnabled>>`. -/
abbrev RefreshObservers (κ : Type) [Ord κ] := OrderedMap κ (List (Option ℕ × Bool))

/-- What the manager of one kind of data has of its own : `τ` says in which scope a uri is
subscribed, `ε` is a change, and `γ` what an observer is called with. -/
structure ManagerClass (τ κ ν ε γ : Type) [Ord κ] where
  keyOf : StdString → τ → κ
  /-- The order in which `DelObservers(subscriber)` gives up keys. -/
  unsubscribeOrder : List κ → List κ
  emitLocal : OrderedMap κ ν → List κ → ℕ → List (ℕ × γ)
  emitOnEnable : OrderedMap κ ν → Callbacks κ ℕ ℕ → RefreshObservers κ → List (ℕ × γ)
  emit : ε → SubscriberManager κ ν → SubscriberManager κ ν × List (ℕ × γ)

namespace SubscriberManager

variable {τ κ ν ε γ : Type} [Ord κ]

def new : SubscriberManager κ ν :=
  ⟨.empty, .empty, 0⟩

variable [Std.TransOrd κ]

def forget (keys : List κ) (lastChangeNodeMap : OrderedMap κ ν) : OrderedMap κ ν :=
  keys.foldl (fun lastMap key => lastMap.erase key) lastChangeNodeMap

def addObservers (cls : ManagerClass τ κ ν ε γ) (subscriber : ℕ) (uris : List StdString)
    (scope : τ) (answer : ℕ → Answer) (manager : SubscriberManager κ ν) : Served κ ν γ :=
  let keys := uris.map fun uri => cls.keyOf uri scope
  let observer := manager.made
  let localRegisterKeys :=
    (CallbacksManager.addLocal keys subscriber (some observer) manager.callbacks).localRegisterKey
  let added :=
    CallbacksManager.addObservers keys subscriber (some observer) answer manager.callbacks
  { manager := { manager with callbacks := added.callbacks, made := observer + 1 }
    requests := added.requests
    calls :=
      if localRegisterKeys.isEmpty then []
      else cls.emitLocal manager.lastChangeNodeMap localRegisterKeys observer
    result := added.result }

def delKeys (order : List κ → List κ) (keys : List κ) (subscriber : ℕ) (answer : ℕ → Answer)
    (manager : SubscriberManager κ ν) : Served κ ν γ :=
  let deleted :=
    CallbacksManager.delLocal CallbacksManager.delCodes keys subscriber manager.callbacks
  let sent := sendRequests .unsubscribe (order deleted.lastDelKeys) answer
  { manager :=
      { manager with
        callbacks := deleted.callbacks
        lastChangeNodeMap := forget deleted.lastDelKeys manager.lastChangeNodeMap }
    requests := sent
    calls := []
    result := deleted.result ++ replies sent }

/-- `DelObservers(subscriber)`. -/
def delAllObservers (cls : ManagerClass τ κ ν ε γ) (subscriber : ℕ) (answer : ℕ → Answer)
    (manager : SubscriberManager κ ν) : Served κ ν γ :=
  delKeys cls.unsubscribeOrder manager.callbacks.keys subscriber answer manager

def delObservers (cls : ManagerClass τ κ ν ε γ) (subscriber : ℕ) (uris : List StdString)
    (scope : τ) (answer : ℕ → Answer) (manager : SubscriberManager κ ν) : Served κ ν γ :=
  if uris.isEmpty then delAllObservers cls subscriber answer manager
  else delKeys id (uris.map fun uri => cls.keyOf uri scope) subscriber answer manager

def enableObservers (cls : ManagerClass τ κ ν ε γ) (subscriber : ℕ) (uris : List StdString)
    (scope : τ) (answer : ℕ → Answer) (manager : SubscriberManager κ ν) : Served κ ν γ :=
  let keys := uris.map fun uri => cls.keyOf uri scope
  let refreshObservers :=
    (CallbacksManager.enableLocal keys subscriber manager.callbacks).refreshObservers
  let enabled := CallbacksManager.enableObservers keys subscriber answer manager.callbacks
  { manager := { manager with callbacks := enabled.callbacks }
    requests := enabled.requests
    calls := cls.emitOnEnable manager.lastChangeNodeMap enabled.callbacks refreshObservers
    result := enabled.result }

def disableObservers (cls : ManagerClass τ κ ν ε γ) (subscriber : ℕ) (uris : List StdString)
    (scope : τ) (answer : ℕ → Answer) (manager : SubscriberManager κ ν) : Served κ ν γ :=
  let keys := uris.map fun uri => cls.keyOf uri scope
  let disabled := CallbacksManager.disableObservers keys subscriber answer manager.callbacks
  { manager := { manager with callbacks := disabled.callbacks }
    requests := disabled.requests
    calls := []
    result := disabled.result }

end SubscriberManager

inductive SubscriberCall (τ ε : Type) where
  | addObservers (subscriber : ℕ) (uris : List StdString) (scope : τ)
  | delObservers (subscriber : ℕ) (uris : List StdString) (scope : τ)
  | delAllObservers (subscriber : ℕ)
  | enableObservers (subscriber : ℕ) (uris : List StdString) (scope : τ)
  | disableObservers (subscriber : ℕ) (uris : List StdString) (scope : τ)
  | emit (change : ε)
  deriving DecidableEq

/-- A call, with the answer to its `i`-th request. -/
structure SubscriberExchange (τ ε : Type) where
  call : SubscriberCall τ ε
  answer : ℕ → Answer

namespace SubscriberExchange

variable {τ κ ν ε γ : Type} [Ord κ] [Std.TransOrd κ]

/-- What the call does to the manager of a class. -/
def outcome (cls : ManagerClass τ κ ν ε γ) (manager : SubscriberManager κ ν) :
    SubscriberExchange τ ε → Served κ ν γ
  | ⟨.addObservers subscriber uris scope, answer⟩ =>
    manager.addObservers cls subscriber uris scope answer
  | ⟨.delObservers subscriber uris scope, answer⟩ =>
    manager.delObservers cls subscriber uris scope answer
  | ⟨.delAllObservers subscriber, answer⟩ => manager.delAllObservers cls subscriber answer
  | ⟨.enableObservers subscriber uris scope, answer⟩ =>
    manager.enableObservers cls subscriber uris scope answer
  | ⟨.disableObservers subscriber uris scope, answer⟩ =>
    manager.disableObservers cls subscriber uris scope answer
  | ⟨.emit change, _⟩ =>
    ⟨(cls.emit change manager).1, [], (cls.emit change manager).2, []⟩

def step (cls : ManagerClass τ κ ν ε γ) (manager : SubscriberManager κ ν)
    (x : SubscriberExchange τ ε) : SubscriberManager κ ν × List (ℕ × γ) :=
  ((x.outcome cls manager).manager, (x.outcome cls manager).calls)

/-- The manager after a run. -/
def managerAfter (cls : ManagerClass τ κ ν ε γ) (calls : List (SubscriberExchange τ ε)) :
    SubscriberManager κ ν :=
  (runCalls (step cls) .new calls).1

theorem managerAfter_concat (cls : ManagerClass τ κ ν ε γ) (calls : List (SubscriberExchange τ ε))
    (x : SubscriberExchange τ ε) :
    managerAfter cls (calls ++ [x]) = (x.outcome cls (managerAfter cls calls)).manager := by
  unfold managerAfter
  rw [runCalls_concat]
  rfl

end SubscriberExchange

end Cpp

/-! ## What a call does to one key -/

namespace CallbacksManager

variable {κ σ ω : Type} [Ord κ] [Std.TransOrd κ] [DecidableEq σ] {k : κ} {keys : List κ}
  {subscriber : σ} {observer : Option ω} {answer : ℕ → Answer} {callbacks : Callbacks κ σ ω}

theorem mentions_of_refused {kind : RequestKind}
    (h : Refused (requestsAt k (sendRequests kind keys answer))) : Mentions k keys := by
  by_contra hk
  rw [requestsAt_sendRequests_eq_nil hk] at h
  exact not_refused_nil h

open Classical in
theorem nodesAt_addObservers :
    nodesAt (addObservers keys subscriber observer answer callbacks).callbacks k =
      if Refused (requestsAt k (addObservers keys subscriber observer answer callbacks).requests)
      then eraseSubscriber subscriber (nodesAt callbacks k)
      else nodesAt callbacks k ++
        List.replicate (mentionCount k keys) (ObserverNode.new observer subscriber) := by
  unfold addObservers
  dsimp only
  rw [nodesAt_delLocal, nodesAt_addLocal, eraseSubscriber_append_replicate]
  exact if_congr mentions_failedKeys rfl rfl

open Classical in
theorem nodesAt_enableObservers :
    nodesAt (enableObservers keys subscriber answer callbacks).callbacks k =
      if Refused (requestsAt k (enableObservers keys subscriber answer callbacks).requests)
      then disableEnabled subscriber (enableFirst subscriber (nodesAt callbacks k))
      else if Mentions k keys then enableFirst subscriber (nodesAt callbacks k)
      else nodesAt callbacks k := by
  unfold enableObservers
  dsimp only
  rw [nodesAt_disableLocal, nodesAt_enableLocal]
  by_cases hfail : Refused (requestsAt k
      (sendRequests .enable (enableLocal keys subscriber callbacks).sendServiceKeys answer))
  · rw [if_pos (mentions_failedKeys.mpr hfail), if_pos hfail,
      if_pos (mentions_sendServiceKeys.mp (mentions_of_refused hfail)).1]
  · rw [if_neg fun h => hfail (mentions_failedKeys.mp h), if_neg hfail]

open Classical in
theorem nodesAt_disableObservers :
    nodesAt (disableObservers keys subscriber answer callbacks).callbacks k =
      if Refused (requestsAt k (disableObservers keys subscriber answer callbacks).requests)
      then enableFirst subscriber (disableEnabled subscriber (nodesAt callbacks k))
      else if Mentions k keys then disableEnabled subscriber (nodesAt callbacks k)
      else nodesAt callbacks k := by
  unfold disableObservers
  dsimp only
  rw [nodesAt_enableLocal, nodesAt_disableLocal]
  by_cases hfail : Refused (requestsAt k
      (sendRequests .disable (disableLocal keys subscriber callbacks).lastDisabledKeys answer))
  · rw [if_pos (mentions_failedKeys.mpr hfail), if_pos hfail,
      if_pos (mentions_lastDisabledKeys.mp (mentions_of_refused hfail)).1]
  · rw [if_neg fun h => hfail (mentions_failedKeys.mp h), if_neg hfail]

omit [DecidableEq σ] in
/-- The nodes after an update of the nodes of a key that is registered. -/
theorem nodesAt_of_updated {f : List (ObserverNode σ ω) → List (ObserverNode σ ω)} (hnil : f [] = [])
    {key : κ} {updated : Callbacks κ σ ω} (hnone : callbacks.find? key = none → updated = callbacks)
    (hsome : ∀ nodes, callbacks.find? key = some nodes →
      updated = callbacks.assign key (f nodes)) (k : κ) :
    nodesAt updated k =
      if compare k key = .eq then f (nodesAt callbacks k) else nodesAt callbacks k := by
  cases hfind : callbacks.find? key with
  | none =>
    rw [hnone hfind]
    by_cases hk : compare k key = .eq
    · rw [if_pos hk, nodesAt, OrderedMap.find?_congr hk, hfind, Option.getD_none, hnil]
    · rw [if_neg hk]
  | some nodes =>
    rw [hsome nodes hfind, nodesAt_assign]
    by_cases hk : compare k key = .eq
    · rw [if_pos hk, if_pos hk, ← nodesAt_congr hk, nodesAt_of_find? hfind]
    · rw [if_neg hk, if_neg hk]

omit [DecidableEq σ] in
theorem nodesAt_getObserversAndSetNotifiedOn (key k : κ) (callbacks : Callbacks κ σ ω) :
    nodesAt (getObserversAndSetNotifiedOn key callbacks).1 k =
      if compare k key = .eq then setNotifiedOn (nodesAt callbacks k) else nodesAt callbacks k := by
  refine nodesAt_of_updated rfl (fun h => ?_) (fun nodes h => ?_) k
  · rw [getObserversAndSetNotifiedOn, h]
  · rw [getObserversAndSetNotifiedOn, h]

omit [DecidableEq σ] in
theorem nodesAt_setObserversNotifiedOnEnabled (key k : κ) (callbacks : Callbacks κ σ ω) :
    nodesAt (setObserversNotifiedOnEnabled key callbacks) k =
      if compare k key = .eq then setDisabledNotifiedOn (nodesAt callbacks k)
      else nodesAt callbacks k := by
  refine nodesAt_of_updated rfl (fun h => ?_) (fun nodes h => ?_) k
  · rw [setObserversNotifiedOnEnabled, h]
  · rw [setObserversNotifiedOnEnabled, h]

end CallbacksManager

namespace Cpp

open CallbacksManager

section Keys

variable {τ κ ν ε γ : Type} [Ord κ] [Std.TransOrd κ] {cls : ManagerClass τ κ ν ε γ}
  {manager : SubscriberManager κ ν} {x : SubscriberExchange τ ε} {k : κ}

def SubscriberCall.Adds : SubscriberCall τ ε → Prop
  | .addObservers .. => True
  | _ => False

def SubscriberCall.Emits : SubscriberCall τ ε → Prop
  | .emit _ => True
  | _ => False

theorem SubscriberCall.emits_iff {call : SubscriberCall τ ε} :
    call.Emits ↔ ∃ change, call = .emit change := by
  cases call <;> simp [SubscriberCall.Emits]

/-- Some observer is registered for the key. -/
def Registered (k : κ) (manager : SubscriberManager κ ν) : Prop :=
  nodesAt manager.callbacks k ≠ []

theorem find?_forget (keys : List κ) (lastMap : OrderedMap κ ν) :
    (SubscriberManager.forget keys lastMap).find? k =
      if Mentions k keys then none else lastMap.find? k :=
  find?_eraseLoop k keys lastMap

theorem nodesAt_delKeys {order : List κ → List κ} {keys : List κ} {subscriber : ℕ}
    {answer : ℕ → Answer} {served : Served κ ν γ}
    (h : manager.delKeys order keys subscriber answer = served) :
    nodesAt served.manager.callbacks k =
      if Mentions k keys then eraseSubscriber subscriber (nodesAt manager.callbacks k)
      else nodesAt manager.callbacks k := by
  subst h
  exact nodesAt_delLocal

/-- Both forms of `DelObservers` are one loop over keys. -/
theorem delObservers_eq_delKeys (cls : ManagerClass τ κ ν ε γ) (manager : SubscriberManager κ ν)
    (subscriber : ℕ) (uris : List StdString) (scope : τ) (answer : ℕ → Answer) :
    ∃ order keys, manager.delObservers cls subscriber uris scope answer =
      manager.delKeys order keys subscriber answer := by
  unfold SubscriberManager.delObservers
  split
  · exact ⟨_, _, rfl⟩
  · exact ⟨_, _, rfl⟩

/-- What a call that is no change does to the last change node of a key : it is kept, unless the
call leaves the key without observers. Then it is forgotten, unless the call is `refused`. -/
def KeptOrForgotten (k : κ) (before after : SubscriberManager κ ν) (refused : Prop) : Prop :=
  (nodesAt after.callbacks k = [] ∧ after.lastChangeNodeMap.find? k = none) ∨
    (Registered k before → Registered k after ∨ refused) ∧
      after.lastChangeNodeMap.find? k = before.lastChangeNodeMap.find? k

theorem delKeys_keptOrForgotten {order : List κ → List κ} {keys : List κ} {subscriber : ℕ}
    {answer : ℕ → Answer} {served : Served κ ν γ} {refused : Prop}
    (h : manager.delKeys order keys subscriber answer = served) :
    KeptOrForgotten k manager served.manager refused := by
  subst h
  unfold KeptOrForgotten SubscriberManager.delKeys Registered
  dsimp only
  rw [find?_forget, nodesAt_delLocal]
  by_cases hlast : Mentions k (delLocal delCodes keys subscriber manager.callbacks).lastDelKeys
  · obtain ⟨hkeys, nodes, hfind, hnil⟩ := mentions_lastDelKeys.mp hlast
    exact .inl ⟨by rw [if_pos hkeys, nodesAt_of_find? hfind, hnil], if_pos hlast⟩
  · refine .inr ⟨fun hne => .inl ?_, if_neg hlast⟩
    split
    · next hkeys => exact fun hnil => hlast ((mentions_lastDelKeys_of_ne_nil hne).mpr ⟨hkeys, hnil⟩)
    · exact hne

/-- The only call that empties a key and keeps its node is a registration the service refuses. -/
theorem keptOrForgotten (cls : ManagerClass τ κ ν ε γ) (manager : SubscriberManager κ ν) (k : κ)
    (hx : ¬ x.call.Emits) :
    KeptOrForgotten k manager (x.outcome cls manager).manager
      (x.call.Adds ∧ Refused (requestsAt k (x.outcome cls manager).requests)) := by
  obtain ⟨call, answer⟩ := x
  cases call with
  | addObservers subscriber uris scope =>
    refine .inr ⟨fun hne => ?_, rfl⟩
    unfold Registered SubscriberExchange.outcome SubscriberManager.addObservers
    dsimp only
    rw [nodesAt_addObservers]
    split
    · next hrefused => exact .inr ⟨trivial, hrefused⟩
    · exact .inl fun hnil => hne (List.append_eq_nil_iff.mp hnil).1
  | delObservers subscriber uris scope =>
    obtain ⟨order, keys, hdel⟩ := delObservers_eq_delKeys cls manager subscriber uris scope
      answer
    exact delKeys_keptOrForgotten hdel.symm
  | delAllObservers subscriber => exact delKeys_keptOrForgotten rfl
  | enableObservers subscriber uris scope =>
    refine .inr ⟨fun hne => .inl ?_, rfl⟩
    unfold Registered SubscriberExchange.outcome SubscriberManager.enableObservers
    dsimp only
    rw [nodesAt_enableObservers]
    split
    · rwa [ne_eq, disableEnabled_eq_nil, enableFirst_eq_nil]
    · split
      · rwa [ne_eq, enableFirst_eq_nil]
      · exact hne
  | disableObservers subscriber uris scope =>
    refine .inr ⟨fun hne => .inl ?_, rfl⟩
    unfold Registered SubscriberExchange.outcome SubscriberManager.disableObservers
    dsimp only
    rw [nodesAt_disableObservers]
    split
    · rwa [ne_eq, enableFirst_eq_nil, disableEnabled_eq_nil]
    · split
      · rwa [ne_eq, disableEnabled_eq_nil]
      · exact hne
  | emit change => exact absurd trivial hx

end Keys

end Cpp

end DataShare
