import DataShare.LockedCode
import DataShare.RdbSubscriberCleanup
import DataShare.RustPublishedData
import Mathlib.Data.Finset.Insert
import Mathlib.Order.Basic

/-!
# Callbacks that re-enter the Rust managers

The operations of the Rust managers as code with the two mutexes of a manager. Both take `callbacks`
before `last_change_node_map`, so that nothing hangs as long as callbacks leave the manager alone.

Some callbacks run under a mutex : those of `add_observers` of RDB subscriptions, and those of
`emit` and `enable_observers` of published data. If one of them begins an operation, its thread may
ask for the mutex it holds, or wait for a thread that waits for it (`managers_hang`). If no callback
begins an operation while its thread holds a mutex, nothing hangs (`managers_never_hang`).
-/

namespace DataShare

namespace Rust

/-- The mutexes of a manager. -/
inductive ManagerLock where
  | callbacks | lastChangeNodeMap
  deriving DecidableEq

namespace ManagerLock

instance : Fintype ManagerLock where
  elems := {.callbacks, .lastChangeNodeMap}
  complete l := by cases l <;> simp

def index : ManagerLock → ℕ
  | .callbacks => 0
  | .lastChangeNodeMap => 1

instance : Preorder ManagerLock :=
  Preorder.lift index

theorem callbacks_lt : callbacks < lastChangeNodeMap :=
  show index callbacks < index lastChangeNodeMap from Nat.zero_lt_one

end ManagerLock

/-- Work under a lock. -/
def underLock {σ ρ μ : Type} (l : ManagerLock) (update : σ → ρ → σ)
    (next : σ → ρ → LockedCode ManagerLock σ ρ μ) : LockedCode ManagerLock σ ρ μ :=
  .lock l <| .work update fun state reply => .unlock l (next state reply)

theorem ordered_underLock {σ ρ μ : Type} {l : ManagerLock} {update : σ → ρ → σ}
    {next : σ → ρ → LockedCode ManagerLock σ ρ μ} (h : ∀ state reply, (next state reply).Ordered []) :
    (underLock l update next).Ordered [] := by
  refine ⟨by simp, fun state reply => ⟨by simp, ?_⟩⟩
  simpa using h state reply

/-! ## RDB subscriptions -/

namespace RdbSubscriberManager

variable {ω δ : Type}

/-- A message is a callback with the node it is handed. -/
abbrev Code (ω δ : Type) :=
  LockedCode ManagerLock (RdbSubscriberManager ω δ) (ℕ → Answer) (ω × RdbChangeNode δ)

/-- The replays are made under the lock of the nodes. -/
def addObserversCode (subscriber : ℕ) (uris : List String) (templateId : TemplateId) (callback : ω) :
    Code ω δ :=
  let added (self : RdbSubscriberManager ω δ) :=
    (keysOf uris templateId).foldl (addKey subscriber callback) ⟨self.callbacks, [], [], []⟩
  underLock .callbacks (fun self _ => { self with callbacks := (added self).callbacks }) fun self _ =>
    let localRegisterKeys := (added self).localRegisterKeys
    if localRegisterKeys.isEmpty then .done
    else
      .lock .lastChangeNodeMap <| .work (fun self _ => self) fun self _ =>
        .callAll (localRegisterKeys.filterMap fun key =>
            (self.lastChangeNodeMap.find? key).map fun node => (callback, node)) <|
          .unlock .lastChangeNodeMap .done

def delObserversCode (subscriber : ℕ) (uris : List String) (templateId : TemplateId) : Code ω δ :=
  let deleted (self : RdbSubscriberManager ω δ) :=
    (keysOf uris templateId).foldl (delKey subscriber) ⟨self.callbacks, []⟩
  underLock .callbacks (fun self _ => { self with callbacks := (deleted self).callbacks }) fun self _ =>
    let keysToErase := (deleted self).keysToErase
    if keysToErase.isEmpty then .done
    else
      underLock .lastChangeNodeMap
        (fun self _ => { self with
          lastChangeNodeMap := keysToErase.foldl (fun lastMap key => lastMap.erase key)
            self.lastChangeNodeMap }) fun _ _ => .done

def delAllObserversCode (subscriber : ℕ) : Code ω δ :=
  underLock .callbacks (fun self _ => (delAllObservers subscriber self).manager) fun _ _ => .done

/-- Both locks are held for the loop, and none for the replays. -/
def enableObserversCode (subscriber : ℕ) (uris : List String) (templateId : TemplateId) : Code ω δ :=
  let enabled (self : RdbSubscriberManager ω δ) :=
    (keysOf uris templateId).foldl (enableKey subscriber self.lastChangeNodeMap)
      ⟨self.callbacks, [], [], []⟩
  .lock .callbacks <| .lock .lastChangeNodeMap <|
    .work (fun self _ => { self with callbacks := (enabled self).callbacks }) fun self _ =>
      .unlock .lastChangeNodeMap <| .unlock .callbacks <|
        .callAll ((enabled self).replayList.map fun replay => (replay.observer, replay.node)) .done

def disableObserversCode (subscriber : ℕ) (uris : List String) (templateId : TemplateId) : Code ω δ :=
  underLock .callbacks
    (fun self answer => (disableObservers subscriber uris templateId answer self).manager)
    fun _ _ => .done

def recoverObserversCode : Code ω δ :=
  underLock .callbacks (fun self _ => self) fun _ _ => .done

/-- One lock after the other is taken and given back before the callbacks. -/
def emitCode (changeNode : RdbChangeNode δ) : Code ω δ :=
  let changeUri := clearUriOf changeNode.uri
  underLock .callbacks
    (fun self _ => { self with
      callbacks := self.callbacks.mapValues fun key entries =>
        if key.clearUri = changeUri then notifyEntries entries else entries }) fun self _ =>
    underLock .lastChangeNodeMap
      (fun self' _ => { self' with
        lastChangeNodeMap := (matchingKeys changeUri self.callbacks).foldl
          (fun lastMap key => lastMap.assign key changeNode) self'.lastChangeNodeMap }) fun _ _ =>
      .callAll ((emit changeNode self).delivered.map fun observer => (observer, changeNode)) .done

def code : Call ω δ → Code ω δ
  | .addObservers subscriber uris templateId callback =>
    addObserversCode subscriber uris templateId callback
  | .delObservers subscriber uris templateId => delObserversCode subscriber uris templateId
  | .delAllObservers subscriber => delAllObserversCode subscriber
  | .enableObservers subscriber uris templateId => enableObserversCode subscriber uris templateId
  | .disableObservers subscriber uris templateId => disableObserversCode subscriber uris templateId
  | .recoverObservers => recoverObserversCode
  | .emit changeNode => emitCode changeNode

/-- The callbacks in the outcome of a call. -/
def outcomeCallbacks (outcome : RdbOutcome ω δ) : Call ω δ → List (ω × RdbChangeNode δ)
  | .emit changeNode => outcome.delivered.map fun observer => (observer, changeNode)
  | _ => outcome.replays.map fun replay => (replay.observer, replay.node)

/-- The code alone is the call. -/
theorem alone_code (self : RdbSubscriberManager ω δ) (x : Exchange ω δ) :
    (code x.call).alone x.answer self =
      ((x.outcome self).manager, outcomeCallbacks (x.outcome self) x.call) := by
  obtain ⟨call, answer⟩ := x
  cases call with
  | addObservers subscriber uris templateId callback =>
    simp only [code, addObserversCode, underLock, LockedCode.alone, Exchange.outcome, addObservers,
      outcomeCallbacks]
    split
    · next hnil => simp [LockedCode.alone, List.isEmpty_iff.mp hnil]
    · simp [LockedCode.alone, LockedCode.alone_callAll, List.map_filterMap, Option.map_map,
        Function.comp_def]
  | delObservers subscriber uris templateId =>
    simp only [code, delObserversCode, underLock, LockedCode.alone, Exchange.outcome, delObservers,
      outcomeCallbacks]
    split
    · next hnil => simp [LockedCode.alone, List.isEmpty_iff.mp hnil]
    · simp [LockedCode.alone]
  | enableObservers subscriber uris templateId =>
    simp [code, enableObserversCode, LockedCode.alone, LockedCode.alone_callAll, Exchange.outcome,
      enableObservers, outcomeCallbacks]
  | emit changeNode =>
    simp [code, emitCode, underLock, LockedCode.alone, LockedCode.alone_callAll, Exchange.outcome, emit,
      outcomeCallbacks]
  | delAllObservers | disableObservers | recoverObservers => rfl

theorem ordered_code (call : Call ω δ) : (code call).Ordered [] := by
  cases call with
  | addObservers subscriber uris templateId callback =>
    refine ordered_underLock fun self _ => ?_
    dsimp only
    split
    · rfl
    · refine ⟨by simp, fun _ _ => LockedCode.ordered_callAll.mpr ⟨by simp, ?_⟩⟩
      simp [LockedCode.Ordered]
  | delObservers subscriber uris templateId =>
    refine ordered_underLock fun self _ => ?_
    dsimp only
    split
    · rfl
    · exact ordered_underLock fun _ _ => rfl
  | delAllObservers | disableObservers | recoverObservers => exact ordered_underLock fun _ _ => rfl
  | enableObservers subscriber uris templateId =>
    refine ⟨by simp, by simp [ManagerLock.callbacks_lt], fun _ _ => ⟨by simp, by simp, ?_⟩⟩
    exact LockedCode.ordered_callAll.mpr (by simp [LockedCode.Ordered])
  | emit changeNode =>
    exact ordered_underLock fun _ _ => ordered_underLock fun _ _ => LockedCode.ordered_callAll.mpr rfl

end RdbSubscriberManager

/-! ## Published data -/

namespace PublishedDataSubscriberManager

variable {ω δ : Type}

/-- A message is a callback with the node it is handed. -/
abbrev Code (ω δ : Type) :=
  LockedCode ManagerLock (PublishedDataSubscriberManager ω δ) (ℕ → Answer)
    (ω × PublishedDataChangeNode δ)

/-- A request to the service, without a lock. Refused keys are undone under the lock. -/
def requestCode (kind : RequestKind) (keys : List PublishedObserverMapKey)
    (undo : Callbacks ω → PublishedObserverMapKey → Callbacks ω) (next : Code ω δ) : Code ω δ :=
  if keys.isEmpty then next
  else
    .work (fun self _ => self) fun _ answer =>
      let failed := failedKeys (sendRequests kind keys answer)
      if failed.isEmpty then next
      else
        underLock .callbacks
          (fun self _ => { self with callbacks := failed.foldl undo self.callbacks }) fun _ _ => next

def addObserversCode (subscriber : ℕ) (uris : List String) (subscriberId : Int) (callback : ω) :
    Code ω δ :=
  let added (self : PublishedDataSubscriberManager ω δ) :=
    (publishedKeys uris subscriberId).foldl (addKey subscriber callback) ⟨self.callbacks, [], []⟩
  underLock .callbacks (fun self _ => { self with callbacks := (added self).callbacks }) fun self _ =>
    requestCode .subscribe (added self).firstAddKeys (retainAt subscriber) .done

def delObserversCode (subscriber : ℕ) (uris : List String) (subscriberId : Int) : Code ω δ :=
  underLock .callbacks
    (fun self answer => (delObservers subscriber uris subscriberId answer self).manager) fun _ _ => .done

def delAllObserversCode (subscriber : ℕ) : Code ω δ :=
  underLock .callbacks
    (fun self answer => (delAllObservers subscriber answer self).manager) fun _ _ => .done

/-- `emit_on_enable` calls back under the lock of the nodes. -/
def emitOnEnableCode (refreshObservers : OrderedMap PublishedObserverMapKey (List (ω × Bool))) :
    Code ω δ :=
  .lock .lastChangeNodeMap <| .work (fun self _ => self) fun self _ =>
    .callAll (emitOnEnable refreshObservers self.lastChangeNodeMap) <|
      .unlock .lastChangeNodeMap .done

def enableObserversCode (subscriber : ℕ) (uris : List String) (subscriberId : Int) : Code ω δ :=
  let enabled (self : PublishedDataSubscriberManager ω δ) :=
    (publishedKeys uris subscriberId).foldl (enableKey subscriber) ⟨self.callbacks, [], .empty, []⟩
  underLock .callbacks (fun self _ => { self with callbacks := (enabled self).callbacks }) fun self _ =>
    requestCode .enable (enabled self).sendServiceKeys (disableRefusedAt subscriber) <|
      emitOnEnableCode (enabled self).refreshObservers

def disableObserversCode (subscriber : ℕ) (uris : List String) (subscriberId : Int) : Code ω δ :=
  underLock .callbacks
    (fun self answer => (disableObservers subscriber uris subscriberId answer self).manager)
    fun _ _ => .done

def recoverObserversCode : Code ω δ :=
  underLock .callbacks (fun self _ => self) fun _ _ => .done

/-- Both locks are held until the last callback has returned. -/
def emitCode (changeNode : PublishedDataChangeNode δ) : Code ω δ :=
  .lock .callbacks <| .lock .lastChangeNodeMap <|
    .work (fun self _ => (emit changeNode self).manager) fun self _ =>
      .callAll (emit changeNode self).calls <|
        .unlock .lastChangeNodeMap <| .unlock .callbacks .done

def code : Call ω δ → Code ω δ
  | .addObservers subscriber uris subscriberId callback =>
    addObserversCode subscriber uris subscriberId callback
  | .delObservers subscriber uris subscriberId => delObserversCode subscriber uris subscriberId
  | .delAllObservers subscriber => delAllObserversCode subscriber
  | .enableObservers subscriber uris subscriberId => enableObserversCode subscriber uris subscriberId
  | .disableObservers subscriber uris subscriberId => disableObserversCode subscriber uris subscriberId
  | .recoverObservers => recoverObserversCode
  | .emit changeNode => emitCode changeNode

theorem alone_requestCode (kind : RequestKind) (keys : List PublishedObserverMapKey)
    (undo : Callbacks ω → PublishedObserverMapKey → Callbacks ω) (next : Code ω δ)
    (answer : ℕ → Answer) (self : PublishedDataSubscriberManager ω δ) :
    (requestCode kind keys undo next).alone answer self = next.alone answer
      { self with
        callbacks := (failedKeys (sendRequests kind keys answer)).foldl undo self.callbacks } := by
  unfold requestCode
  split
  · next hnil =>
    rw [List.isEmpty_iff.mp hnil]
    rfl
  · simp only [LockedCode.alone]
    split
    · next hnil =>
      rw [List.isEmpty_iff.mp hnil]
      rfl
    · rfl

/-- The code alone is the call. -/
theorem alone_code (self : PublishedDataSubscriberManager ω δ) (x : Exchange ω δ) :
    (code x.call).alone x.answer self = ((x.outcome self).manager, (x.outcome self).calls) := by
  obtain ⟨call, answer⟩ := x
  cases call with
  | addObservers subscriber uris subscriberId callback =>
    simp only [code, addObserversCode, underLock, LockedCode.alone, alone_requestCode]
    rfl
  | enableObservers subscriber uris subscriberId =>
    simp only [code, enableObserversCode, underLock, emitOnEnableCode, LockedCode.alone,
      alone_requestCode, LockedCode.alone_callAll, List.append_nil]
    rfl
  | emit changeNode =>
    simp only [code, emitCode, LockedCode.alone, LockedCode.alone_callAll, List.append_nil]
    rfl
  | delObservers | delAllObservers | disableObservers | recoverObservers => rfl

theorem ordered_requestCode {kind : RequestKind} {keys : List PublishedObserverMapKey}
    {undo : Callbacks ω → PublishedObserverMapKey → Callbacks ω} {next : Code ω δ}
    (h : next.Ordered []) : (requestCode kind keys undo next).Ordered [] := by
  unfold requestCode
  split
  · exact h
  · intro _ answer
    dsimp only
    split
    · exact h
    · exact ordered_underLock fun _ _ => h

theorem ordered_code (call : Call ω δ) : (code call).Ordered [] := by
  cases call with
  | addObservers => exact ordered_underLock fun _ _ => ordered_requestCode rfl
  | delObservers | delAllObservers | disableObservers | recoverObservers =>
    exact ordered_underLock fun _ _ => rfl
  | enableObservers =>
    refine ordered_underLock fun _ _ => ordered_requestCode ⟨by simp, fun _ _ => ?_⟩
    exact LockedCode.ordered_callAll.mpr (by simp [LockedCode.Ordered])
  | emit changeNode =>
    refine ⟨by simp, by simp [ManagerLock.callbacks_lt], fun _ _ => ?_⟩
    exact LockedCode.ordered_callAll.mpr ⟨by simp, by simp, by simp [LockedCode.Ordered]⟩

/-- Every operation takes `callbacks` first, which an emit holds during its callbacks : none of them may
begin an operation. -/
theorem not_hangFree_in_emit {pool : LockedPool ManagerLock (PublishedDataSubscriberManager ω δ)
      (ℕ → Answer) (ω × PublishedDataChangeNode δ)} {i id : ℕ} {message : ω × PublishedDataChangeNode δ}
    {rest : List (Activation ManagerLock (PublishedDataSubscriberManager ω δ) (ℕ → Answer)
      (ω × PublishedDataChangeNode δ))} {call : Call ω δ} {answer : ℕ → Answer}
    (hi : pool.threads[i]? = some ⟨id, .callback message :: rest⟩)
    (hown : pool.shared.owner .callbacks = some id) :
    ¬ HangFree ((lockedMachine code).step pool (.advance i ⟨answer, some call⟩)).1 := by
  refine not_hangFree_of_enters hi rfl ?_ hown
  cases call <;> rfl

end PublishedDataSubscriberManager

/-! ## Runs -/

section Runs

variable {ω δ : Type}

/-- The events of a manager's machine, `Call` being its operations. -/
abbrev ManagerEvent (Call : Type) := MachineEvent Call (LockedReply Call (ℕ → Answer))

def rdbPoolAfter (events : List (ManagerEvent (RdbSubscriberManager.Call ω δ))) :=
  ((lockedMachine RdbSubscriberManager.code).run (idlePool RdbSubscriberManager.new) events).1

def publishedPoolAfter (events : List (ManagerEvent (PublishedDataSubscriberManager.Call ω δ))) :=
  ((lockedMachine PublishedDataSubscriberManager.code).run
    (idlePool PublishedDataSubscriberManager.new) events).1

/-- If callbacks begin operations only while their thread holds no mutex, neither manager ever hangs. -/
theorem managers_never_hang
    (rdbEvents : List (ManagerEvent (RdbSubscriberManager.Call ω δ)))
    (publishedEvents : List (ManagerEvent (PublishedDataSubscriberManager.Call ω δ)))
    (hrdb : AllowedRun (lockedMachine RdbSubscriberManager.code).step EntersUnlocked
      (idlePool RdbSubscriberManager.new) rdbEvents)
    (hpublished : AllowedRun (lockedMachine PublishedDataSubscriberManager.code).step EntersUnlocked
      (idlePool PublishedDataSubscriberManager.new) publishedEvents) :
    HangFree (rdbPoolAfter rdbEvents) ∧ HangFree (publishedPoolAfter publishedEvents) :=
  ⟨hangFree_of_ordered RdbSubscriberManager.ordered_code _ hrdb,
    hangFree_of_ordered PublishedDataSubscriberManager.ordered_code _ hpublished⟩

end Runs

/-- Thread `i` makes `n` steps. Requests are accepted, and callbacks return. -/
def lockedSteps {Call : Type} (i n : ℕ) : List (ManagerEvent Call) :=
  List.replicate n (.advance i ⟨fun _ => .replied errOk, none⟩)

/-- The callback thread `i` is in begins an operation. -/
def enters {Call : Type} (i : ℕ) (call : Call) : ManagerEvent Call :=
  .advance i ⟨fun _ => .replied errOk, some call⟩

abbrev RdbEvents := List (ManagerEvent (RdbSubscriberManager.Call ℕ ℕ))

abbrev PublishedEvents := List (ManagerEvent (PublishedDataSubscriberManager.Call ℕ ℕ))

/-- An observer joins a key with a cached node, and its replay registers one more. -/
def replayRegisters : RdbEvents :=
  ([.outside (.addObservers 1 ["A"] ⟨0, ""⟩ 10)] : RdbEvents) ++ lockedSteps 0 4 ++
    ([.outside (.emit ⟨"A", 5⟩)] : RdbEvents) ++ lockedSteps 1 9 ++
    ([.outside (.addObservers 2 ["A"] ⟨0, ""⟩ 20)] : RdbEvents) ++ lockedSteps 2 6 ++
    ([enters 2 (.addObservers 2 ["A"] ⟨0, ""⟩ 30)] : RdbEvents) ++ lockedSteps 2 3

/-- The callback of an emit disables its observer. -/
def callbackDisables : PublishedEvents :=
  ([.outside (.addObservers 1 ["A"] 0 10)] : PublishedEvents) ++ lockedSteps 0 5 ++
    ([.outside (.emit ⟨"", [⟨"A", 0, 5⟩]⟩)] : PublishedEvents) ++ lockedSteps 1 4 ++
    ([enters 1 (.disableObservers 1 ["A"] 0)] : PublishedEvents)

/-- An observer missed a change. Its replay disables it while a change is emitted. -/
def replayMeetsEmit : PublishedEvents :=
  ([.outside (.addObservers 1 ["A"] 0 10)] : PublishedEvents) ++ lockedSteps 0 5 ++
    ([.outside (.disableObservers 1 ["A"] 0)] : PublishedEvents) ++ lockedSteps 1 4 ++
    ([.outside (.emit ⟨"", [⟨"A", 0, 5⟩]⟩)] : PublishedEvents) ++ lockedSteps 2 6 ++
    ([.outside (.enableObservers 1 ["A"] 0)] : PublishedEvents) ++ lockedSteps 3 7 ++
    ([.outside (.emit ⟨"", [⟨"A", 0, 6⟩]⟩)] : PublishedEvents) ++ lockedSteps 4 1 ++
    ([enters 3 (.disableObservers 1 ["A"] 0)] : PublishedEvents)

/-- Threads wait for themselves in both managers, and two threads for each other. -/
theorem managers_hang : ¬ HangFree (rdbPoolAfter replayRegisters) ∧
    ¬ HangFree (publishedPoolAfter callbackDisables) ∧
    ¬ HangFree (publishedPoolAfter replayMeetsEmit) := by
  refine ⟨fun h => ?_, fun h => ?_, fun h => ?_⟩
  · have := h.own
    revert this
    decide +kernel
  · have := h.own
    revert this
    decide +kernel
  · have := h.crossed
    revert this
    decide +kernel

/-- The callback of an emit of RDB subscriptions disables its observer, those of published data
return. -/
theorem managers_never_hang_emit :
    HangFree (rdbPoolAfter
      (([.outside (.addObservers 1 ["A"] ⟨0, ""⟩ 10)] : RdbEvents) ++ lockedSteps 0 4 ++
        ([.outside (.emit ⟨"A", 5⟩)] : RdbEvents) ++ lockedSteps 1 7 ++
        ([enters 1 (.disableObservers 1 ["A"] ⟨0, ""⟩)] : RdbEvents) ++ lockedSteps 1 6)) ∧
      HangFree (publishedPoolAfter
        (([.outside (.addObservers 1 ["A"] 0 10)] : PublishedEvents) ++ lockedSteps 0 5 ++
          ([.outside (.emit ⟨"", [⟨"A", 0, 5⟩]⟩)] : PublishedEvents) ++ lockedSteps 1 8)) :=
  managers_never_hang _ _ (throughout_iff_getElem.mpr (by decide +kernel))
    (throughout_iff_getElem.mpr (by decide +kernel))

end Rust

end DataShare
