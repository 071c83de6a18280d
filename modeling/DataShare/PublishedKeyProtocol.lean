import DataShare.CppPublishedData
import DataShare.Threads

/-!
# The steps of the C++ calls for one key of published data

The calls of `PublishedDataSubscriberManager` as the sequences of the steps they make under one lock.
`Emit` of a node with one item flags the disabled nodes, then collects the observers, then stores the
item, then makes its callbacks one by one ; `EnableObservers` enables and notes the flag, then reads the
last change, then makes its callback ; `AddObservers` pushes its node, and may then read the last change
and hand it out ; `DisableObservers` is one step. The steps of a call alone are the sequential call
(`run_emit_eq_emit`, `run_enable_eq_enableObservers`, `run_add_eq_addObservers`,
`run_disable_eq_disableObservers`).
-/

namespace DataShare

namespace Cpp

namespace PublishedDataSubscriberManager

open CallbacksManager (nodesAt nodeToEnable nodesAt_addObservers nodesAt_enableObservers
  nodesAt_disableObservers nodesAt_setObserversNotifiedOnEnabled)

/-! ## Steps -/

/-- The observer nodes of the key and its last change. -/
structure KeyState (δ : Type) where
  nodes : List (ObserverNode ℕ ℕ)
  lastChangeNode : Option (PublishedDataChangeNode δ)

inductive KeyCall (δ : Type) where
  | addObservers (subscriber observer : ℕ)
  | emit (ownerBundleName : StdString) (data : PublishedDataItem δ)
  | enableObservers (subscriber : ℕ)
  | disableObservers (subscriber : ℕ)
  deriving DecidableEq

/-- A callback of `OnChange`. -/
abbrev Callback (δ : Type) := ℕ × PublishedDataChangeNode δ

/-- Where a call is : an emit about to collect the observers or to store its item, a registration or an
enable about to read the last change, or a call with callbacks left to make. -/
inductive Progress (δ : Type) where
  | collecting (ownerBundleName : StdString) (data : PublishedDataItem δ)
  | storing (ownerBundleName : StdString) (data : PublishedDataItem δ) (results : List (Callback δ))
  | joining (observer : ℕ)
  | reading (observer : Option ℕ) (isNotifyOnEnabled : Bool)
  | calling (left : List (Callback δ))
  deriving DecidableEq

variable {δ : Type}

/-- `results` of an emit : the item for each of the observers. -/
def collected (ownerBundleName : StdString) (data : PublishedDataItem δ) (observers : List ℕ) :
    List (Callback δ) :=
  let results : OrderedMap ℕ (List (PublishedDataItem δ)) := observers.foldl
    (fun results obs => results.upsert obs fun old => old.getD [] ++ [data]) .empty
  results.entries.map fun e => (e.1, ⟨ownerBundleName, e.2⟩)

/-- `results` of an enable : the last change for the observer, if it missed one. -/
def replay (lastChangeNode : Option (PublishedDataChangeNode δ)) (observer : Option ℕ)
    (isNotifyOnEnabled : Bool) : List (Callback δ) :=
  lastChangeNode.elim [] fun value =>
    (value.datas.foldl (fun results data =>
      refreshObserver value.ownerBundleName data results (observer, isNotifyOnEnabled)) .empty).entries

/-- The first step of a call. -/
def startCall (state : KeyState δ) : KeyCall δ → KeyState δ × Progress δ
  | .addObservers subscriber observer =>
    ({ state with nodes := state.nodes ++ [.new (some observer) subscriber] },
      if HasEnabled state.nodes then .joining observer else .calling [])
  | .emit ownerBundleName data =>
    ({ state with nodes := setDisabledNotifiedOn state.nodes }, .collecting ownerBundleName data)
  | .enableObservers subscriber =>
    match nodeToEnable subscriber state.nodes with
    | none => (state, .calling [])
    | some node =>
      ({ state with nodes := enableFirst subscriber state.nodes },
        .reading node.observer node.isNotifyOnEnabled)
  | .disableObservers subscriber =>
    ({ state with nodes := disableEnabled subscriber state.nodes }, .calling [])

/-- The next step of a call, with the callbacks it makes. -/
def nextStep (state : KeyState δ) :
    Progress δ → KeyState δ × Progress δ × List (Callback δ)
  | .collecting ownerBundleName data =>
    (state, .storing ownerBundleName data
      (collected ownerBundleName data (enabledObservers state.nodes)), [])
  | .storing ownerBundleName data results =>
    ({ state with lastChangeNode := some ⟨ownerBundleName, [data]⟩ }, .calling results, [])
  | .joining observer =>
    (state, .calling [(observer, state.lastChangeNode.getD ⟨[], []⟩)], [])
  | .reading observer isNotifyOnEnabled =>
    (state, .calling (replay state.lastChangeNode observer isNotifyOnEnabled), [])
  | .calling [] => (state, .calling [], [])
  | .calling (callback :: left) => (state, .calling left, [callback])

/-- The calls of a key, interleaved step by step. -/
def keyProtocol : Protocol (KeyState δ) (Progress δ) (KeyCall δ) (Callback δ) :=
  ⟨startCall, nextStep⟩

abbrev KeyEvent (δ : Type) := ThreadEvent (KeyCall δ)

abbrev KeyPool (δ : Type) := Pool (KeyState δ) (Progress δ)

/-- The key after `events`, from a state without calls under way. -/
def poolAfter (state : KeyState δ) (events : List (KeyEvent δ)) : KeyPool δ :=
  (keyProtocol.run ⟨state, []⟩ events).1

/-- The callbacks of `events`, made after `before`. -/
def callbacksOf (state : KeyState δ) (before events : List (KeyEvent δ)) : List (Callback δ) :=
  (keyProtocol.run (poolAfter state before) events).2

/-- Every call has made its last step. -/
def Finished (pool : KeyPool δ) : Prop :=
  ∀ thread ∈ pool.threads, thread = .calling []

instance [DecidableEq δ] (pool : KeyPool δ) : Decidable (Finished pool) :=
  inferInstanceAs (Decidable (∀ thread ∈ pool.threads, thread = .calling []))

section Equations

variable {state : KeyState δ} {subscriber : ℕ}

theorem startCall_enable_of_none (h : nodeToEnable subscriber state.nodes = none) :
    startCall state (.enableObservers subscriber) = (state, .calling []) := by
  simp only [startCall, h]

theorem startCall_enable_of_some {node : ObserverNode ℕ ℕ}
    (h : nodeToEnable subscriber state.nodes = some node) :
    startCall state (.enableObservers subscriber) =
      ({ state with nodes := enableFirst subscriber state.nodes },
        .reading node.observer node.isNotifyOnEnabled) := by
  simp only [startCall, h]

/-- Only the first step of a call changes the nodes. -/
theorem nodes_nextStep (state : KeyState δ) (thread : Progress δ) :
    (nextStep state thread).1.nodes = state.nodes := by
  rcases thread with ⟨owner, data⟩ | ⟨owner, data, results⟩ | observer | ⟨observer, flag⟩ |
    ⟨_ | ⟨callback, left⟩⟩ <;> rfl

theorem step_start (pool : KeyPool δ) (call : KeyCall δ) : keyProtocol.step pool (.start call) =
    (⟨(startCall pool.shared call).1, pool.threads ++ [(startCall pool.shared call).2]⟩, []) :=
  rfl

theorem step_advance {pool : KeyPool δ} {i : ℕ} {thread : Progress δ}
    (h : pool.threads[i]? = some thread) : keyProtocol.step pool (.advance i) =
      (⟨(nextStep pool.shared thread).1, pool.threads.set i (nextStep pool.shared thread).2.1⟩,
        (nextStep pool.shared thread).2.2) :=
  Protocol.step_advance_of_some h

end Equations

/-! ## One call alone

The steps of a call, made without another call in between, are the call of the sequential manager,
for a service that accepts. -/

section Alone

variable {manager : PublishedDataSubscriberManager δ} {k : PublishedObserverMapKey}
  {subscriber : ℕ} {uri : StdString} {subscriberId : Int64}

/-- The part of the manager that is about the key. -/
def keyState (k : PublishedObserverMapKey) (manager : PublishedDataSubscriberManager δ) :
    KeyState δ :=
  ⟨nodesAt manager.callbacks k, manager.lastChangeNodeMap.find? k⟩

/-- The run leaves the key as the call does, and makes its callbacks. -/
structure RunsAs (k : PublishedObserverMapKey) (run : KeyPool δ × List (Callback δ))
    (served : PublishedServed δ) : Prop where
  finished : Finished run.1
  shared : run.1.shared = keyState k served.manager
  calls : run.2 = served.calls

theorem run_callbacks (state : KeyState δ) : ∀ left : List (Callback δ),
    keyProtocol.run ⟨state, [.calling left]⟩ (List.replicate left.length (.advance 0)) =
      (⟨state, [.calling []]⟩, left)
  | [] => rfl
  | callback :: left => by
    have ih := run_callbacks state left
    have hfirst : keyProtocol.step ⟨state, [.calling (callback :: left)]⟩ (.advance 0) =
        (⟨state, [.calling left]⟩, [callback]) := rfl
    unfold Protocol.run at ih ⊢
    rw [List.length_cons, List.replicate_succ, runCalls_cons, hfirst, ih]
    rfl

/-- A call that gets to its callbacks makes them, and is done. -/
theorem runsAs_of_calling {init : KeyState δ} {events : List (KeyEvent δ)} {served : PublishedServed δ}
    (h : keyProtocol.run ⟨init, []⟩ events =
      (⟨keyState k served.manager, [.calling served.calls]⟩, [])) :
    RunsAs k (keyProtocol.run ⟨init, []⟩ (events ++ List.replicate served.calls.length (.advance 0)))
      served := by
  have hrun : keyProtocol.run ⟨init, []⟩ (events ++ List.replicate served.calls.length (.advance 0)) =
      (⟨keyState k served.manager, [.calling []]⟩, served.calls) := by
    have hcallbacks := run_callbacks (keyState k served.manager) served.calls
    unfold Protocol.run at h hcallbacks ⊢
    rw [runCalls_append, h, hcallbacks]
    rfl
  rw [hrun]
  exact ⟨fun _ hthread => List.mem_singleton.mp hthread, rfl, rfl⟩

/-- A call of the manager, for a service that accepts. -/
def acceptedOutcome (manager : PublishedDataSubscriberManager δ)
    (call : SubscriberCall Int64 (PublishedDataChangeNode δ)) : PublishedServed δ :=
  SubscriberExchange.outcome cls manager ⟨call, fun _ => .replied errOk⟩

/-- `Emit` of one item is an emit alone : it flags, collects, stores and calls. -/
theorem run_emit_eq_emit (ownerBundleName : StdString) (data : PublishedDataItem δ)
    (manager : PublishedDataSubscriberManager δ) :
    RunsAs data.mapKey
      (keyProtocol.run ⟨keyState data.mapKey manager, []⟩
        (([.start (.emit ownerBundleName data), .advance 0, .advance 0] : List (KeyEvent δ)) ++
          List.replicate
          (acceptedOutcome manager (.emit ⟨ownerBundleName, [data]⟩)).calls.length (.advance 0)))
      (acceptedOutcome manager (.emit ⟨ownerBundleName, [data]⟩)) := by
  refine runsAs_of_calling ?_
  have hself : compare data.mapKey data.mapKey = .eq := Std.ReflCmp.compare_self
  have hnodes := nodesAt_setObserversNotifiedOnEnabled data.mapKey data.mapKey manager.callbacks
  rw [if_pos hself] at hnodes
  have hshared : keyState data.mapKey
      (acceptedOutcome manager (.emit ⟨ownerBundleName, [data]⟩)).manager =
        ⟨setDisabledNotifiedOn (nodesAt manager.callbacks data.mapKey),
          some ⟨ownerBundleName, [data]⟩⟩ := by
    refine congrArg₂ KeyState.mk hnodes ?_
    exact (OrderedMap.find?_assign _ _ _ _).trans (if_pos hself)
  have hcalls : (acceptedOutcome manager (.emit ⟨ownerBundleName, [data]⟩)).calls =
      collected ownerBundleName data (CallbacksManager.getEnabledObservers
        (CallbacksManager.setObserversNotifiedOnEnabled data.mapKey manager.callbacks) data.mapKey) :=
    rfl
  rw [hshared, hcalls, CallbacksManager.getEnabledObservers_eq, hnodes]
  rfl

theorem mentions_self (k : PublishedObserverMapKey) : Mentions k [k] :=
  ⟨k, List.mem_cons_self, Std.ReflCmp.compare_self⟩

theorem not_refused_accepted (kind : RequestKind) (keys : List PublishedObserverMapKey) :
    ¬ Refused (requestsAt k (sendRequests kind keys fun _ => .replied errOk)) :=
  not_refused_of_accepted fun r hr => accepted_sendRequests kind keys r (List.mem_of_mem_filter hr)

/-- `AddObservers` is a registration alone : it pushes its node, and may read and call. -/
theorem run_add_eq_addObservers (manager : PublishedDataSubscriberManager δ) :
    RunsAs (.new uri subscriberId)
      (keyProtocol.run ⟨keyState (.new uri subscriberId) manager, []⟩
        (([.start (.addObservers subscriber manager.made), .advance 0] : List (KeyEvent δ)) ++
          List.replicate
          (acceptedOutcome manager (.addObservers subscriber [uri] subscriberId)).calls.length
          (.advance 0)))
      (acceptedOutcome manager (.addObservers subscriber [uri] subscriberId)) := by
  refine runsAs_of_calling ?_
  have hnodes : nodesAt (CallbacksManager.addObservers [.new uri subscriberId] subscriber
      (some manager.made) (fun _ => .replied errOk) manager.callbacks).callbacks
      (.new uri subscriberId) = _ := nodesAt_addObservers
  have hnot : ¬ Refused (requestsAt (.new uri subscriberId) (CallbacksManager.addObservers
      [.new uri subscriberId] subscriber (some manager.made) (fun _ => .replied errOk)
      manager.callbacks).requests) :=
    not_refused_accepted .subscribe _
  have hcount :
      mentionCount (PublishedObserverMapKey.new uri subscriberId) [.new uri subscriberId] = 1 := by
    simp [mentionCount]
  rw [if_neg hnot, hcount] at hnodes
  have hshared : keyState (.new uri subscriberId)
      (acceptedOutcome manager (.addObservers subscriber [uri] subscriberId)).manager =
        ⟨nodesAt manager.callbacks (.new uri subscriberId) ++ [.new (some manager.made) subscriber],
          manager.lastChangeNodeMap.find? (.new uri subscriberId)⟩ :=
    congrArg (fun nodes => KeyState.mk nodes _) hnodes
  rw [hshared]
  unfold Protocol.run
  rw [runCalls_cons, step_start]
  by_cases hany : HasEnabled (nodesAt manager.callbacks (.new uri subscriberId))
  · have hlocal : (CallbacksManager.addLocal [.new uri subscriberId] subscriber (some manager.made)
        manager.callbacks).localRegisterKey = [.new uri subscriberId] := by
      unfold CallbacksManager.addLocal
      rw [List.foldl_cons, List.foldl_nil, CallbacksManager.addObserver, if_neg]
      · rfl
      · rw [CallbacksManager.isEmpty_getEnabledObservers]
        exact not_not.mpr hany
    have hcalls : (acceptedOutcome manager (.addObservers subscriber [uri] subscriberId)).calls =
        [(manager.made, (manager.lastChangeNodeMap.find? (.new uri subscriberId)).getD ⟨[], []⟩)] := by
      refine (congrArg (fun keys : List PublishedObserverMapKey => if keys.isEmpty then [] else
        emitLocal manager.lastChangeNodeMap keys manager.made) hlocal).trans ?_
      unfold emitLocal
      rcases hlast : manager.lastChangeNodeMap.find? (.new uri subscriberId) with _ | value
      · simp [appendCached, hlast]
      · simp [appendCached, hlast]
    have hstart : startCall (keyState (.new uri subscriberId) manager)
        (.addObservers subscriber manager.made) = (_, .joining manager.made) :=
      Prod.ext rfl (if_pos hany)
    rw [hstart, hcalls]
    rfl
  · have hlocal : (CallbacksManager.addLocal [.new uri subscriberId] subscriber (some manager.made)
        manager.callbacks).localRegisterKey = [] := by
      unfold CallbacksManager.addLocal
      rw [List.foldl_cons, List.foldl_nil, CallbacksManager.addObserver, if_pos]
      rw [CallbacksManager.isEmpty_getEnabledObservers]
      exact hany
    have hcalls : (acceptedOutcome manager (.addObservers subscriber [uri] subscriberId)).calls = [] :=
      congrArg (fun keys : List PublishedObserverMapKey => if keys.isEmpty then [] else
        emitLocal manager.lastChangeNodeMap keys manager.made) hlocal
    have hstart : startCall (keyState (.new uri subscriberId) manager)
        (.addObservers subscriber manager.made) = (_, .calling []) :=
      Prod.ext rfl (if_neg hany)
    rw [hstart, hcalls]
    rfl

/-- `DisableObservers` is a disable alone. -/
theorem run_disable_eq_disableObservers (manager : PublishedDataSubscriberManager δ) :
    RunsAs (.new uri subscriberId)
      (keyProtocol.run ⟨keyState (.new uri subscriberId) manager, []⟩
        [.start (.disableObservers subscriber)])
      (acceptedOutcome manager (.disableObservers subscriber [uri] subscriberId)) := by
  have hnodes : nodesAt (CallbacksManager.disableObservers [.new uri subscriberId] subscriber
      (fun _ => .replied errOk) manager.callbacks).callbacks (.new uri subscriberId) = _ :=
    nodesAt_disableObservers
  have hnot : ¬ Refused (requestsAt (.new uri subscriberId) (CallbacksManager.disableObservers
      [.new uri subscriberId] subscriber (fun _ => .replied errOk) manager.callbacks).requests) :=
    not_refused_accepted .disable _
  rw [if_neg hnot, if_pos (mentions_self _)] at hnodes
  exact ⟨fun _ hthread => List.mem_singleton.mp hthread,
    congrArg (fun nodes => KeyState.mk nodes _) hnodes.symm, rfl⟩

/-- What an observer that is enabled is called with. -/
theorem entries_refreshKey (lastChangeNodeMap : NodeMap δ) (key : PublishedObserverMapKey)
    (observer : Option ℕ) (flag : Bool) :
    (refreshKey lastChangeNodeMap .empty (key, [(observer, flag)])).entries =
      replay (lastChangeNodeMap.find? key) observer flag := by
  unfold refreshKey replay
  dsimp only
  cases lastChangeNodeMap.find? key <;> rfl

/-- `EnableObservers` is an enable alone : it enables, reads and calls. -/
theorem run_enable_eq_enableObservers (manager : PublishedDataSubscriberManager δ) :
    RunsAs (.new uri subscriberId)
      (keyProtocol.run ⟨keyState (.new uri subscriberId) manager, []⟩
        (([.start (.enableObservers subscriber), .advance 0] : List (KeyEvent δ)) ++
          List.replicate
          (acceptedOutcome manager (.enableObservers subscriber [uri] subscriberId)).calls.length
          (.advance 0)))
      (acceptedOutcome manager (.enableObservers subscriber [uri] subscriberId)) := by
  refine runsAs_of_calling ?_
  have hnodes : nodesAt (CallbacksManager.enableObservers [.new uri subscriberId] subscriber
      (fun _ => .replied errOk) manager.callbacks).callbacks (.new uri subscriberId) = _ :=
    nodesAt_enableObservers
  have hnot : ¬ Refused (requestsAt (.new uri subscriberId) (CallbacksManager.enableObservers
      [.new uri subscriberId] subscriber (fun _ => .replied errOk) manager.callbacks).requests) :=
    not_refused_accepted .enable _
  rw [if_neg hnot, if_pos (mentions_self _)] at hnodes
  have hshared : keyState (.new uri subscriberId)
      (acceptedOutcome manager (.enableObservers subscriber [uri] subscriberId)).manager =
        ⟨enableFirst subscriber (nodesAt manager.callbacks (.new uri subscriberId)),
          manager.lastChangeNodeMap.find? (.new uri subscriberId)⟩ :=
    congrArg (fun nodes => KeyState.mk nodes _) hnodes
  have hrefresh := CallbacksManager.refreshObservers_enableObserver subscriber
    (⟨manager.callbacks, [], .empty, []⟩ : CallbacksManager.Enabled PublishedObserverMapKey ℕ ℕ)
    (.new uri subscriberId)
  have hcalls : (acceptedOutcome manager (.enableObservers subscriber [uri] subscriberId)).calls =
      ((CallbacksManager.enableObserver subscriber ⟨manager.callbacks, [], .empty, []⟩
        (.new uri subscriberId)).refreshObservers.entries.foldl
          (refreshKey manager.lastChangeNodeMap) .empty).entries := rfl
  rw [hshared, hcalls, hrefresh]
  dsimp only
  rcases hnode : nodeToEnable subscriber (nodesAt manager.callbacks (.new uri subscriberId)) with
    _ | node
  · have hstart : startCall (keyState (.new uri subscriberId) manager) (.enableObservers subscriber) =
        (keyState (.new uri subscriberId) manager, .calling []) := startCall_enable_of_none hnode
    have hsame : enableFirst subscriber (nodesAt manager.callbacks (.new uri subscriberId)) =
        nodesAt manager.callbacks (.new uri subscriberId) := by
      refine enableFirst_of_not_firstDisabled fun ⟨node, hfirst⟩ => ?_
      rw [CallbacksManager.nodeToEnable_eq_some.mpr hfirst] at hnode
      exact absurd hnode (by simp)
    unfold Protocol.run
    rw [runCalls_cons, step_start, hstart, hsame]
    rfl
  · have hstart : startCall (keyState (.new uri subscriberId) manager) (.enableObservers subscriber) =
        ({ keyState (.new uri subscriberId) manager with
            nodes := enableFirst subscriber (nodesAt manager.callbacks (.new uri subscriberId)) },
          .reading node.observer node.isNotifyOnEnabled) := startCall_enable_of_some hnode
    unfold Protocol.run
    rw [runCalls_cons, step_start, hstart]
    have hentries : (OrderedMap.upsert (PublishedObserverMapKey.new uri subscriberId)
        (fun old => old.getD [] ++ [(node.observer, node.isNotifyOnEnabled)])
        (.empty : RefreshObservers PublishedObserverMapKey)).entries =
        [(.new uri subscriberId, [(node.observer, node.isNotifyOnEnabled)])] := rfl
    rw [Option.elim_some, hentries, List.foldl_cons, List.foldl_nil, entries_refreshKey]
    rfl

end Alone

end PublishedDataSubscriberManager

end Cpp

end DataShare
