import DataShare.MissedChanges
import DataShare.Threads

/-!
# The steps of the C++ calls for one key

The calls of `RdbSubscriberManager` as the sequences of the steps they make under one lock. `Emit`
stores its node, then flags the nodes and collects the observers, then makes its callbacks one by
one ; `EnableObservers` enables, then reads the last node, then the flag of its observer, then makes
its callback ; `DisableObservers` is one step. The steps of a call alone are the sequential call
(`run_emit_eq_emit`, `run_enable_eq_enableObservers`, `run_disable_eq_disableObservers`).
-/

namespace DataShare

namespace Cpp

namespace RdbSubscriberManager

open CallbacksManager

/-! ## Steps -/

/-- A node as it was stored. A later one has a higher number. -/
structure Change (ν : Type) where
  serial : ℕ
  node : ν
  deriving DecidableEq

/-- The observer nodes of the key and its last change node. -/
structure KeyState (ν : Type) where
  nodes : List (ObserverNode ℕ ℕ)
  lastChangeNode : Option (Change ν)

inductive KeyCall (ν : Type) where
  | emit (changeNode : ν)
  | enableObservers (subscriber : ℕ)
  | disableObservers (subscriber : ℕ)
  deriving DecidableEq

/-- Where a call is : an emit about to flag the nodes, an enable about to read the last node or the
flag of its observer, or a call with callbacks left to make. -/
inductive Progress (ν : Type) where
  | flagging (change : Change ν)
  | reading (observer : Option ℕ)
  | checking (observer : Option ℕ) (change : Change ν)
  | calling (left : List (ℕ × Change ν))
  deriving DecidableEq

variable {ν : Type}

/-- The number of the last change. -/
def KeyState.latest (state : KeyState ν) : ℕ :=
  state.lastChangeNode.elim 0 Change.serial

/-- The change that `changeNode` is when it is stored now. -/
def KeyState.toStore (state : KeyState ν) (changeNode : ν) : Change ν :=
  ⟨state.latest + 1, changeNode⟩

/-- The first step of a call. -/
def startCall (state : KeyState ν) : KeyCall ν → KeyState ν × Progress ν
  | .emit changeNode =>
    ({ state with lastChangeNode := some (state.toStore changeNode) },
      .flagging (state.toStore changeNode))
  | .enableObservers subscriber =>
    match nodeToEnable subscriber state.nodes with
    | none => (state, .calling [])
    | some node =>
      ({ state with nodes := enableFirst subscriber state.nodes }, .reading node.observer)
  | .disableObservers subscriber =>
    ({ state with nodes := disableEnabled subscriber state.nodes }, .calling [])

/-- The next step of a call, with the callbacks it makes. -/
def nextStep (state : KeyState ν) : Progress ν → KeyState ν × Progress ν × List (ℕ × Change ν)
  | .flagging change =>
    ({ state with nodes := setNotifiedOn state.nodes },
      .calling ((enabledObservers state.nodes).map fun obs => (obs, change)), [])
  | .reading observer =>
    match state.lastChangeNode with
    | none => (state, .calling [], [])
    | some change => (state, .checking observer change, [])
  | .checking observer change =>
    if notifiedOnEnabled observer state.nodes then
      (state, .calling (observer.map fun obs => (obs, change)).toList, [])
    else (state, .calling [], [])
  | .calling [] => (state, .calling [], [])
  | .calling (callback :: left) => (state, .calling left, [callback])

/-- The calls of a key, interleaved step by step. -/
def keyProtocol : Protocol (KeyState ν) (Progress ν) (KeyCall ν) (ℕ × Change ν) :=
  ⟨startCall, nextStep⟩

abbrev KeyEvent (ν : Type) := ThreadEvent (KeyCall ν)

abbrev KeyPool (ν : Type) := Pool (KeyState ν) (Progress ν)

/-- The key after `events`, from a state without calls under way. -/
def poolAfter (state : KeyState ν) (events : List (KeyEvent ν)) : KeyPool ν :=
  (keyProtocol.run ⟨state, []⟩ events).1

/-- The callbacks of `events`, in order. -/
def callbacksOf (state : KeyState ν) (events : List (KeyEvent ν)) : List (ℕ × Change ν) :=
  (keyProtocol.run ⟨state, []⟩ events).2

/-- Every call has made its last step. -/
def Finished (pool : KeyPool ν) : Prop :=
  ∀ thread ∈ pool.threads, thread = .calling []

section Equations

variable {state : KeyState ν} {subscriber : ℕ}

theorem startCall_enable_of_none (h : nodeToEnable subscriber state.nodes = none) :
    startCall state (.enableObservers subscriber) = (state, .calling []) := by
  simp only [startCall, h]

theorem startCall_enable_of_some {node : ObserverNode ℕ ℕ}
    (h : nodeToEnable subscriber state.nodes = some node) :
    startCall state (.enableObservers subscriber) =
      ({ state with nodes := enableFirst subscriber state.nodes }, .reading node.observer) := by
  simp only [startCall, h]

/-- A step changes the nodes of the key only, where it flags them. -/
theorem nextStep_fst (state : KeyState ν) (thread : Progress ν) :
    (nextStep state thread).1 = state ∨
      (nextStep state thread).1 = { state with nodes := setNotifiedOn state.nodes } := by
  unfold nextStep
  rcases thread with change | observer | ⟨observer, change⟩ | ⟨_ | ⟨callback, left⟩⟩
  · exact .inr rfl
  · dsimp only
    split <;> exact .inl rfl
  · dsimp only
    split <;> exact .inl rfl
  · exact .inl rfl
  · exact .inl rfl

theorem step_start (pool : KeyPool ν) (call : KeyCall ν) : keyProtocol.step pool (.start call) =
    (⟨(startCall pool.shared call).1, pool.threads ++ [(startCall pool.shared call).2]⟩, []) :=
  rfl

end Equations

/-! ## One call alone

The steps of a call, made without another call in between, are the call of the sequential manager,
for a service that accepts. -/

section Alone

variable {δ : Type} {manager : RdbSubscriberManager δ} {k : RdbObserverMapKey}

/-- The part of the manager that is about the key. -/
def keyState (k : RdbObserverMapKey) (manager : RdbSubscriberManager δ) :
    KeyState (RdbChangeNode δ) :=
  ⟨nodesAt manager.callbacks k, (manager.lastChangeNodeMap.find? k).map fun node => ⟨0, node⟩⟩

theorem map_node_keyState (k : RdbObserverMapKey) (manager : RdbSubscriberManager δ) :
    (keyState k manager).lastChangeNode.map Change.node = manager.lastChangeNodeMap.find? k := by
  unfold keyState
  rw [Option.map_map]
  exact Option.map_id'

/-- The run leaves the key as the manager is, and makes these callbacks. -/
structure RunsAs (k : RdbObserverMapKey) (run : KeyPool (RdbChangeNode δ) × List (ℕ × Change _))
    (manager : RdbSubscriberManager δ) (calls : List (ℕ × RdbChangeNode δ)) : Prop where
  finished : Finished run.1
  nodes : run.1.shared.nodes = nodesAt manager.callbacks k
  lastChangeNode : run.1.shared.lastChangeNode.map Change.node = manager.lastChangeNodeMap.find? k
  calls : run.2.map (fun callback => (callback.1, callback.2.node)) = calls

theorem run_callbacks (state : KeyState ν) : ∀ left : List (ℕ × Change ν),
    keyProtocol.run ⟨state, [.calling left]⟩ (List.replicate left.length (.advance 0)) =
      (⟨state, [.calling []]⟩, left)
  | [] => rfl
  | callback :: left => by
    have ih := run_callbacks state left
    have hfirst : keyProtocol.step ⟨state, [.calling (callback :: left)]⟩ (.advance 0) =
        (⟨state, [.calling left]⟩, [callback]) := rfl
    unfold Protocol.run at ih ⊢
    rw [List.length_cons, List.replicate_succ, runCalls_cons, hfirst, ih]
    rfl

theorem finished_idle (state : KeyState ν) : Finished ⟨state, [.calling []]⟩ :=
  fun _ hthread => List.mem_singleton.mp hthread

/-- `Emit` is an emit alone : it stores, flags and calls. -/
theorem run_emit_eq_emit (changeNode : RdbChangeNode δ) (manager : RdbSubscriberManager δ) :
    RunsAs changeNode.key
      (keyProtocol.run ⟨keyState changeNode.key manager, []⟩ (.start (.emit changeNode) ::
        .advance 0 :: List.replicate
          (enabledObservers (nodesAt manager.callbacks changeNode.key)).length (.advance 0)))
      (emit changeNode manager).1 (emit changeNode manager).2 := by
  have hcallbacks := run_callbacks
    ⟨setNotifiedOn (nodesAt manager.callbacks changeNode.key),
      some ((keyState changeNode.key manager).toStore changeNode)⟩
    ((enabledObservers (nodesAt manager.callbacks changeNode.key)).map fun obs =>
      (obs, (keyState changeNode.key manager).toStore changeNode))
  rw [List.length_map] at hcallbacks
  have hself : compare changeNode.key changeNode.key = .eq := Std.ReflCmp.compare_self
  have hrun : keyProtocol.run ⟨keyState changeNode.key manager, []⟩ (.start (.emit changeNode) ::
      .advance 0 :: List.replicate
        (enabledObservers (nodesAt manager.callbacks changeNode.key)).length (.advance 0)) =
      (⟨⟨setNotifiedOn (nodesAt manager.callbacks changeNode.key),
        some ((keyState changeNode.key manager).toStore changeNode)⟩, [.calling []]⟩,
        (enabledObservers (nodesAt manager.callbacks changeNode.key)).map fun obs =>
          (obs, (keyState changeNode.key manager).toStore changeNode)) := by
    unfold Protocol.run at hcallbacks ⊢
    rw [runCalls_cons, runCalls_cons]
    exact hcallbacks
  rw [hrun]
  refine ⟨finished_idle _, ?_, ?_, ?_⟩
  · refine Eq.trans ?_ (nodesAt_getObserversAndSetNotifiedOn changeNode.key changeNode.key _).symm
    rw [if_pos hself]
  · exact ((OrderedMap.find?_assign _ _ _ _).trans (if_pos hself)).symm
  · have hcollected : (getObserversAndSetNotifiedOn changeNode.key manager.callbacks).2 =
        enabledObservers (nodesAt manager.callbacks changeNode.key) := by
      unfold getObserversAndSetNotifiedOn nodesAt
      cases manager.callbacks.find? changeNode.key <;> rfl
    have hcalls : (emit changeNode manager).2 =
        (getObserversAndSetNotifiedOn changeNode.key manager.callbacks).2.map fun obs =>
          (obs, changeNode) := rfl
    rw [hcalls, hcollected, List.map_map]
    rfl

variable {subscriber : ℕ} {uri : StdString} {templateId : TemplateId}

/-- Every request is accepted. -/
def accepting : ℕ → Answer := fun _ => .replied errOk

theorem not_refused_accepting (kind : RequestKind) (keys : List RdbObserverMapKey) :
    ¬ Refused (requestsAt k (sendRequests kind keys accepting)) :=
  not_refused_of_accepted fun r hr => accepted_sendRequests kind keys r (List.mem_of_mem_filter hr)

theorem mentions_self (k : RdbObserverMapKey) : Mentions k [k] :=
  ⟨k, List.mem_cons_self, Std.ReflCmp.compare_self⟩

/-- `DisableObservers` is a disable alone. -/
theorem run_disable_eq_disableObservers (manager : RdbSubscriberManager δ) :
    RunsAs (.new uri templateId)
      (keyProtocol.run ⟨keyState (.new uri templateId) manager, []⟩
        [.start (.disableObservers subscriber)])
      (disableObservers subscriber [uri] templateId accepting manager).manager
      (disableObservers subscriber [uri] templateId accepting manager).calls := by
  refine ⟨finished_idle _, ?_, ?_, rfl⟩
  · have hnodes : nodesAt (CallbacksManager.disableObservers [.new uri templateId] subscriber
        accepting manager.callbacks).callbacks (.new uri templateId) = _ := nodesAt_disableObservers
    have hnot : ¬ Refused (requestsAt (.new uri templateId) (CallbacksManager.disableObservers
        [.new uri templateId] subscriber accepting manager.callbacks).requests) :=
      not_refused_accepting .disable _
    rw [if_neg hnot, if_pos (mentions_self _)] at hnodes
    exact hnodes.symm
  · exact map_node_keyState _ _

/-- What an accepted `EnableObservers` for one uri hands out. -/
theorem calls_enableObservers (manager : RdbSubscriberManager δ) :
    (enableObservers subscriber [uri] templateId accepting manager).calls =
      (nodeToEnable subscriber (nodesAt manager.callbacks (.new uri templateId))).elim []
        fun node => (manager.lastChangeNodeMap.find? (.new uri templateId)).elim [] fun last =>
          if notifiedOnEnabled node.observer
            (enableFirst subscriber (nodesAt manager.callbacks (.new uri templateId))) then
            (node.observer.map fun obs => (obs, last)).toList
          else [] := by
  have hnodes : nodesAt (CallbacksManager.enableObservers [.new uri templateId] subscriber
      accepting manager.callbacks).callbacks (.new uri templateId) = _ := nodesAt_enableObservers
  have hnot : ¬ Refused (requestsAt (.new uri templateId) (CallbacksManager.enableObservers
      [.new uri templateId] subscriber accepting manager.callbacks).requests) :=
    not_refused_accepting .enable _
  rw [if_neg hnot, if_pos (mentions_self _)] at hnodes
  have hrefresh := refreshObservers_enableObserver subscriber
    (⟨manager.callbacks, [], .empty, []⟩ : Enabled RdbObserverMapKey ℕ ℕ) (.new uri templateId)
  have hcalls : (enableObservers subscriber [uri] templateId accepting manager).calls =
      emitOnEnable manager.lastChangeNodeMap (CallbacksManager.enableObservers
        [.new uri templateId] subscriber accepting manager.callbacks).callbacks
        (enableObserver subscriber ⟨manager.callbacks, [], .empty, []⟩
          (.new uri templateId)).refreshObservers := rfl
  rw [hcalls, hrefresh]
  dsimp only
  rcases hnode : nodeToEnable subscriber (nodesAt manager.callbacks (.new uri templateId)) with
    _ | node
  · rfl
  · rw [Option.elim_some, Option.elim_some]
    have hentries : (OrderedMap.upsert (RdbObserverMapKey.new uri templateId)
        (fun old => old.getD [] ++ [(node.observer, node.isNotifyOnEnabled)])
        (.empty : RefreshObservers RdbObserverMapKey)).entries =
        [(.new uri templateId, [(node.observer, node.isNotifyOnEnabled)])] := rfl
    unfold emitOnEnable
    rw [hentries, List.flatMap_singleton]
    rcases hlast : manager.lastChangeNodeMap.find? (.new uri templateId) with _ | last
    · simp only [emitKeyOnEnable, hlast, Option.elim_none]
    · simp only [emitKeyOnEnable, hlast, Option.elim_some, isObserversNotifiedOnEnabled_eq, hnodes,
        List.filterMap_cons, List.filterMap_nil]
      by_cases hnotified : notifiedOnEnabled node.observer
          (enableFirst subscriber (nodesAt manager.callbacks (.new uri templateId))) = true
      · simp only [if_pos hnotified]
        rcases node.observer with _ | observer <;> rfl
      · simp only [if_neg hnotified]

theorem step_advance_alone (state : KeyState ν) (thread : Progress ν) :
    keyProtocol.step ⟨state, [thread]⟩ (.advance 0) =
      (⟨(nextStep state thread).1, [(nextStep state thread).2.1]⟩, (nextStep state thread).2.2) :=
  rfl

/-- An enable alone. -/
theorem run_enable (state : KeyState ν) (subscriber : ℕ) :
    keyProtocol.run ⟨state, []⟩
        [.start (.enableObservers subscriber), .advance 0, .advance 0, .advance 0] =
      (⟨{ state with nodes := enableFirst subscriber state.nodes }, [.calling []]⟩,
        (nodeToEnable subscriber state.nodes).elim [] fun node =>
          state.lastChangeNode.elim [] fun last =>
            if notifiedOnEnabled node.observer (enableFirst subscriber state.nodes) then
              (node.observer.map fun obs => (obs, last)).toList
            else []) := by
  unfold Protocol.run
  rw [runCalls_cons, step_start]
  dsimp only
  rcases hnode : nodeToEnable subscriber state.nodes with _ | node
  · have hsame : enableFirst subscriber state.nodes = state.nodes := by
      refine enableFirst_of_not_firstDisabled fun ⟨node, hfirst⟩ => ?_
      rw [nodeToEnable_eq_some.mpr hfirst] at hnode
      exact absurd hnode (by simp)
    rw [startCall_enable_of_none hnode, hsame]
    rfl
  · rw [startCall_enable_of_some hnode, Option.elim_some]
    rcases hlast : state.lastChangeNode with _ | last
    · simp [runCalls_cons, step_advance_alone, nextStep]
    · by_cases hnotified :
          notifiedOnEnabled node.observer (enableFirst subscriber state.nodes) = true
      · rcases hobs : node.observer with _ | observer
        · simp [runCalls_cons, step_advance_alone, nextStep]
        · rw [hobs] at hnotified
          simp [runCalls_cons, step_advance_alone, nextStep, hnotified]
      · simp [runCalls_cons, step_advance_alone, nextStep, hnotified]

theorem map_replay (notified : Bool) (observer : Option ℕ) (last : Option ν) :
    (((last.map fun node => (⟨0, node⟩ : Change ν)).elim [] fun last =>
      if notified then (observer.map fun obs => (obs, last)).toList else []).map fun callback =>
        (callback.1, callback.2.node)) =
      last.elim [] fun last =>
        if notified then (observer.map fun obs => (obs, last)).toList else [] := by
  rcases last with _ | last
  · rfl
  · rcases notified with _ | _
    · rfl
    · rcases observer with _ | observer <;> rfl

/-- `EnableObservers` is an enable alone : it enables, reads and calls. -/
theorem run_enable_eq_enableObservers (manager : RdbSubscriberManager δ) :
    RunsAs (.new uri templateId)
      (keyProtocol.run ⟨keyState (.new uri templateId) manager, []⟩
        [.start (.enableObservers subscriber), .advance 0, .advance 0, .advance 0])
      (enableObservers subscriber [uri] templateId accepting manager).manager
      (enableObservers subscriber [uri] templateId accepting manager).calls := by
  have hnodes : nodesAt (CallbacksManager.enableObservers [.new uri templateId] subscriber
      accepting manager.callbacks).callbacks (.new uri templateId) = _ := nodesAt_enableObservers
  have hnot : ¬ Refused (requestsAt (.new uri templateId) (CallbacksManager.enableObservers
      [.new uri templateId] subscriber accepting manager.callbacks).requests) :=
    not_refused_accepting .enable _
  rw [if_neg hnot, if_pos (mentions_self _)] at hnodes
  rw [calls_enableObservers, run_enable]
  refine ⟨finished_idle _, hnodes.symm, map_node_keyState _ _, ?_⟩
  rcases hnode : nodeToEnable subscriber (nodesAt manager.callbacks (.new uri templateId)) with
    _ | node
  · simp only [keyState, hnode, Option.elim_none, List.map_nil]
  · simp only [keyState, hnode, Option.elim_some]
    exact map_replay _ _ _

end Alone

end RdbSubscriberManager

end Cpp

end DataShare
