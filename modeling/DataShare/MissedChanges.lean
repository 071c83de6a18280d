import DataShare.CppRdbSubscriberManager

/-!
# Missed changes

A disabled observer misses the changes of its key. `RdbSubscriberManager` flags its node, and
hands it the last change node when it is enabled again. The flag is set and reset in four
functions. `missed` says what it stands for : the last change of the key since a call of
`DisableObservers` disabled the observers of the subscriber there.

An observer that is alone under its subscriber gets exactly this change when it is enabled, once
(`enabled_gets_missed`), in every run in which the service refuses no `EnableObservers` while a
change is missed. A refused one disables the observer again, which resets the flag, so that the
change is lost (`refused_enable_loses_missed`).
-/

namespace DataShare

/-! ## The nodes of one subscriber -/

section Nodes

variable {ω : Type} {s subscriber : ℕ} {nodes : List (ObserverNode ℕ ω)}

def ofSubscriber (s : ℕ) (nodes : List (ObserverNode ℕ ω)) : List (ObserverNode ℕ ω) :=
  nodes.filter fun node => node.subscriber = s

theorem mem_ofSubscriber {node : ObserverNode ℕ ω} :
    node ∈ ofSubscriber s nodes ↔ node ∈ nodes ∧ node.subscriber = s := by
  simp [ofSubscriber]

theorem ofSubscriber_append (nodes nodes' : List (ObserverNode ℕ ω)) :
    ofSubscriber s (nodes ++ nodes') = ofSubscriber s nodes ++ ofSubscriber s nodes' :=
  List.filter_append _ _

theorem ofSubscriber_map {f : ObserverNode ℕ ω → ObserverNode ℕ ω}
    (hf : ∀ node, (f node).subscriber = node.subscriber) :
    ofSubscriber s (nodes.map f) = (ofSubscriber s nodes).map f := by
  unfold ofSubscriber
  rw [List.filter_map]
  exact congrArg _ (List.filter_congr fun node _ => by rw [Function.comp_apply, hf])

theorem ofSubscriber_setNotifiedOn :
    ofSubscriber s (setNotifiedOn nodes) = setNotifiedOn (ofSubscriber s nodes) :=
  ofSubscriber_map fun _ => rfl

theorem ofSubscriber_disableSubscriber :
    ofSubscriber s (disableSubscriber subscriber nodes) =
      disableSubscriber subscriber (ofSubscriber s nodes) :=
  ofSubscriber_map fun node => by split <;> rfl

theorem ofSubscriber_disableSubscriber_of_ne (h : subscriber ≠ s) :
    ofSubscriber s (disableSubscriber subscriber nodes) = ofSubscriber s nodes := by
  rw [ofSubscriber_disableSubscriber]
  refine disableSubscriber_of_forall_ne fun node hnode heq => h ?_
  rw [← heq, (mem_ofSubscriber.mp hnode).2]

theorem ofSubscriber_disableEnabled_of_ne (h : subscriber ≠ s) :
    ofSubscriber s (disableEnabled subscriber nodes) = ofSubscriber s nodes := by
  unfold disableEnabled
  split
  · exact ofSubscriber_disableSubscriber_of_ne h
  · rfl

theorem ofSubscriber_eraseSubscriber_of_ne (h : subscriber ≠ s) :
    ofSubscriber s (eraseSubscriber subscriber nodes) = ofSubscriber s nodes := by
  unfold ofSubscriber eraseSubscriber
  rw [List.filter_filter]
  refine List.filter_congr fun node _ => ?_
  by_cases hs : node.subscriber = s
  · simp [hs, h.symm]
  · simp [hs]

theorem ofSubscriber_eraseSubscriber_self :
    ofSubscriber s (eraseSubscriber s nodes) = [] := by
  simp [ofSubscriber, eraseSubscriber]

theorem ofSubscriber_enableFirst_of_ne (h : subscriber ≠ s) : ∀ nodes : List (ObserverNode ℕ ω),
    ofSubscriber s (enableFirst subscriber nodes) = ofSubscriber s nodes
  | [] => rfl
  | node :: nodes => by
    rw [enableFirst]
    unfold ofSubscriber
    split
    · next hsub => simp [hsub, h]
    · rw [List.filter_cons, List.filter_cons]
      have ih := ofSubscriber_enableFirst_of_ne h nodes
      unfold ofSubscriber at ih
      rw [ih]

theorem ofSubscriber_enableFirst_self : ∀ nodes : List (ObserverNode ℕ ω),
    ofSubscriber s (enableFirst s nodes) = enableFirst s (ofSubscriber s nodes)
  | [] => rfl
  | node :: nodes => by
    rw [enableFirst]
    unfold ofSubscriber
    split
    · next hsub => simp [hsub, enableFirst]
    · next hsub =>
      have ih := ofSubscriber_enableFirst_self nodes
      unfold ofSubscriber at ih
      simp [hsub, ih]

theorem ofSubscriber_replicate_of_ne (h : subscriber ≠ s) (observer : Option ω) (n : ℕ) :
    ofSubscriber s (List.replicate n (ObserverNode.new observer subscriber)) = [] := by
  simp [ofSubscriber, ObserverNode.new, h]

theorem enabled_of_mem_ofSubscriber_replicate {observer : Option ω} {n : ℕ}
    {node : ObserverNode ℕ ω}
    (h : node ∈ ofSubscriber s (List.replicate n (ObserverNode.new observer subscriber))) :
    node.enabled = true := by
  rw [List.eq_of_mem_replicate (mem_ofSubscriber.mp h).1]
  rfl

/-- Every node is registered as one of `nodes` is. -/
def Inherits (nodes' nodes : List (ObserverNode ℕ ω)) : Prop :=
  ∀ node' ∈ nodes', ∃ node ∈ nodes, node.observer = node'.observer ∧
    node.subscriber = node'.subscriber

theorem inherits_of_subset {nodes' : List (ObserverNode ℕ ω)} (h : nodes' ⊆ nodes) :
    Inherits nodes' nodes := fun node hnode => ⟨node, h hnode, rfl, rfl⟩

theorem Inherits.trans {nodes' nodes'' : List (ObserverNode ℕ ω)} (h : Inherits nodes'' nodes')
    (h' : Inherits nodes' nodes) : Inherits nodes'' nodes := by
  intro node'' hnode''
  obtain ⟨node', hnode', hobs, hsub⟩ := h node'' hnode''
  obtain ⟨node, hnode, hobs', hsub'⟩ := h' node' hnode'
  exact ⟨node, hnode, hobs'.trans hobs, hsub'.trans hsub⟩

theorem inherits_map {f : ObserverNode ℕ ω → ObserverNode ℕ ω}
    (hobs : ∀ node, (f node).observer = node.observer)
    (hsub : ∀ node, (f node).subscriber = node.subscriber) : Inherits (nodes.map f) nodes := by
  intro node' hnode'
  obtain ⟨node, hnode, rfl⟩ := List.mem_map.mp hnode'
  exact ⟨node, hnode, (hobs node).symm, (hsub node).symm⟩

theorem inherits_disableEnabled : Inherits (disableEnabled subscriber nodes) nodes := by
  unfold disableEnabled
  split
  · exact inherits_map (fun node => by split <;> rfl) fun node => by split <;> rfl
  · exact inherits_of_subset (List.Subset.refl _)

theorem inherits_enableFirst : ∀ nodes : List (ObserverNode ℕ ω),
    Inherits (enableFirst subscriber nodes) nodes
  | [] => inherits_of_subset (List.Subset.refl _)
  | node :: nodes => by
    rw [enableFirst]
    split
    · intro node' hnode'
      rcases List.mem_cons.mp hnode' with rfl | hnode'
      · exact ⟨node, List.mem_cons_self, rfl, rfl⟩
      · exact ⟨node', List.mem_cons_of_mem _ hnode', rfl, rfl⟩
    · intro node' hnode'
      rcases List.mem_cons.mp hnode' with rfl | hnode'
      · exact ⟨node', List.mem_cons_self, rfl, rfl⟩
      · obtain ⟨found, hfound, hsame⟩ := inherits_enableFirst nodes node' hnode'
        exact ⟨found, List.mem_cons_of_mem _ hfound, hsame⟩

theorem length_enableFirst (nodes : List (ObserverNode ℕ ω)) :
    (enableFirst subscriber nodes).length = nodes.length := by
  rw [← List.length_map ObserverNode.observer, map_observer_enableFirst, List.length_map]

/-- A single node of the subscriber is enabled after `EnableObservers`. -/
theorem enabled_of_enableFirst_eq {node : ObserverNode ℕ ω}
    (h : enableFirst s (ofSubscriber s nodes) = [node]) : node.enabled = true := by
  rcases hof : ofSubscriber s nodes with _ | ⟨first, rest⟩
  · rw [hof] at h
    exact absurd h (by simp [enableFirst])
  · have hfirst : first ∈ ofSubscriber s nodes := by
      rw [hof]
      exact List.mem_cons_self
    rw [hof, enableFirst, if_pos (mem_ofSubscriber.mp hfirst).2] at h
    rw [← (List.cons.inj h).1]

/-- A single node of the subscriber after `DisableObservers`. -/
theorem of_disableSubscriber_eq {node : ObserverNode ℕ ω}
    (h : disableSubscriber s (ofSubscriber s nodes) = [node]) :
    ∃ node', ofSubscriber s nodes = [node'] ∧
      ((node'.enabled = true ∧ node.isNotifyOnEnabled = false) ∨ node' = node) := by
  obtain ⟨node', hof, hnode⟩ := List.map_eq_singleton_iff.mp h
  have hsub : node'.subscriber = s := by
    have hmem : node' ∈ ofSubscriber s nodes := by
      rw [hof]
      exact List.mem_cons_self
    exact (mem_ofSubscriber.mp hmem).2
  refine ⟨node', hof, ?_⟩
  split at hnode
  · next henabled =>
    rw [← hnode]
    exact .inl ⟨henabled.2, rfl⟩
  · exact .inr hnode

end Nodes

namespace Cpp

namespace RdbSubscriberManager

open CallbacksManager

variable {δ : Type} {k : RdbObserverMapKey} {s : ℕ} {manager : RdbSubscriberManager δ}
  {x : RdbExchange δ} {calls : List (RdbExchange δ)}

/-! ## Registrations -/

theorem inherits_delKeys {order : List RdbObserverMapKey → List RdbObserverMapKey}
    {keys : List RdbObserverMapKey} {subscriber : ℕ} {answer : ℕ → Answer} {served : RdbServed δ}
    (h : manager.delKeys order keys subscriber answer = served) :
    Inherits (nodesAt served.manager.callbacks k) (nodesAt manager.callbacks k) ∧
      manager.made ≤ served.manager.made := by
  rw [nodesAt_delKeys h]
  subst h
  refine ⟨?_, Nat.le_refl _⟩
  split
  · exact inherits_of_subset eraseSubscriber_subset
  · exact inherits_of_subset (List.Subset.refl _)

/-- A call leaves a key nodes that were registered before, or adds those of a new observer. -/
theorem inherits_outcome (k : RdbObserverMapKey) (manager : RdbSubscriberManager δ)
    (x : RdbExchange δ) :
    (Inherits (nodesAt (x.outcome cls manager).manager.callbacks k) (nodesAt manager.callbacks k) ∧
        manager.made ≤ (x.outcome cls manager).manager.made) ∨
      ∃ subscriber n, nodesAt (x.outcome cls manager).manager.callbacks k =
          nodesAt manager.callbacks k ++
            List.replicate n (ObserverNode.new (some manager.made) subscriber) ∧
        (x.outcome cls manager).manager.made = manager.made + 1 := by
  obtain ⟨call, answer⟩ := x
  cases call with
  | addObservers subscriber uris templateId =>
    unfold SubscriberExchange.outcome SubscriberManager.addObservers
    dsimp only
    rw [nodesAt_addObservers]
    split
    · exact .inl ⟨inherits_of_subset eraseSubscriber_subset, Nat.le_succ _⟩
    · exact .inr ⟨subscriber, _, rfl, rfl⟩
  | delObservers subscriber uris templateId =>
    obtain ⟨order, keys, hdel⟩ := delObservers_eq_delKeys cls manager subscriber uris templateId
      answer
    exact .inl (inherits_delKeys hdel.symm)
  | delAllObservers subscriber => exact .inl (inherits_delKeys rfl)
  | enableObservers subscriber uris templateId =>
    refine .inl ⟨?_, Nat.le_refl _⟩
    unfold SubscriberExchange.outcome SubscriberManager.enableObservers
    dsimp only
    rw [nodesAt_enableObservers]
    split
    · exact inherits_disableEnabled.trans (inherits_enableFirst _)
    · split
      · exact inherits_enableFirst _
      · exact inherits_of_subset (List.Subset.refl _)
  | disableObservers subscriber uris templateId =>
    refine .inl ⟨?_, Nat.le_refl _⟩
    unfold SubscriberExchange.outcome SubscriberManager.disableObservers
    dsimp only
    rw [nodesAt_disableObservers]
    split
    · exact (inherits_enableFirst _).trans inherits_disableEnabled
    · split
      · exact inherits_disableEnabled
      · exact inherits_of_subset (List.Subset.refl _)
  | emit changeNode =>
    refine .inl ⟨?_, Nat.le_refl _⟩
    unfold SubscriberExchange.outcome cls emit
    dsimp only
    rw [nodesAt_getObserversAndSetNotifiedOn]
    split
    · exact inherits_map (fun _ => rfl) fun _ => rfl
    · exact inherits_of_subset (List.Subset.refl _)

/-- The observers were made by calls of the manager, and each belongs to one subscriber. -/
structure Registrations (manager : RdbSubscriberManager δ) : Prop where
  made : ∀ k, ∀ node ∈ nodesAt manager.callbacks k,
    ∃ observer < manager.made, node.observer = some observer
  owner : ∀ k, ∀ node ∈ nodesAt manager.callbacks k, ∀ node' ∈ nodesAt manager.callbacks k,
    node.observer = node'.observer → node.subscriber = node'.subscriber

theorem registrations_outcome (h : Registrations manager) (x : RdbExchange δ) :
    Registrations (x.outcome cls manager).manager where
  made k node hnode := by
    rcases inherits_outcome k manager x with ⟨hold, hmade⟩ | ⟨subscriber, n, hnodes, hmade⟩
    · obtain ⟨node', hnode', hobs, -⟩ := hold node hnode
      obtain ⟨observer, hlt, hobs'⟩ := h.made k node' hnode'
      exact ⟨observer, Nat.lt_of_lt_of_le hlt hmade, hobs.symm.trans hobs'⟩
    · rw [hmade]
      rw [hnodes] at hnode
      rcases List.mem_append.mp hnode with hold | hnew
      · obtain ⟨observer, hlt, hobs⟩ := h.made k node hold
        exact ⟨observer, Nat.lt_succ_of_lt hlt, hobs⟩
      · rw [List.eq_of_mem_replicate hnew]
        exact ⟨manager.made, Nat.lt_succ_self _, rfl⟩
  owner k node hnode node' hnode' hsame := by
    rcases inherits_outcome k manager x with ⟨hold, -⟩ | ⟨subscriber, n, hnodes, -⟩
    · obtain ⟨old, hmem, hobs, hsub⟩ := hold node hnode
      obtain ⟨old', hmem', hobs', hsub'⟩ := hold node' hnode'
      rw [← hsub, ← hsub']
      exact h.owner k old hmem old' hmem' (hobs.trans (hsame.trans hobs'.symm))
    · -- the new observer is none of those made before
      have hfresh : ∀ old ∈ nodesAt manager.callbacks k, old.observer ≠ some manager.made := by
        intro old hold heq
        obtain ⟨observer, hlt, hobs⟩ := h.made k old hold
        rw [heq, Option.some_inj] at hobs
        omega
      rw [hnodes] at hnode hnode'
      rcases List.mem_append.mp hnode with hold | hnew <;>
        rcases List.mem_append.mp hnode' with hold' | hnew'
      · exact h.owner k node hold node' hold' hsame
      · rw [List.eq_of_mem_replicate hnew'] at hsame
        exact absurd hsame (hfresh node hold)
      · rw [List.eq_of_mem_replicate hnew] at hsame
        exact absurd hsame.symm (hfresh node' hold')
      · rw [List.eq_of_mem_replicate hnew, List.eq_of_mem_replicate hnew']

/-- A cached node is cached for its own key. -/
def CachesOwnKey (manager : RdbSubscriberManager δ) : Prop :=
  ∀ k changeNode, manager.lastChangeNodeMap.find? k = some changeNode →
    compare k changeNode.key = .eq

theorem cachesOwnKey_outcome (h : CachesOwnKey manager) (x : RdbExchange δ) :
    CachesOwnKey (x.outcome cls manager).manager := by
  intro k changeNode hnode
  by_cases hx : x.call.Emits
  · obtain ⟨call, answer⟩ := x
    obtain ⟨change, rfl⟩ := SubscriberCall.emits_iff.mp hx
    unfold SubscriberExchange.outcome cls emit at hnode
    dsimp only at hnode
    rw [OrderedMap.find?_assign] at hnode
    split at hnode
    · next hk =>
      rwa [← Option.some_inj.mp hnode]
    · exact h k changeNode hnode
  · rcases keptOrForgotten cls manager k hx with ⟨-, hnone⟩ | ⟨-, hsame⟩
    · rw [hnone] at hnode
      exact absurd hnode (by simp)
    · exact h k changeNode (hsame ▸ hnode)

/-! ## What the flag stands for -/

/-- Some observer of the subscriber is enabled for the key. -/
def EnabledAt (k : RdbObserverMapKey) (s : ℕ) (manager : RdbSubscriberManager δ) : Prop :=
  ∃ node ∈ ofSubscriber s (nodesAt manager.callbacks k), node.enabled = true

instance : Decidable (EnabledAt k s manager) :=
  inferInstanceAs (Decidable (∃ node ∈ ofSubscriber s (nodesAt manager.callbacks k),
    node.enabled = true))

/-- The change missed after one more call. -/
def missedStep (k : RdbObserverMapKey) (s : ℕ) (manager : RdbSubscriberManager δ)
    (missed : Option (RdbChangeNode δ)) (x : RdbExchange δ) : Option (RdbChangeNode δ) :=
  match x.call with
  | .emit changeNode => if compare k changeNode.key = .eq then some changeNode else missed
  | .disableObservers .. =>
    if EnabledAt k s manager ∧ ¬ EnabledAt k s (x.outcome cls manager).manager then none
    else missed
  | _ => missed

/-- One call, with the change missed. -/
def watch (k : RdbObserverMapKey) (s : ℕ)
    (state : RdbSubscriberManager δ × Option (RdbChangeNode δ)) (x : RdbExchange δ) :
    (RdbSubscriberManager δ × Option (RdbChangeNode δ)) × List (ℕ × RdbChangeNode δ) :=
  (((x.outcome cls state.1).manager, missedStep k s state.1 state.2 x),
    (x.outcome cls state.1).calls)

/-- The last change of the key since a call of `DisableObservers` left the subscriber without an
enabled observer there, if there was one. -/
def missed (k : RdbObserverMapKey) (s : ℕ) (calls : List (RdbExchange δ)) :
    Option (RdbChangeNode δ) :=
  (runCalls (watch k s) (.new, none) calls).1.2

/-- The service refuses to enable the only observer of the subscriber, which has missed a
change. -/
def LosesMissed (k : RdbObserverMapKey) (s : ℕ)
    (state : RdbSubscriberManager δ × Option (RdbChangeNode δ)) (x : RdbExchange δ) : Prop :=
  (∃ uris templateId, x.call = .enableObservers s uris templateId) ∧
    Refused (requestsAt k (x.outcome cls state.1).requests) ∧
    (ofSubscriber s (nodesAt state.1.callbacks k)).length = 1 ∧ state.2.isSome = true

/-- The only node of the subscriber for the key is `node`, and it is disabled. -/
def Waiting (k : RdbObserverMapKey) (s : ℕ) (manager : RdbSubscriberManager δ)
    (node : ObserverNode ℕ ℕ) : Prop :=
  ofSubscriber s (nodesAt manager.callbacks k) = [node] ∧ node.enabled = false

/-- The flag of a waiting node says whether a change is missed, and this change is cached. -/
def Tracks (k : RdbObserverMapKey) (s : ℕ)
    (state : RdbSubscriberManager δ × Option (RdbChangeNode δ)) : Prop :=
  ∀ node, Waiting k s state.1 node → node.isNotifyOnEnabled = state.2.isSome ∧
    ∀ changeNode, state.2 = some changeNode →
      state.1.lastChangeNodeMap.find? k = some changeNode

theorem Waiting.not_enabledAt {node : ObserverNode ℕ ℕ} (h : Waiting k s manager node) :
    ¬ EnabledAt k s manager := by
  rintro ⟨node', hnode', henabled⟩
  rw [h.1] at hnode'
  rw [List.mem_singleton.mp hnode', h.2] at henabled
  exact Bool.false_ne_true henabled

variable {state : RdbSubscriberManager δ × Option (RdbChangeNode δ)}

/-- A call that is no change keeps the tracking of a node that was waiting before. -/
theorem Tracks.of_waiting (h : Tracks k s state) (hx : ¬ x.call.Emits)
    (hmissed : (watch k s state x).1.2 = state.2) {node : ObserverNode ℕ ℕ}
    (hwaiting : Waiting k s state.1 node) (hafter : Waiting k s (watch k s state x).1.1 node) :
    node.isNotifyOnEnabled = (watch k s state x).1.2.isSome ∧
      ∀ changeNode, (watch k s state x).1.2 = some changeNode →
        (watch k s state x).1.1.lastChangeNodeMap.find? k = some changeNode := by
  rw [hmissed]
  obtain ⟨hflag, hcached⟩ := h node hwaiting
  refine ⟨hflag, fun changeNode hchange => ?_⟩
  rcases keptOrForgotten cls state.1 k hx with ⟨hnil, -⟩ | ⟨-, hsame⟩
  · have hof := hafter.1
    unfold watch at hof
    dsimp only at hof
    rw [hnil] at hof
    exact absurd hof (by simp [ofSubscriber])
  · exact hsame.trans (hcached changeNode hchange)

/-- A node waiting after a registration was waiting before. -/
theorem waiting_of_addObservers {subscriber : ℕ} {uris : List StdString} {templateId : TemplateId}
    {answer : ℕ → Answer} {node : ObserverNode ℕ ℕ}
    (h : Waiting k s (manager.addObservers subscriber uris templateId answer).manager node) :
    Waiting k s manager node := by
  obtain ⟨hof, hdisabled⟩ := h
  refine ⟨?_, hdisabled⟩
  unfold addObservers SubscriberManager.addObservers at hof
  dsimp only at hof
  rw [nodesAt_addObservers] at hof
  by_cases hs : subscriber = s
  · subst hs
    split at hof
    · rw [ofSubscriber_eraseSubscriber_self] at hof
      exact absurd hof (by simp)
    · rw [ofSubscriber_append] at hof
      rcases List.append_eq_singleton_iff.mp hof with ⟨-, hnew⟩ | ⟨hold, -⟩
      · have henabled := enabled_of_mem_ofSubscriber_replicate (hnew ▸ List.mem_cons_self)
        rw [hdisabled] at henabled
        exact absurd henabled Bool.false_ne_true
      · exact hold
  · split at hof
    · rwa [ofSubscriber_eraseSubscriber_of_ne hs] at hof
    · rwa [ofSubscriber_append, ofSubscriber_replicate_of_ne hs, List.append_nil] at hof

/-- A node waiting after a deletion was waiting before. -/
theorem waiting_of_delKeys {order : List RdbObserverMapKey → List RdbObserverMapKey}
    {keys : List RdbObserverMapKey} {subscriber : ℕ} {answer : ℕ → Answer} {served : RdbServed δ}
    (hdel : manager.delKeys order keys subscriber answer = served) {node : ObserverNode ℕ ℕ}
    (h : Waiting k s served.manager node) : Waiting k s manager node := by
  obtain ⟨hof, hdisabled⟩ := h
  refine ⟨?_, hdisabled⟩
  rw [nodesAt_delKeys hdel] at hof
  split at hof
  · by_cases hs : subscriber = s
    · rw [hs, ofSubscriber_eraseSubscriber_self] at hof
      exact absurd hof (by simp)
    · rwa [ofSubscriber_eraseSubscriber_of_ne hs] at hof
  · exact hof

/-- A node waiting after `EnableObservers` was waiting before, or was refused : then its flag is
reset. -/
theorem waiting_of_enableObservers {subscriber : ℕ} {uris : List StdString}
    {templateId : TemplateId} {answer : ℕ → Answer} {node : ObserverNode ℕ ℕ}
    (h : Waiting k s (manager.enableObservers subscriber uris templateId answer).manager node) :
    Waiting k s manager node ∨
      subscriber = s ∧ node.isNotifyOnEnabled = false ∧
        (ofSubscriber s (nodesAt manager.callbacks k)).length = 1 ∧
        Refused (requestsAt k
          (manager.enableObservers subscriber uris templateId answer).requests) := by
  obtain ⟨hof, hdisabled⟩ := h
  have hnot (henabled : node.enabled = true) : False := by
    rw [hdisabled] at henabled
    exact Bool.false_ne_true henabled
  unfold enableObservers SubscriberManager.enableObservers at hof ⊢
  dsimp only at hof ⊢
  rw [nodesAt_enableObservers] at hof
  by_cases hs : subscriber = s
  · subst hs
    split at hof
    · next hrefused =>
      refine .inr ⟨rfl, ?_⟩
      unfold disableEnabled at hof
      split at hof
      · rw [ofSubscriber_disableSubscriber] at hof
        have hlen : (ofSubscriber subscriber (nodesAt manager.callbacks k)).length = 1 := by
          have hlength := congrArg List.length hof
          rwa [ofSubscriber_enableFirst_self, disableSubscriber, List.length_map,
            length_enableFirst] at hlength
        obtain ⟨node', hof', hnode⟩ := of_disableSubscriber_eq hof
        rw [ofSubscriber_enableFirst_self] at hof'
        have henabled := enabled_of_enableFirst_eq hof'
        rcases hnode with ⟨-, hflag⟩ | rfl
        · exact ⟨hflag, hlen, hrefused⟩
        · exact (hnot henabled).elim
      · rw [ofSubscriber_enableFirst_self] at hof
        exact (hnot (enabled_of_enableFirst_eq hof)).elim
    · split at hof
      · rw [ofSubscriber_enableFirst_self] at hof
        exact (hnot (enabled_of_enableFirst_eq hof)).elim
      · exact .inl ⟨hof, hdisabled⟩
  · refine .inl ⟨?_, hdisabled⟩
    split at hof
    · rwa [ofSubscriber_disableEnabled_of_ne hs, ofSubscriber_enableFirst_of_ne hs] at hof
    · split at hof
      · rwa [ofSubscriber_enableFirst_of_ne hs] at hof
      · exact hof

/-- A node waiting after `DisableObservers` was waiting before, or was disabled by it : then its
flag is reset. -/
theorem waiting_of_disableObservers {subscriber : ℕ} {uris : List StdString}
    {templateId : TemplateId} {answer : ℕ → Answer} {node : ObserverNode ℕ ℕ}
    (h : Waiting k s (manager.disableObservers subscriber uris templateId answer).manager node) :
    Waiting k s manager node ∨ EnabledAt k s manager ∧ node.isNotifyOnEnabled = false := by
  obtain ⟨hof, hdisabled⟩ := h
  have hnot (henabled : node.enabled = true) : False := by
    rw [hdisabled] at henabled
    exact Bool.false_ne_true henabled
  unfold disableObservers SubscriberManager.disableObservers at hof
  dsimp only at hof
  rw [nodesAt_disableObservers] at hof
  by_cases hs : subscriber = s
  · subst hs
    split at hof
    · rw [ofSubscriber_enableFirst_self] at hof
      exact (hnot (enabled_of_enableFirst_eq hof)).elim
    · split at hof
      · unfold disableEnabled at hof
        split at hof
        · rw [ofSubscriber_disableSubscriber] at hof
          obtain ⟨node', hof', ⟨henabled, hflag⟩ | rfl⟩ := of_disableSubscriber_eq hof
          · exact .inr ⟨⟨node', hof' ▸ List.mem_cons_self, henabled⟩, hflag⟩
          · exact .inl ⟨hof', hdisabled⟩
        · exact .inl ⟨hof, hdisabled⟩
      · exact .inl ⟨hof, hdisabled⟩
  · refine .inl ⟨?_, hdisabled⟩
    split at hof
    · rwa [ofSubscriber_enableFirst_of_ne hs, ofSubscriber_disableEnabled_of_ne hs] at hof
    · split at hof
      · rwa [ofSubscriber_disableEnabled_of_ne hs] at hof
      · exact hof

theorem tracks_watch (h : Tracks k s state) (hx : ¬ LosesMissed k s state x) :
    Tracks k s (watch k s state x).1 := by
  obtain ⟨call, answer⟩ := x
  intro node hwaiting
  cases call with
  | addObservers subscriber uris templateId =>
    exact h.of_waiting id rfl (waiting_of_addObservers hwaiting) hwaiting
  | delObservers subscriber uris templateId =>
    obtain ⟨order, keys, hdel⟩ := delObservers_eq_delKeys cls state.1 subscriber uris templateId
      answer
    exact h.of_waiting id rfl (waiting_of_delKeys hdel.symm hwaiting) hwaiting
  | delAllObservers subscriber =>
    have hdel : state.1.delKeys (cls (δ := δ)).unsubscribeOrder state.1.callbacks.keys subscriber
        answer = SubscriberManager.delAllObservers cls subscriber answer state.1 := rfl
    exact h.of_waiting id rfl (waiting_of_delKeys hdel hwaiting) hwaiting
  | enableObservers subscriber uris templateId =>
    rcases waiting_of_enableObservers hwaiting with hbefore | ⟨rfl, hflag, halone, hrefused⟩
    · exact h.of_waiting id rfl hbefore hwaiting
    · have hnone : state.2 = none := by
        by_contra hsome
        exact hx ⟨⟨uris, templateId, rfl⟩, hrefused, halone, Option.isSome_iff_ne_none.mpr hsome⟩
      change node.isNotifyOnEnabled = state.2.isSome ∧ ∀ changeNode, state.2 = some changeNode → _
      rw [hnone, hflag]
      exact ⟨rfl, fun changeNode hchange => absurd hchange (by simp)⟩
  | disableObservers subscriber uris templateId =>
    rcases waiting_of_disableObservers hwaiting with hbefore | ⟨henabled, hflag⟩
    · have hmissed : (watch k s state
          ⟨.disableObservers subscriber uris templateId, answer⟩).1.2 = state.2 :=
        if_neg fun h' => hbefore.not_enabledAt h'.1
      exact h.of_waiting id hmissed hbefore hwaiting
    · have hmissed : (watch k s state
          ⟨.disableObservers subscriber uris templateId, answer⟩).1.2 = none :=
        if_pos ⟨henabled, hwaiting.not_enabledAt⟩
      rw [hmissed, hflag]
      exact ⟨rfl, fun changeNode hchange => absurd hchange (by simp)⟩
  | emit changeNode =>
    have hnodes : nodesAt (watch k s state ⟨.emit changeNode, answer⟩).1.1.callbacks k =
        if compare k changeNode.key = .eq then setNotifiedOn (nodesAt state.1.callbacks k)
        else nodesAt state.1.callbacks k :=
      nodesAt_getObserversAndSetNotifiedOn _ _ _
    have hcached : (watch k s state ⟨.emit changeNode, answer⟩).1.1.lastChangeNodeMap.find? k =
        if compare k changeNode.key = .eq then some changeNode
        else state.1.lastChangeNodeMap.find? k :=
      OrderedMap.find?_assign _ _ _ _
    have hmissed : (watch k s state ⟨.emit changeNode, answer⟩).1.2 =
        if compare k changeNode.key = .eq then some changeNode else state.2 := rfl
    obtain ⟨hof, hdisabled⟩ := hwaiting
    rw [hnodes] at hof
    rw [hcached, hmissed]
    by_cases hk : compare k changeNode.key = .eq
    · rw [if_pos hk] at hof ⊢
      rw [ofSubscriber_setNotifiedOn] at hof
      obtain ⟨node', -, rfl⟩ := List.map_eq_singleton_iff.mp hof
      have hdisabled' : node'.enabled = false := hdisabled
      rw [if_pos hk]
      exact ⟨by simp [hdisabled'], fun _ => id⟩
    · rw [if_neg hk] at hof ⊢
      rw [if_neg hk]
      exact h node ⟨hof, hdisabled⟩

/-! ## Runs -/

theorem fst_watch (calls : List (RdbExchange δ)) :
    (runCalls (watch k s) (.new, none) calls).1.1 = managerAfter calls := by
  induction calls using List.reverseRecOn with
  | nil => rfl
  | append_singleton calls x ih =>
    rw [runCalls_concat]
    unfold managerAfter
    rw [SubscriberExchange.managerAfter_concat]
    exact congrArg (fun manager => (x.outcome cls manager).manager) ih

theorem registrations_managerAfter (calls : List (RdbExchange δ)) :
    Registrations (managerAfter calls) := by
  induction calls using List.reverseRecOn with
  | nil => exact ⟨fun _ _ h => absurd h List.not_mem_nil, fun _ _ h => absurd h List.not_mem_nil⟩
  | append_singleton calls x ih =>
    unfold managerAfter
    rw [SubscriberExchange.managerAfter_concat]
    exact registrations_outcome ih x

theorem cachesOwnKey_managerAfter (calls : List (RdbExchange δ)) :
    CachesOwnKey (managerAfter calls) := by
  induction calls using List.reverseRecOn with
  | nil => exact fun _ _ h => absurd h (by simp [managerAfter, SubscriberExchange.managerAfter,
      SubscriberManager.new])
  | append_singleton calls x ih =>
    unfold managerAfter
    rw [SubscriberExchange.managerAfter_concat]
    exact cachesOwnKey_outcome ih x

/-- No call of the run loses a change missed by the subscriber. -/
def KeepsMissed (k : RdbObserverMapKey) (s : ℕ) (calls : List (RdbExchange δ)) : Prop :=
  AllowedRun (watch k s) (fun state x => ¬ LosesMissed k s state x) (.new, none) calls

theorem tracks_run (h : KeepsMissed k s calls) :
    Tracks k s (managerAfter calls, missed k s calls) := by
  rw [← fst_watch (k := k) (s := s) calls]
  refine h.invariant (P := fun state _ => Tracks k s state) (fun node hwaiting => ?_)
    fun state log x hx hstate => tracks_watch hstate hx
  exact absurd hwaiting.1 (by simp [nodesAt, SubscriberManager.new, ofSubscriber])

/-! ## Enabling -/

/-- What an observer is called with for a key. -/
def callsFor (k : RdbObserverMapKey) (observer : ℕ) (calls : List (ℕ × RdbChangeNode δ)) :
    List (RdbChangeNode δ) :=
  (calls.filter fun call => call.1 = observer ∧ compare k call.2.key = .eq).map Prod.snd

/-- A key hands out the node cached for it, which is none for another key. -/
theorem callsFor_emitKeyOnEnable_of_ne {lastMap : NodeMap δ}
    {callbacks : Callbacks RdbObserverMapKey ℕ ℕ} {observer : ℕ}
    {entry : RdbObserverMapKey × List (Option ℕ × Bool)}
    (hlast : ∀ key changeNode, lastMap.find? key = some changeNode →
      compare key changeNode.key = .eq) (hk : compare k entry.1 ≠ .eq) :
    callsFor k observer (emitKeyOnEnable lastMap callbacks entry) = [] := by
  unfold callsFor emitKeyOnEnable
  rw [List.map_eq_nil_iff, List.filter_eq_nil_iff]
  intro call hcall hp
  split at hcall
  · exact List.not_mem_nil hcall
  · next changeNode hnode =>
    obtain ⟨obs, -, hobs⟩ := List.mem_filterMap.mp hcall
    split at hobs
    · obtain ⟨other, -, rfl⟩ := Option.map_eq_some_iff.mp hobs
      have hnodeKey : compare k changeNode.key = .eq := (of_decide_eq_true hp).2
      exact hk (Std.TransCmp.eq_trans hnodeKey (Std.OrientedCmp.eq_symm (hlast _ _ hnode)))
    · exact absurd hobs (by simp)

theorem flatMap_eq_flatMap_filter {ι α : Type} {p : ι → Prop} [DecidablePred p] {g : ι → List α} :
    ∀ {l : List ι}, (∀ x ∈ l, ¬ p x → g x = []) → l.flatMap g = (l.filter p).flatMap g
  | [], _ => rfl
  | x :: l, h => by
    have ih := flatMap_eq_flatMap_filter fun y hy => h y (List.mem_cons_of_mem x hy)
    by_cases hp : p x
    · rw [List.filter_cons_of_pos (by simpa using hp), List.flatMap_cons, List.flatMap_cons, ih]
    · rw [List.filter_cons_of_neg (by simpa using hp), List.flatMap_cons,
        h x List.mem_cons_self hp, List.nil_append, ih]

theorem callsFor_flatMap {ι : Type} (f : ι → List (ℕ × RdbChangeNode δ)) (l : List ι)
    (observer : ℕ) :
    callsFor k observer (l.flatMap f) = l.flatMap fun x => callsFor k observer (f x) := by
  unfold callsFor
  rw [List.filter_flatMap, List.map_flatMap]

/-- An observer noted once for a key gets the node cached for the key if its flag is set. -/
theorem callsFor_emitOnEnable {lastMap : NodeMap δ} (callbacks : Callbacks RdbObserverMapKey ℕ ℕ)
    {obsMap : RefreshObservers RdbObserverMapKey} {observer : ℕ} {flag : Bool}
    (hlast : ∀ key changeNode, lastMap.find? key = some changeNode →
      compare key changeNode.key = .eq)
    (hobs : obsMap.find? k = some [(some observer, flag)]) :
    callsFor k observer (emitOnEnable lastMap callbacks obsMap) =
      if isObserversNotifiedOnEnabled k (some observer) callbacks then (lastMap.find? k).toList
      else [] := by
  obtain ⟨k', hk', hentries⟩ := OrderedMap.filter_entries_of_find? hobs
  have hother : ∀ entry ∈ obsMap.entries, ¬ compare k entry.1 = .eq →
      callsFor k observer (emitKeyOnEnable lastMap callbacks entry) = [] :=
    fun entry _ hne => callsFor_emitKeyOnEnable_of_ne hlast hne
  have hturns : callsFor k observer (emitOnEnable lastMap callbacks obsMap) =
      callsFor k observer (emitKeyOnEnable lastMap callbacks (k', [(some observer, flag)])) := by
    unfold emitOnEnable
    rw [callsFor_flatMap, flatMap_eq_flatMap_filter hother, hentries, List.flatMap_singleton]
  have hflag : isObserversNotifiedOnEnabled k' (some observer) callbacks =
      isObserversNotifiedOnEnabled k (some observer) callbacks := by
    unfold isObserversNotifiedOnEnabled
    rw [OrderedMap.find?_congr hk']
  rw [hturns]
  unfold emitKeyOnEnable
  dsimp only
  rw [← OrderedMap.find?_congr hk']
  cases hfind : lastMap.find? k with
  | none => simp [callsFor]
  | some changeNode =>
    have hkey := hlast k changeNode hfind
    by_cases hnotified : isObserversNotifiedOnEnabled k (some observer) callbacks = true
    · simp [callsFor, hflag, hnotified, hkey]
    · simp [callsFor, hflag, hnotified]

section Enabling

variable {node : ObserverNode ℕ ℕ} {observer : ℕ} {uris : List StdString} {templateId : TemplateId}
  {answer : ℕ → Answer}

theorem Waiting.find? (h : Waiting k s manager node) :
    (nodesAt manager.callbacks k).find? (fun node => node.subscriber = s) = some node := by
  have hof := h.1
  unfold ofSubscriber at hof
  rw [← List.head?_filter, hof, List.head?_cons]

theorem Waiting.ofSubscriber_enableFirst (h : Waiting k s manager node) :
    ofSubscriber s (enableFirst s (nodesAt manager.callbacks k)) =
      [{ node with enabled := true }] := by
  have hmem : node ∈ ofSubscriber s (nodesAt manager.callbacks k) := h.1 ▸ List.mem_cons_self
  rw [ofSubscriber_enableFirst_self, h.1, enableFirst, if_pos (mem_ofSubscriber.mp hmem).2]

/-- What enables a waiting node is an accepted call that names the key. -/
theorem nodesAt_enabled (hwaiting : Waiting k s manager node)
    (hobserver : node.observer = some observer)
    (henabled : EnabledAt k s (manager.enableObservers s uris templateId answer).manager) :
    Mentions k (uris.map fun uri => RdbObserverMapKey.new uri templateId) ∧
      nodesAt (manager.enableObservers s uris templateId answer).manager.callbacks k =
        enableFirst s (nodesAt manager.callbacks k) := by
  unfold EnabledAt enableObservers SubscriberManager.enableObservers at henabled
  unfold enableObservers SubscriberManager.enableObservers
  dsimp only at henabled ⊢
  rw [nodesAt_enableObservers] at henabled ⊢
  split at henabled
  · -- a refused call disables all nodes of the subscriber, as the enabled one can be called
    have hof := hwaiting.ofSubscriber_enableFirst
    have hsub : node.subscriber = s :=
      (mem_ofSubscriber.mp (hwaiting.1 ▸ List.mem_cons_self : node ∈ ofSubscriber s _)).2
    have hmem := (mem_ofSubscriber.mp (hof ▸ List.mem_cons_self :
      { node with enabled := true } ∈ ofSubscriber s _)).1
    have hhas : HasEnabled (enableFirst s (nodesAt manager.callbacks k)) :=
      hasEnabled_iff.mpr ⟨_, hmem, rfl, by rw [hobserver]; rfl⟩
    obtain ⟨other, hother, hon⟩ := henabled
    rw [disableEnabled, if_pos hhas, ofSubscriber_disableSubscriber, hof] at hother
    simp [disableSubscriber, hsub] at hother
    rw [hother] at hon
    exact absurd hon Bool.false_ne_true
  · next hrefused =>
    rw [if_neg hrefused]
    split at henabled
    · next hkeys => exact ⟨hkeys, if_pos hkeys⟩
    · exact absurd henabled hwaiting.not_enabledAt

theorem isObserversNotifiedOnEnabled_eq (k : RdbObserverMapKey) (obs : Option ℕ)
    (callbacks : Callbacks RdbObserverMapKey ℕ ℕ) :
    isObserversNotifiedOnEnabled k obs callbacks = notifiedOnEnabled obs (nodesAt callbacks k) := by
  unfold isObserversNotifiedOnEnabled nodesAt
  cases callbacks.find? k <;> rfl

/-- The first node of an observer is of its own subscriber, so its flag is that of the only node
there. -/
theorem notifiedOnEnabled_of_alone {nodes : List (ObserverNode ℕ ℕ)}
    (howner : ∀ other ∈ nodes, ∀ other' ∈ nodes, other.observer = other'.observer →
      other.subscriber = other'.subscriber)
    (halone : ofSubscriber s nodes = [node]) :
    notifiedOnEnabled node.observer nodes = node.isNotifyOnEnabled := by
  have hmem : node ∈ nodes ∧ node.subscriber = s :=
    mem_ofSubscriber.mp (halone ▸ List.mem_cons_self)
  obtain ⟨found, hfound⟩ := Option.isSome_iff_exists.mp
    (List.find?_isSome.mpr ⟨node, hmem.1, by simp⟩ :
      (nodes.find? fun other => other.observer = node.observer).isSome)
  have hsame : found.observer = node.observer := by simpa using List.find?_some hfound
  have hfoundMem := List.mem_of_find?_eq_some hfound
  have hof : found ∈ ofSubscriber s nodes :=
    mem_ofSubscriber.mpr ⟨hfoundMem, (howner found hfoundMem node hmem.1 hsame).trans hmem.2⟩
  rw [halone] at hof
  rw [notifiedOnEnabled, hfound, List.mem_singleton.mp hof, Option.map_some, Option.getD_some]

/-- A waiting observer that is enabled is called for its key with the change it missed, once, and
not at all if it missed none. -/
theorem enabled_gets_missed (h : KeepsMissed k s calls)
    (hwaiting : Waiting k s (managerAfter calls) node) (hobserver : node.observer = some observer)
    (henabled : EnabledAt k s
      (served calls ⟨.enableObservers s uris templateId, answer⟩).manager) :
    callsFor k observer (served calls ⟨.enableObservers s uris templateId, answer⟩).calls =
      (missed k s calls).toList := by
  obtain ⟨hkeys, hnodes⟩ := nodesAt_enabled hwaiting hobserver henabled
  obtain ⟨hflag, hcached⟩ := tracks_run h node hwaiting
  have hrefresh : (enableLocal (uris.map fun uri => RdbObserverMapKey.new uri templateId) s
      (managerAfter calls).callbacks).refreshObservers.find? k =
        some [(some observer, node.isNotifyOnEnabled)] := by
    rw [find?_refreshObservers, if_pos hkeys,
      nodeToEnable_eq_some.mpr ⟨hwaiting.find?, hwaiting.2⟩, Option.map_some, hobserver]
  have hcalls := callsFor_emitOnEnable
    (served calls ⟨.enableObservers s uris templateId, answer⟩).manager.callbacks
    (cachesOwnKey_managerAfter calls) hrefresh
  have halone : ofSubscriber s (nodesAt
      (served calls ⟨.enableObservers s uris templateId, answer⟩).manager.callbacks k) =
        [{ node with enabled := true }] :=
    (congrArg (ofSubscriber s) hnodes).trans hwaiting.ofSubscriber_enableFirst
  have hnotified : isObserversNotifiedOnEnabled k (some observer)
      (served calls ⟨.enableObservers s uris templateId, answer⟩).manager.callbacks =
        node.isNotifyOnEnabled := by
    have howner := (registrations_outcome (registrations_managerAfter calls)
      ⟨.enableObservers s uris templateId, answer⟩).owner k
    rw [isObserversNotifiedOnEnabled_eq, ← hobserver]
    have hfirst := notifiedOnEnabled_of_alone howner halone
    exact hfirst
  rw [hnotified, hflag] at hcalls
  refine hcalls.trans ?_
  cases hmissed : missed k s calls with
  | none => rfl
  | some changeNode => rw [hcached changeNode hmissed]; rfl

end Enabling

/-! ### A change missed by one observer -/

/-- An observer is disabled and misses a change. -/
def missesChange : List (RdbExchange ℕ) :=
  [accepted (.addObservers 1 [[117]] someTemplate),
    accepted (.disableObservers 1 [[117]] someTemplate), accepted (.emit someNode)]

/-- Its node then. -/
def missedNode : ObserverNode ℕ ℕ :=
  ⟨some 0, false, 1, true⟩

theorem missesChange_replayed :
    callsFor someNode.key 0
        (served missesChange (accepted (.enableObservers 1 [[117]] someTemplate))).calls =
      (missed someNode.key 1 missesChange).toList := by
  have hwaiting : Waiting someNode.key 1 (managerAfter missesChange) missedNode :=
    ⟨by decide +kernel, rfl⟩
  have hkeeps : KeepsMissed someNode.key 1 ([] ++ [accepted (.addObservers 1 [[117]] someTemplate)] ++
      [accepted (.disableObservers 1 [[117]] someTemplate)] ++ [accepted (.emit someNode)]) := by
    unfold KeepsMissed
    simp only [allowedRun_concat]
    refine ⟨⟨⟨allowedRun_nil, ?_⟩, ?_⟩, ?_⟩
    · exact fun h => absurd h.1 (by simp [accepted])
    · exact fun h => absurd h.1 (by simp [accepted])
    · exact fun h => absurd h.1 (by simp [accepted])
  exact enabled_gets_missed hkeeps hwaiting rfl (by decide +kernel)

/-- The service refuses to enable the observer. -/
def refusedEnable : RdbExchange ℕ :=
  ⟨.enableObservers 1 [[117]] someTemplate, fun _ => .replied errSubscriberNotExist⟩

/-- Enabled at the second attempt, the observer is not called with the change it missed. -/
theorem refused_enable_loses_missed :
    Waiting someNode.key 1 (managerAfter (missesChange ++ [refusedEnable]))
        { missedNode with isNotifyOnEnabled := false } ∧
      EnabledAt someNode.key 1 (served (missesChange ++ [refusedEnable])
        (accepted (.enableObservers 1 [[117]] someTemplate))).manager ∧
      callsFor someNode.key 0 (served (missesChange ++ [refusedEnable])
        (accepted (.enableObservers 1 [[117]] someTemplate))).calls ≠
          (missed someNode.key 1 (missesChange ++ [refusedEnable])).toList :=
  ⟨⟨by decide +kernel, rfl⟩, by decide +kernel, by decide +kernel⟩

end RdbSubscriberManager

end Cpp

end DataShare
