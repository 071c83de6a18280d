import DataShare.ReplayEpochs

/-!
# Missed items of published data

An observer of published data that is disabled when an item of its key comes misses it.
`PublishedDataSubscriberManager` flags the node of the observer, and reads the flag when the observer
is enabled again. `EnableObservers` looks for the first node of its subscriber at a key only. Of this
node the flag says, in every run, that the key has changed while the node was disabled, and has not
been enabled since, not even by a call that the service refuses (`flag_iff_missed`).
-/

namespace DataShare

/-! ## The first node of a subscriber -/

section Nodes

variable {ω : Type} {s subscriber : ℕ} {nodes : List (ObserverNode ℕ ω)}

def firstNode (s : ℕ) (nodes : List (ObserverNode ℕ ω)) : Option (ObserverNode ℕ ω) :=
  nodes.find? fun node => node.subscriber = s

theorem firstNode_append (nodes nodes' : List (ObserverNode ℕ ω)) :
    firstNode s (nodes ++ nodes') = (firstNode s nodes).or (firstNode s nodes') :=
  List.find?_append

theorem firstNode_eraseSubscriber :
    firstNode s (eraseSubscriber subscriber nodes) =
      if subscriber = s then none else firstNode s nodes := by
  unfold firstNode eraseSubscriber
  rw [List.find?_filter]
  split
  · next hs =>
    subst hs
    rw [List.find?_eq_none]
    simp
  · next hs =>
    refine congrArg (List.find? · nodes) (funext fun node => ?_)
    by_cases hnode : node.subscriber = s
    · simp [hnode, Ne.symm hs]
    · simp [hnode]

/-- A change of the nodes that keeps their subscribers. -/
theorem firstNode_map {f : ObserverNode ℕ ω → ObserverNode ℕ ω}
    (hf : ∀ node, (f node).subscriber = node.subscriber) :
    firstNode s (nodes.map f) = (firstNode s nodes).map f := by
  unfold firstNode
  rw [List.find?_map]
  exact congrArg (Option.map f) (congrArg (List.find? · nodes) (funext fun node => by
    rw [Function.comp_apply, hf]))

theorem firstNode_enableFirst : ∀ nodes : List (ObserverNode ℕ ω),
    firstNode s (enableFirst subscriber nodes) =
      if subscriber = s then (firstNode s nodes).map fun node => { node with enabled := true }
      else firstNode s nodes
  | [] => by
    split <;> rfl
  | node :: nodes => by
    have ih := firstNode_enableFirst nodes
    unfold firstNode at ih ⊢
    rw [enableFirst]
    by_cases hs : subscriber = s
    · subst hs
      rw [if_pos rfl] at ih ⊢
      by_cases hnode : node.subscriber = subscriber
      · simp [hnode]
      · simp [hnode, ih]
    · rw [if_neg hs] at ih ⊢
      by_cases hnode : node.subscriber = subscriber
      · simp [hnode, hs]
      · rw [if_neg hnode, List.find?_cons, List.find?_cons, ih]

theorem firstNode_disableEnabled (s subscriber : ℕ) (nodes : List (ObserverNode ℕ ω)) :
    firstNode s (disableEnabled subscriber nodes) = firstNode s nodes ∨
      subscriber = s ∧ ∀ node, firstNode s (disableEnabled subscriber nodes) = some node →
        firstNode s nodes = some node ∨
          node.isNotifyOnEnabled = false ∧
            ∃ before, firstNode s nodes = some before ∧ before.enabled = true := by
  unfold disableEnabled
  split
  · unfold disableSubscriber
    rw [firstNode_map fun node => by split <;> rfl]
    by_cases hs : subscriber = s
    · refine .inr ⟨hs, fun node hnode => ?_⟩
      obtain ⟨before, hbefore, rfl⟩ := Option.map_eq_some_iff.mp hnode
      split
      · next henabled => exact .inr ⟨rfl, before, hbefore, henabled.2⟩
      · exact .inl hbefore
    · left
      cases hfirst : firstNode s nodes with
      | none => rfl
      | some node =>
        have hsub : node.subscriber = s := by simpa using List.find?_some hfirst
        rw [Option.map_some, if_neg fun h => hs (h.1.symm.trans hsub)]
  · exact .inl rfl

end Nodes

namespace Cpp

namespace PublishedDataSubscriberManager

open CallbacksManager

variable {δ : Type} {k : PublishedObserverMapKey} {s : ℕ} {calls : List (PublishedExchange δ)}
  {manager : PublishedDataSubscriberManager δ}

/-! ## Missed changes -/

/-- The keys of an operation's uris. -/
def keysOf (uris : List StdString) (subscriberId : Int64) : List PublishedObserverMapKey :=
  uris.map fun uri => .new uri subscriberId

/-- The call is a change with an item for the key. -/
def Changes (k : PublishedObserverMapKey)
    (call : SubscriberCall Int64 (PublishedDataChangeNode δ)) : Prop :=
  ∃ changeNode, call = .emit changeNode ∧
    Mentions k (changeNode.datas.map PublishedDataItem.mapKey)

/-- The call is `EnableObservers` of the subscriber for the key. -/
def Enables (s : ℕ) (k : PublishedObserverMapKey)
    (call : SubscriberCall Int64 (PublishedDataChangeNode δ)) : Prop :=
  ∃ uris subscriberId, call = .enableObservers s uris subscriberId ∧
    Mentions k (keysOf uris subscriberId)

/-- Since a change of the key, the first observer of the subscriber there has been disabled, and was
not to be enabled. -/
def Missed (k : PublishedObserverMapKey) (s : ℕ) (calls : List (PublishedExchange δ)) : Prop :=
  Since (fun _ x => Changes k x.call)
    (fun history => FirstDisabled s (nodesAt (managerAfter history).callbacks k) ∧
      ∀ x ∈ history.getLast?, ¬ Enables s k x.call) calls

theorem nodesAt_emitItems (ownerBundleName : StdString) (k : PublishedObserverMapKey)
    (datas : List (PublishedDataItem δ)) (acc : Emitting δ) :
    nodesAt (datas.foldl (emitItem ownerBundleName) acc).callbacks k =
      if Mentions k (datas.map PublishedDataItem.mapKey) then
        setDisabledNotifiedOn (nodesAt acc.callbacks k)
      else nodesAt acc.callbacks k := by
  have hkeys : ∀ (datas : List (PublishedDataItem δ)) (acc : Emitting δ),
      (datas.foldl (emitItem ownerBundleName) acc).callbacks =
        (datas.map PublishedDataItem.mapKey).foldl
          (fun callbacks key => setObserversNotifiedOnEnabled key callbacks) acc.callbacks := by
    intro datas
    induction datas with
    | nil => exact fun _ => rfl
    | cons data datas ih => exact fun acc => ih _
  have hturn : TurnAt k (fun callbacks key => setObserversNotifiedOnEnabled key callbacks)
      (fun callbacks : Callbacks => nodesAt callbacks k) setDisabledNotifiedOn :=
    fun callbacks key => nodesAt_setObserversNotifiedOnEnabled key k callbacks
  rw [hkeys, hturn.foldl_of_idempotent fun nodes => ?_]
  unfold setDisabledNotifiedOn
  rw [List.map_map]
  refine List.map_congr_left fun node _ => ?_
  cases h : node.enabled <;> simp [h]

/-- Where the disabled first node of a subscriber comes from. -/
inductive Origin (k : PublishedObserverMapKey) (s : ℕ)
    (call : SubscriberCall Int64 (PublishedDataChangeNode δ))
    (before : Option (ObserverNode ℕ ℕ)) (node : ObserverNode ℕ ℕ) : Prop
  /-- It was there when the change came. -/
  | missed (changes : Changes k call) (flag : node.isNotifyOnEnabled = true)
  /-- It was enabled before, or for a moment. -/
  | reset (changes : ¬ Changes k call) (flag : node.isNotifyOnEnabled = false)
    (enabled : Enables s k call ∨ before = none)
  | kept (changes : ¬ Changes k call) (enables : ¬ Enables s k call) (same : before = some node)

theorem origin_of_same {call : SubscriberCall Int64 (PublishedDataChangeNode δ)}
    {nodes nodes' : List (ObserverNode ℕ ℕ)} {node : ObserverNode ℕ ℕ}
    (changes : ¬ Changes k call) (enables : ¬ Enables s k call)
    (hsame : firstNode s nodes' = firstNode s nodes) (h : nodeToEnable s nodes' = some node) :
    Origin k s call (nodeToEnable s nodes) node := by
  refine .kept changes enables ?_
  rw [← h]
  exact congrArg (Option.filter fun node => !node.enabled) hsame.symm

theorem origin_of_eraseSubscriber {call : SubscriberCall Int64 (PublishedDataChangeNode δ)}
    {subscriber : ℕ} {nodes : List (ObserverNode ℕ ℕ)} {node : ObserverNode ℕ ℕ}
    (changes : ¬ Changes k call) (enables : ¬ Enables s k call)
    (h : nodeToEnable s (eraseSubscriber subscriber nodes) = some node) :
    Origin k s call (nodeToEnable s nodes) node := by
  refine origin_of_same changes enables (firstNode_eraseSubscriber.trans (if_neg ?_)) h
  rintro rfl
  have hfirst := (nodeToEnable_eq_some.mp h).1
  change firstNode subscriber _ = _ at hfirst
  rw [firstNode_eraseSubscriber, if_pos rfl] at hfirst
  exact absurd hfirst (by simp)

theorem origin_of_delKeys {call : SubscriberCall Int64 (PublishedDataChangeNode δ)}
    {order : List PublishedObserverMapKey → List PublishedObserverMapKey}
    {keys : List PublishedObserverMapKey} {subscriber : ℕ} {answer : ℕ → Answer}
    {served : PublishedServed δ} {node : ObserverNode ℕ ℕ}
    (hdel : manager.delKeys order keys subscriber answer = served)
    (changes : ¬ Changes k call) (enables : ¬ Enables s k call)
    (h : nodeToEnable s (nodesAt served.manager.callbacks k) = some node) :
    Origin k s call (nodeToEnable s (nodesAt manager.callbacks k)) node := by
  rw [nodesAt_delKeys hdel] at h
  split at h
  · exact origin_of_eraseSubscriber changes enables h
  · exact .kept changes enables h

/-- Enabled nodes are not to be enabled. -/
theorem not_nodeToEnable_of_enabled {nodes nodes' : List (ObserverNode ℕ ℕ)}
    {node : ObserverNode ℕ ℕ}
    (hfirst : firstNode s nodes' = (firstNode s nodes).map fun node => { node with enabled := true })
    (h : nodeToEnable s nodes' = some node) : False := by
  obtain ⟨hnode, hdisabled⟩ := nodeToEnable_eq_some.mp h
  change firstNode s nodes' = _ at hnode
  rw [hfirst] at hnode
  obtain ⟨before, -, rfl⟩ := Option.map_eq_some_iff.mp hnode
  exact absurd hdisabled (by simp)

theorem origin_of_addObservers {subscriber : ℕ} {uris : List StdString} {subscriberId : Int64}
    {answer : ℕ → Answer} {node : ObserverNode ℕ ℕ}
    (h : nodeToEnable s (nodesAt
      (manager.addObservers subscriber uris subscriberId answer).manager.callbacks k) = some node) :
    Origin k s (δ := δ) (.addObservers subscriber uris subscriberId)
      (nodeToEnable s (nodesAt manager.callbacks k)) node := by
  have changes : ¬ Changes k (δ := δ) (.addObservers subscriber uris subscriberId) := by
    simp [Changes]
  have enables : ¬ Enables s k (δ := δ) (.addObservers subscriber uris subscriberId) := by
    simp [Enables]
  unfold addObservers SubscriberManager.addObservers at h
  dsimp only at h
  rw [nodesAt_addObservers] at h
  split at h
  · exact origin_of_eraseSubscriber changes enables h
  · obtain ⟨hnode, hdisabled⟩ := nodeToEnable_eq_some.mp h
    change firstNode s _ = _ at hnode
    rw [firstNode_append] at hnode
    rcases Option.or_eq_some_iff.mp hnode with hold | ⟨-, hnew⟩
    · exact .kept changes enables (nodeToEnable_eq_some.mpr ⟨hold, hdisabled⟩)
    · rw [List.eq_of_mem_replicate (List.mem_of_find?_eq_some hnew)] at hdisabled
      exact absurd hdisabled (by simp [ObserverNode.new])

theorem origin_of_enableObservers {subscriber : ℕ} {uris : List StdString} {subscriberId : Int64}
    {answer : ℕ → Answer} {node : ObserverNode ℕ ℕ}
    (h : nodeToEnable s (nodesAt
      (manager.enableObservers subscriber uris subscriberId answer).manager.callbacks k) =
        some node) :
    Origin k s (δ := δ) (.enableObservers subscriber uris subscriberId)
      (nodeToEnable s (nodesAt manager.callbacks k)) node := by
  have changes : ¬ Changes k (δ := δ) (.enableObservers subscriber uris subscriberId) := by
    simp [Changes]
  unfold enableObservers SubscriberManager.enableObservers at h
  dsimp only at h
  rw [nodesAt_enableObservers] at h
  by_cases hs : subscriber = s
  · subst hs
    split at h
    · next hrefused =>
      have hkeys := (mentions_sendServiceKeys.mp (mentions_of_refused hrefused)).1
      have enables : Enables subscriber k (δ := δ)
          (.enableObservers subscriber uris subscriberId) := ⟨uris, subscriberId, rfl, hkeys⟩
      have honce := (firstNode_enableFirst (nodesAt manager.callbacks k)).trans
        (if_pos (rfl : subscriber = subscriber))
      obtain ⟨hnode, hdisabled⟩ := nodeToEnable_eq_some.mp h
      rcases firstNode_disableEnabled subscriber subscriber
        (enableFirst subscriber (nodesAt manager.callbacks k)) with hsame | ⟨-, hcases⟩
      · exact (not_nodeToEnable_of_enabled (hsame.trans honce) h).elim
      · rcases hcases node hnode with hold | ⟨hflag, -⟩
        · exact (not_nodeToEnable_of_enabled honce
            (nodeToEnable_eq_some.mpr ⟨hold, hdisabled⟩)).elim
        · exact .reset changes hflag (.inl enables)
    · split at h
      · exact (not_nodeToEnable_of_enabled ((firstNode_enableFirst _).trans (if_pos rfl)) h).elim
      · next hkeys =>
        refine .kept changes ?_ h
        rintro ⟨uris', subscriberId', heq, hmentions⟩
        obtain ⟨-, rfl, rfl⟩ := SubscriberCall.enableObservers.inj heq
        exact hkeys hmentions
  · have enables : ¬ Enables s k (δ := δ) (.enableObservers subscriber uris subscriberId) := by
      rintro ⟨uris', subscriberId', heq, -⟩
      exact hs (SubscriberCall.enableObservers.inj heq).1
    have hother := (firstNode_enableFirst (nodesAt manager.callbacks k)).trans (if_neg hs)
    refine origin_of_same changes enables ?_ h
    split
    · exact ((firstNode_disableEnabled s subscriber _).resolve_right fun h => hs h.1).trans hother
    · split
      · exact hother
      · rfl

theorem origin_of_disableObservers {subscriber : ℕ} {uris : List StdString} {subscriberId : Int64}
    {answer : ℕ → Answer} {node : ObserverNode ℕ ℕ}
    (h : nodeToEnable s (nodesAt
      (manager.disableObservers subscriber uris subscriberId answer).manager.callbacks k) =
        some node) :
    Origin k s (δ := δ) (.disableObservers subscriber uris subscriberId)
      (nodeToEnable s (nodesAt manager.callbacks k)) node := by
  have changes : ¬ Changes k (δ := δ) (.disableObservers subscriber uris subscriberId) := by
    simp [Changes]
  have enables : ¬ Enables s k (δ := δ) (.disableObservers subscriber uris subscriberId) := by
    simp [Enables]
  unfold disableObservers SubscriberManager.disableObservers at h
  dsimp only at h
  rw [nodesAt_disableObservers] at h
  by_cases hs : subscriber = s
  · subst hs
    split at h
    · exact (not_nodeToEnable_of_enabled ((firstNode_enableFirst _).trans (if_pos rfl)) h).elim
    · split at h
      · obtain ⟨hnode, hdisabled⟩ := nodeToEnable_eq_some.mp h
        rcases firstNode_disableEnabled subscriber subscriber (nodesAt manager.callbacks k) with
          hsame | ⟨-, hcases⟩
        · exact origin_of_same changes enables hsame h
        · rcases hcases node hnode with hold | ⟨hflag, before, hbefore, henabled⟩
          · exact .kept changes enables (nodeToEnable_eq_some.mpr ⟨hold, hdisabled⟩)
          · refine .reset changes hflag (.inr (Option.eq_none_iff_forall_ne_some.mpr ?_))
            intro other hother
            obtain ⟨hfirst, hoff⟩ := nodeToEnable_eq_some.mp hother
            obtain rfl := Option.some_inj.mp (hbefore.symm.trans hfirst)
            exact absurd (henabled.symm.trans hoff) (by simp)
      · exact .kept changes enables h
  · have hsame := (firstNode_disableEnabled s subscriber (nodesAt manager.callbacks k)).resolve_right
      fun h => hs h.1
    refine origin_of_same changes enables ?_ h
    split
    · exact ((firstNode_enableFirst _).trans (if_neg hs)).trans hsame
    · split
      · exact hsame
      · rfl

theorem origin_of_emit {changeNode : PublishedDataChangeNode δ} {node : ObserverNode ℕ ℕ}
    (h : nodeToEnable s (nodesAt (emit changeNode manager).1.callbacks k) = some node) :
    Origin k s (.emit changeNode) (nodeToEnable s (nodesAt manager.callbacks k)) node := by
  have enables : ¬ Enables s k (.emit changeNode) := by simp [Enables]
  unfold emit at h
  dsimp only at h
  rw [nodesAt_emitItems] at h
  split at h
  · next hkeys =>
    obtain ⟨hnode, hdisabled⟩ := nodeToEnable_eq_some.mp h
    change firstNode s _ = _ at hnode
    unfold setDisabledNotifiedOn at hnode
    rw [firstNode_map fun node => by split <;> rfl] at hnode
    obtain ⟨before, -, rfl⟩ := Option.map_eq_some_iff.mp hnode
    refine .missed ⟨changeNode, rfl, hkeys⟩ ?_
    split
    · next henabled =>
      rw [if_pos henabled] at hdisabled
      exact absurd (henabled.symm.trans hdisabled) (by simp)
    · rfl
  · next hkeys =>
    refine .kept ?_ enables h
    rintro ⟨change, heq, hmentions⟩
    obtain rfl := SubscriberCall.emit.inj heq
    exact hkeys hmentions

theorem origin_of_outcome {node : ObserverNode ℕ ℕ} (x : PublishedExchange δ)
    (h : nodeToEnable s (nodesAt (x.outcome cls manager).manager.callbacks k) = some node) :
    Origin k s x.call (nodeToEnable s (nodesAt manager.callbacks k)) node := by
  obtain ⟨call, answer⟩ := x
  cases call with
  | addObservers subscriber uris subscriberId => exact origin_of_addObservers h
  | delObservers subscriber uris subscriberId =>
    obtain ⟨order, keys, hdel⟩ := delObservers_eq_delKeys cls manager subscriber uris subscriberId
      answer
    exact origin_of_delKeys hdel.symm (by simp [Changes]) (by simp [Enables]) h
  | delAllObservers subscriber =>
    have hdel : manager.delKeys (cls (δ := δ)).unsubscribeOrder manager.callbacks.keys subscriber
        answer = SubscriberManager.delAllObservers cls subscriber answer manager := rfl
    exact origin_of_delKeys hdel (by simp [Changes]) (by simp [Enables]) h
  | enableObservers subscriber uris subscriberId => exact origin_of_enableObservers h
  | disableObservers subscriber uris subscriberId => exact origin_of_disableObservers h
  | emit changeNode => exact origin_of_emit h

theorem managerAfter_concat (calls : List (PublishedExchange δ)) (x : PublishedExchange δ) :
    managerAfter (calls ++ [x]) = (x.outcome cls (managerAfter calls)).manager :=
  SubscriberExchange.managerAfter_concat cls calls x

/-- The flag of the node to enable says whether a change was missed, in every run. -/
theorem flag_iff_missed {node : ObserverNode ℕ ℕ}
    (h : nodeToEnable s (nodesAt (managerAfter calls).callbacks k) = some node) :
    node.isNotifyOnEnabled = true ↔ Missed k s calls := by
  induction calls using List.reverseRecOn generalizing node with
  | nil => exact absurd h (by simp [managerAfter, SubscriberExchange.managerAfter,
      SubscriberManager.new, nodesAt, nodeToEnable])
  | append_singleton calls x ih =>
    have hdisabled : FirstDisabled s (nodesAt (managerAfter (calls ++ [x])).callbacks k) :=
      ⟨node, nodeToEnable_eq_some.mp h⟩
    have hrecursion : Missed k s (calls ++ [x]) ↔
        ¬ Enables s k x.call ∧ (Changes k x.call ∨ Missed k s calls) := by
      unfold Missed
      rw [since_concat]
      simp [hdisabled]
    rw [managerAfter_concat] at h
    rw [hrecursion]
    rcases origin_of_outcome x h with ⟨changes, flag⟩ | ⟨changes, flag, enabled⟩ |
      ⟨changes, enables, same⟩
    · have enables : ¬ Enables s k x.call := by
        rintro ⟨uris, subscriberId, heq, -⟩
        obtain ⟨changeNode, heq', -⟩ := changes
        exact absurd (heq.symm.trans heq') (by simp)
      exact iff_of_true flag ⟨enables, .inl changes⟩
    · refine iff_of_false (by simp [flag]) ?_
      rintro ⟨hnot, hchanges | hmissed⟩
      · exact changes hchanges
      · obtain ⟨before, hbefore⟩ := hmissed.now.1
        rw [nodeToEnable_eq_some.mpr hbefore] at enabled
        exact enabled.elim hnot (by simp)
    · rw [ih same]
      simp [changes, enables]

end PublishedDataSubscriberManager

end Cpp

end DataShare
