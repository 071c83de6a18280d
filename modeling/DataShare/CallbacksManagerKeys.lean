import DataShare.CallbacksManager
import DataShare.KeyedLoop

/-!
# The callbacks manager at one key

The loops of the callbacks manager in closed form : what each does to the observer nodes
of a key `k` (`nodesAt`), and for which `k` it asks for a service call. Keys count as one
key when the order of the map does not separate them.

Whether a key has an enabled observer (`enabledObservers` is not empty) is the only test
of the nodes the loops make, besides whether any are left.
-/

namespace DataShare

/-! ## Nodes of one key -/

section Nodes

variable {σ ω : Type} {subscriber : σ} {nodes nodes' : List (ObserverNode σ ω)}

/-- Some node is enabled, with an observer to call. -/
def HasEnabled (nodes : List (ObserverNode σ ω)) : Prop :=
  enabledObservers nodes ≠ []

instance (nodes : List (ObserverNode σ ω)) : Decidable (HasEnabled nodes) :=
  decidable_of_iff ((enabledObservers nodes).isEmpty = false) (by simp [HasEnabled])

theorem hasEnabled_iff : HasEnabled nodes ↔
    ∃ node ∈ nodes, node.enabled = true ∧ node.observer.isSome = true := by
  unfold HasEnabled enabledObservers
  rw [ne_eq, List.filterMap_eq_nil_iff]
  push Not
  refine exists_congr fun node => and_congr_right fun _ => ?_
  cases node.enabled <;> simp [Option.isSome_iff_ne_none]

theorem HasEnabled.ne_nil (h : HasEnabled nodes) : nodes ≠ [] := by
  rintro rfl
  exact h rfl

theorem HasEnabled.mono (h : HasEnabled nodes) (hsub : nodes ⊆ nodes') : HasEnabled nodes' := by
  obtain ⟨node, hmem, henabled, hobs⟩ := hasEnabled_iff.mp h
  exact hasEnabled_iff.mpr ⟨node, hsub hmem, henabled, hobs⟩

variable [DecidableEq σ]

theorem eraseSubscriber_subset : eraseSubscriber subscriber nodes ⊆ nodes :=
  fun _ h => List.mem_of_mem_filter h

theorem eraseSubscriber_idem :
    eraseSubscriber subscriber (eraseSubscriber subscriber nodes) =
      eraseSubscriber subscriber nodes := by
  simp [eraseSubscriber]

/-- Erasing undoes the registrations of the subscriber, and more. -/
theorem eraseSubscriber_append_replicate (observer : Option ω) (n : ℕ) :
    eraseSubscriber subscriber (nodes ++ List.replicate n (ObserverNode.new observer subscriber)) =
      eraseSubscriber subscriber nodes := by
  simp [eraseSubscriber, ObserverNode.new]

theorem map_observer_enableFirst : ∀ nodes : List (ObserverNode σ ω),
    (enableFirst subscriber nodes).map ObserverNode.observer = nodes.map ObserverNode.observer
  | [] => rfl
  | node :: nodes => by
    rw [enableFirst]
    split
    · rfl
    · rw [List.map_cons, List.map_cons, map_observer_enableFirst nodes]

theorem enableFirst_eq_nil : enableFirst subscriber nodes = [] ↔ nodes = [] := by
  rw [← List.map_eq_nil_iff, map_observer_enableFirst, List.map_eq_nil_iff]

theorem enableFirst_idem : ∀ nodes : List (ObserverNode σ ω),
    enableFirst subscriber (enableFirst subscriber nodes) = enableFirst subscriber nodes
  | [] => rfl
  | node :: nodes => by
    rw [enableFirst]
    split
    · next h => simp [enableFirst, h]
    · next h => rw [enableFirst, if_neg h, enableFirst_idem nodes]

/-- What `EnableObservers` looks for : the first node of the subscriber is disabled. -/
def FirstDisabled (subscriber : σ) (nodes : List (ObserverNode σ ω)) : Prop :=
  ∃ node, nodes.find? (fun node => node.subscriber = subscriber) = some node ∧
    node.enabled = false

/-- Otherwise enabling changes nothing. -/
theorem enableFirst_of_not_firstDisabled : ∀ {nodes : List (ObserverNode σ ω)},
    ¬ FirstDisabled subscriber nodes → enableFirst subscriber nodes = nodes
  | [], _ => rfl
  | node :: nodes, h => by
    rw [enableFirst]
    by_cases hs : node.subscriber = subscriber
    · have henabled : node.enabled = true := by
        by_contra he
        exact h ⟨node, by simp [hs], by simpa using he⟩
      rw [if_pos hs, ← henabled]
    · rw [if_neg hs, enableFirst_of_not_firstDisabled]
      rintro ⟨first, hfind, hfirst⟩
      exact h ⟨first, by simpa [hs] using hfind, hfirst⟩

theorem not_firstDisabled_enableFirst : ∀ nodes : List (ObserverNode σ ω),
    ¬ FirstDisabled subscriber (enableFirst subscriber nodes)
  | [] => by simp [FirstDisabled, enableFirst]
  | node :: nodes => by
    rintro ⟨first, hfind, hfirst⟩
    rw [enableFirst] at hfind
    by_cases hs : node.subscriber = subscriber
    · simp [hs] at hfind
      simp [← hfind] at hfirst
    · simp [hs] at hfind
      exact not_firstDisabled_enableFirst nodes ⟨first, by simpa using hfind, hfirst⟩

theorem HasEnabled.enableFirst : ∀ {nodes : List (ObserverNode σ ω)}, HasEnabled nodes →
    HasEnabled (enableFirst subscriber nodes)
  | [], h => h
  | node :: nodes, h => by
    rw [DataShare.enableFirst]
    obtain ⟨first, hmem, henabled, hobs⟩ := hasEnabled_iff.mp h
    split
    · rcases List.mem_cons.mp hmem with rfl | hmem
      · exact hasEnabled_iff.mpr ⟨_, List.mem_cons_self, rfl, hobs⟩
      · exact hasEnabled_iff.mpr ⟨first, List.mem_cons_of_mem _ hmem, henabled, hobs⟩
    · rcases List.mem_cons.mp hmem with rfl | hmem
      · exact hasEnabled_iff.mpr ⟨_, List.mem_cons_self, henabled, hobs⟩
      · have hrest : HasEnabled nodes := hasEnabled_iff.mpr ⟨first, hmem, henabled, hobs⟩
        exact hrest.enableFirst.mono (List.subset_cons_self _ _)

/-- With observers to call, the enabled node is one. -/
theorem hasEnabled_enableFirst : ∀ {nodes : List (ObserverNode σ ω)},
    (∀ node ∈ nodes, node.observer.isSome = true) → FirstDisabled subscriber nodes →
    HasEnabled (enableFirst subscriber nodes)
  | [], _, h => by simp [FirstDisabled] at h
  | node :: nodes, hobs, h => by
    rw [enableFirst]
    by_cases hs : node.subscriber = subscriber
    · rw [if_pos hs]
      exact hasEnabled_iff.mpr ⟨_, List.mem_cons_self, rfl, hobs node List.mem_cons_self⟩
    · obtain ⟨first, hfind, hfirst⟩ := h
      have hrest : FirstDisabled subscriber nodes := ⟨first, by simpa [hs] using hfind, hfirst⟩
      rw [if_neg hs]
      exact (hasEnabled_enableFirst (fun n hn => hobs n (List.mem_cons_of_mem _ hn)) hrest).mono
        (List.subset_cons_self _ _)

theorem map_observer_disableSubscriber :
    (disableSubscriber subscriber nodes).map ObserverNode.observer =
      nodes.map ObserverNode.observer := by
  unfold disableSubscriber
  rw [List.map_map]
  refine List.map_congr_left fun node _ => ?_
  rw [Function.comp_apply]
  split <;> rfl

theorem disableSubscriber_eq_nil : disableSubscriber subscriber nodes = [] ↔ nodes = [] :=
  List.map_eq_nil_iff

theorem disableSubscriber_idem :
    disableSubscriber subscriber (disableSubscriber subscriber nodes) =
      disableSubscriber subscriber nodes := by
  unfold disableSubscriber
  rw [List.map_map]
  refine List.map_congr_left fun node _ => ?_
  rw [Function.comp_apply]
  by_cases h : node.subscriber = subscriber ∧ node.enabled = true
  · simp [h]
  · rw [if_neg h, if_neg h]

theorem disableSubscriber_of_forall_ne (h : ∀ node ∈ nodes, node.subscriber ≠ subscriber) :
    disableSubscriber subscriber nodes = nodes := by
  unfold disableSubscriber
  refine (List.map_congr_left fun node hn => ?_).trans (List.map_id nodes)
  rw [if_neg fun hs => h node hn hs.1, id]

/-- `DisableObservers` works on a key with an enabled observer only. -/
def disableEnabled (subscriber : σ) (nodes : List (ObserverNode σ ω)) : List (ObserverNode σ ω) :=
  if HasEnabled nodes then disableSubscriber subscriber nodes else nodes

theorem disableEnabled_idem (nodes : List (ObserverNode σ ω)) :
    disableEnabled subscriber (disableEnabled subscriber nodes) =
      disableEnabled subscriber nodes := by
  by_cases h : HasEnabled nodes
  · have h1 : disableEnabled subscriber nodes = disableSubscriber subscriber nodes := if_pos h
    rw [h1, disableEnabled, disableSubscriber_idem, ite_self]
  · have h1 : disableEnabled subscriber nodes = nodes := if_neg h
    rw [h1, h1]

theorem disableEnabled_eq_nil : disableEnabled subscriber nodes = [] ↔ nodes = [] := by
  unfold disableEnabled
  split
  · exact disableSubscriber_eq_nil
  · rfl

/-- Disabling takes the last enabled observer of the key. -/
def LastEnabled (subscriber : σ) (nodes : List (ObserverNode σ ω)) : Prop :=
  HasEnabled nodes ∧ ¬ HasEnabled (disableSubscriber subscriber nodes)

instance (subscriber : σ) (nodes : List (ObserverNode σ ω)) :
    Decidable (LastEnabled subscriber nodes) :=
  inferInstanceAs (Decidable (HasEnabled nodes ∧ ¬ HasEnabled _))

theorem not_lastEnabled_disableEnabled :
    ¬ LastEnabled subscriber (disableEnabled subscriber nodes) := by
  rintro ⟨h, h'⟩
  by_cases hn : HasEnabled nodes
  · rw [disableEnabled, if_pos hn] at h h'
    rw [disableSubscriber_idem] at h'
    exact h' h
  · rw [disableEnabled, if_neg hn] at h
    exact hn h

theorem mem_of_mem_enableFirst {node : ObserverNode σ ω} (hs : node.subscriber ≠ subscriber) :
    ∀ {nodes : List (ObserverNode σ ω)}, node ∈ enableFirst subscriber nodes → node ∈ nodes
  | [], h => h
  | first :: nodes, h => by
    rw [enableFirst] at h
    split at h
    · next hf =>
      rcases List.mem_cons.mp h with rfl | h
      · exact absurd hf hs
      · exact List.mem_cons_of_mem _ h
    · rcases List.mem_cons.mp h with rfl | h
      · exact List.mem_cons_self
      · exact List.mem_cons_of_mem _ (mem_of_mem_enableFirst hs h)

/-- Of a key without an enabled observer, disabling takes back what enabling did. -/
theorem not_hasEnabled_disableEnabled (h : ¬ HasEnabled nodes) :
    ¬ HasEnabled (disableEnabled subscriber (enableFirst subscriber nodes)) := by
  unfold disableEnabled
  split
  · intro h'
    obtain ⟨node, hmem, henabled, hobs⟩ := hasEnabled_iff.mp h'
    obtain ⟨item, hitem, rfl⟩ := List.mem_map.mp hmem
    split at henabled
    · exact Bool.false_ne_true henabled
    · next hs =>
      rw [if_neg hs] at hobs
      have hne : item.subscriber ≠ subscriber := fun heq => hs ⟨heq, henabled⟩
      exact h (hasEnabled_iff.mpr ⟨item, mem_of_mem_enableFirst hne hitem, henabled, hobs⟩)
  · next hx => exact hx

end Nodes

namespace CallbacksManager

variable {κ σ ω : Type} [Ord κ]

omit [Ord κ] in
/-- A service that accepts everything refuses no key. -/
theorem failedKeys_of_accepted {kind : RequestKind} {keys : List κ} {answer : ℕ → Answer}
    (h : ∀ i, (answer i).accepted = true) : failedKeys (sendRequests kind keys answer) = [] := by
  unfold failedKeys
  rw [List.map_eq_nil_iff, List.filter_eq_nil_iff]
  intro request hrequest
  obtain ⟨i, hi, rfl⟩ := List.mem_mapIdx.mp hrequest
  have hreplied : answer i = .replied errOk := by simpa [Answer.accepted] using h i
  simp [hreplied, Answer.refused]

/-- The nodes registered for `k`. -/
def nodesAt (callbacks : Callbacks κ σ ω) (k : κ) : List (ObserverNode σ ω) :=
  (callbacks.find? k).getD []

theorem getEnabledObservers_eq (callbacks : Callbacks κ σ ω) (k : κ) :
    getEnabledObservers callbacks k = enabledObservers (nodesAt callbacks k) := by
  unfold getEnabledObservers nodesAt
  cases callbacks.find? k <;> rfl

theorem isEmpty_getEnabledObservers {callbacks : Callbacks κ σ ω} {k : κ} :
    (getEnabledObservers callbacks k).isEmpty = true ↔ ¬ HasEnabled (nodesAt callbacks k) := by
  rw [getEnabledObservers_eq, HasEnabled, not_not, List.isEmpty_iff]

theorem nodesAt_of_find? {callbacks : Callbacks κ σ ω} {k : κ} {nodes : List (ObserverNode σ ω)}
    (h : callbacks.find? k = some nodes) :
    nodesAt callbacks k = nodes := by
  rw [nodesAt, h, Option.getD_some]

theorem mentions_keys_of_ne_nil {callbacks : Callbacks κ σ ω} {k : κ}
    (h : nodesAt callbacks k ≠ []) : Mentions k callbacks.keys := by
  refine OrderedMap.isSome_find?_iff.mp ?_
  unfold nodesAt at h
  cases hfind : callbacks.find? k with
  | none => simp [hfind] at h
  | some nodes => rfl

variable [Std.TransOrd κ]

theorem nodesAt_congr {k key : κ} (h : compare k key = .eq) (callbacks : Callbacks κ σ ω) :
    nodesAt callbacks key = nodesAt callbacks k := by
  unfold nodesAt
  rw [OrderedMap.find?_congr h]

theorem nodesAt_assign (callbacks : Callbacks κ σ ω) (key k : κ) (nodes : List (ObserverNode σ ω)) :
    nodesAt (callbacks.assign key nodes) k =
      if compare k key = .eq then nodes else nodesAt callbacks k := by
  unfold nodesAt
  rw [OrderedMap.find?_assign]
  split <;> rfl

theorem nodesAt_erase (callbacks : Callbacks κ σ ω) (key k : κ) :
    nodesAt (callbacks.erase key) k =
      if compare k key = .eq then [] else nodesAt callbacks k := by
  unfold nodesAt
  rw [OrderedMap.find?_erase]
  split <;> rfl

theorem nodesAt_emplaceBack (callbacks : Callbacks κ σ ω) (key k : κ) (node : ObserverNode σ ω) :
    nodesAt (emplaceBack callbacks key node) k =
      if compare k key = .eq then nodesAt callbacks k ++ [node] else nodesAt callbacks k := by
  unfold emplaceBack nodesAt
  rw [OrderedMap.find?_upsert]
  split
  · next h => rw [Option.getD_some, OrderedMap.find?_congr h]
  · rfl

/-! ## The loops in closed form -/

section Loops

variable {k : κ} {keys : List κ} {subscriber : σ} {observer : Option ω}
  {callbacks : Callbacks κ σ ω}

theorem iterate_append_singleton {α : Type} (a : α) (l : List α) :
    ∀ n, (fun l : List α => l ++ [a])^[n] l = l ++ List.replicate n a
  | 0 => (List.append_nil l).symm
  | n + 1 => by
    rw [Function.iterate_succ_apply', iterate_append_singleton a l n, List.append_assoc,
      ← List.replicate_succ']

theorem addObserver_turnAt : TurnAt k (addObserver subscriber observer)
    (fun acc => nodesAt acc.callbacks k)
    fun nodes => nodes ++ [ObserverNode.new observer subscriber] := by
  intro acc key
  rw [← nodesAt_emplaceBack]
  unfold addObserver
  split <;> rfl

theorem addObserver_collectsAt : CollectsAt k (addObserver subscriber observer)
    (fun acc => nodesAt acc.callbacks k) Added.firstRegisterKey fun nodes => ¬ HasEnabled nodes := by
  intro acc key
  unfold addObserver
  by_cases h : (getEnabledObservers acc.callbacks key).isEmpty = true
  · rw [if_pos h, mentions_append, mentions_cons]
    rw [isEmpty_getEnabledObservers] at h
    have hk : compare k key = .eq → ¬ HasEnabled (nodesAt acc.callbacks k) := fun hk => by
      rwa [← nodesAt_congr hk]
    simp only [not_mentions_nil, or_false]
    tauto
  · rw [if_neg h]
    rw [isEmpty_getEnabledObservers, not_not] at h
    have hk : compare k key = .eq → HasEnabled (nodesAt acc.callbacks k) := fun hk => by
      rwa [← nodesAt_congr hk]
    tauto

theorem nodesAt_addLocal : nodesAt (addLocal keys subscriber observer callbacks).callbacks k =
    nodesAt callbacks k ++
      List.replicate (mentionCount k keys) (ObserverNode.new observer subscriber) := by
  unfold addLocal
  rw [addObserver_turnAt.foldl keys, iterate_append_singleton]

theorem mentions_firstRegisterKey :
    Mentions k (addLocal keys subscriber observer callbacks).firstRegisterKey ↔
      Mentions k keys ∧ ¬ HasEnabled (nodesAt callbacks k) := by
  unfold addLocal
  rw [addObserver_collectsAt.foldl addObserver_turnAt
    fun nodes h h' => h (h'.mono (List.subset_append_left _ _))]
  simp

theorem nodesAt_addLocalProxyData :
    nodesAt (addLocalProxyData keys subscriber observer callbacks) k =
      nodesAt callbacks k ++
        List.replicate (mentionCount k keys) (ObserverNode.new observer subscriber) := by
  have hturn : TurnAt k
      (fun callbacks key => emplaceBack callbacks key (ObserverNode.new observer subscriber))
      (fun callbacks : Callbacks κ σ ω => nodesAt callbacks k)
      fun nodes => nodes ++ [ObserverNode.new observer subscriber] := fun acc key =>
    nodesAt_emplaceBack acc key k _
  unfold addLocalProxyData
  rw [hturn.foldl keys, iterate_append_singleton]

theorem nodesAt_eraseKeys (erased : List κ) : nodesAt (eraseKeys erased callbacks) k =
    if Mentions k erased then [] else nodesAt callbacks k := by
  have hturn : TurnAt k (fun callbacks key => callbacks.erase key)
      (fun callbacks : Callbacks κ σ ω => nodesAt callbacks k) fun _ => [] := fun acc key =>
    nodesAt_erase acc key k
  exact hturn.foldl_of_idempotent (fun _ => rfl) erased callbacks

variable [DecidableEq σ]

theorem delLocalObservers_turnAt (codes : DelCodes) :
    TurnAt k (delLocalObservers codes subscriber) (fun acc : Deleted κ σ ω => acc.callbacks.find? k)
      (Option.map (eraseSubscriber subscriber)) := by
  intro acc key
  unfold delLocalObservers
  cases hfind : acc.callbacks.find? key with
  | none =>
    show acc.callbacks.find? k = if _ then (acc.callbacks.find? k).map _ else acc.callbacks.find? k
    split
    · next hk => rw [OrderedMap.find?_congr hk, hfind, Option.map_none]
    · rfl
  | some nodes =>
    have hassign : (acc.callbacks.assign key (eraseSubscriber subscriber nodes)).find? k =
        if compare k key = .eq then (acc.callbacks.find? k).map (eraseSubscriber subscriber)
        else acc.callbacks.find? k := by
      rw [OrderedMap.find?_assign]
      split
      · next hk => rw [OrderedMap.find?_congr hk, hfind, Option.map_some]
      · rfl
    refine Eq.trans ?_ hassign
    dsimp only
    split <;> rfl

theorem delLocalObservers_collectsAt (codes : DelCodes) :
    CollectsAt k (delLocalObservers codes subscriber)
      (fun acc : Deleted κ σ ω => acc.callbacks.find? k) Deleted.lastDelKeys
      fun found => ∃ nodes, found = some nodes ∧ eraseSubscriber subscriber nodes = [] := by
  intro acc key
  unfold delLocalObservers
  have hk : compare k key = .eq → acc.callbacks.find? k = acc.callbacks.find? key := fun hk =>
    OrderedMap.find?_congr hk _
  cases hfind : acc.callbacks.find? key with
  | none =>
    rw [hfind] at hk
    refine (or_iff_left ?_).symm
    rintro ⟨heq, nodes, hsome, -⟩
    exact absurd ((hk heq).symm.trans hsome) (by simp)
  | some nodes =>
    rw [hfind] at hk
    by_cases hleft : eraseSubscriber subscriber nodes = []
    · have hc : compare k key = .eq → ∃ nodes', acc.callbacks.find? k = some nodes' ∧
          eraseSubscriber subscriber nodes' = [] := fun heq => ⟨nodes, hk heq, hleft⟩
      simp only [hleft, List.isEmpty_nil, if_true, mentions_append, mentions_cons, not_mentions_nil,
        or_false]
      tauto
    · have hc : compare k key = .eq → ¬ ∃ nodes', acc.callbacks.find? k = some nodes' ∧
          eraseSubscriber subscriber nodes' = [] := by
        rintro heq ⟨nodes', hsome, hnil⟩
        obtain rfl := Option.some_inj.mp ((hk heq).symm.trans hsome)
        exact hleft hnil
      simp only [List.isEmpty_iff, hleft, if_false]
      exact (or_iff_left fun h => hc h.1 h.2).symm

theorem mentions_lastDelKeys {codes : DelCodes} :
    Mentions k (delLocal codes keys subscriber callbacks).lastDelKeys ↔
      Mentions k keys ∧ ∃ nodes, callbacks.find? k = some nodes ∧
        eraseSubscriber subscriber nodes = [] := by
  have hback : ∀ found : Option (List (ObserverNode σ ω)),
      (∃ nodes, found.map (eraseSubscriber subscriber) = some nodes ∧
        eraseSubscriber subscriber nodes = []) →
      ∃ nodes, found = some nodes ∧ eraseSubscriber subscriber nodes = [] := by
    rintro found ⟨nodes, hmap, hnil⟩
    obtain ⟨nodes', rfl, rfl⟩ := Option.map_eq_some_iff.mp hmap
    exact ⟨nodes', rfl, by rwa [eraseSubscriber_idem] at hnil⟩
  unfold delLocal
  rw [(delLocalObservers_collectsAt codes).foldl (delLocalObservers_turnAt codes) hback]
  simp

theorem nodesAt_delLocal {codes : DelCodes} :
    nodesAt (delLocal codes keys subscriber callbacks).callbacks k =
      if Mentions k keys then eraseSubscriber subscriber (nodesAt callbacks k)
      else nodesAt callbacks k := by
  have hidem : ∀ found : Option (List (ObserverNode σ ω)),
      (found.map (eraseSubscriber subscriber)).map (eraseSubscriber subscriber) =
        found.map (eraseSubscriber subscriber) := fun found => by
    cases found with
    | none => rfl
    | some nodes => rw [Option.map_some, Option.map_some, eraseSubscriber_idem]
  have hloop := (delLocalObservers_turnAt codes).foldl_of_idempotent (k := k) hidem keys
    ⟨callbacks, [], []⟩
  have hnodes : nodesAt
      (keys.foldl (delLocalObservers codes subscriber) ⟨callbacks, [], []⟩).callbacks k =
        if Mentions k keys then eraseSubscriber subscriber (nodesAt callbacks k)
        else nodesAt callbacks k := by
    unfold nodesAt
    rw [hloop]
    split
    · cases callbacks.find? k <;> rfl
    · rfl
  have hdef : nodesAt (delLocal codes keys subscriber callbacks).callbacks k =
      if Mentions k (delLocal codes keys subscriber callbacks).lastDelKeys then []
      else nodesAt (keys.foldl (delLocalObservers codes subscriber) ⟨callbacks, [], []⟩).callbacks k :=
    nodesAt_eraseKeys _
  rw [hdef, hnodes]
  by_cases hlast : Mentions k (delLocal codes keys subscriber callbacks).lastDelKeys
  · obtain ⟨hkeys, nodes, hfind, hnil⟩ := mentions_lastDelKeys.mp hlast
    rw [if_pos hlast, if_pos hkeys, nodesAt, hfind, Option.getD_some, hnil]
  · rw [if_neg hlast]

/-- A key with observers is collected exactly when the loop takes the last of them. -/
theorem mentions_lastDelKeys_of_ne_nil {codes : DelCodes} (h : nodesAt callbacks k ≠ []) :
    Mentions k (delLocal codes keys subscriber callbacks).lastDelKeys ↔
      Mentions k keys ∧ eraseSubscriber subscriber (nodesAt callbacks k) = [] := by
  rw [mentions_lastDelKeys]
  refine and_congr_right fun _ => ?_
  unfold nodesAt at h ⊢
  cases hfind : callbacks.find? k with
  | none => simp [hfind] at h
  | some nodes => simp

/-- A turn enables the subscriber's first node if it is disabled, and asks for a service
call if no observer of the key was enabled. -/
theorem enableObserver_cases (subscriber : σ) (acc : Enabled κ σ ω) (key : κ) :
    (¬ FirstDisabled subscriber (nodesAt acc.callbacks key) ∧
      (enableObserver subscriber acc key).callbacks = acc.callbacks ∧
      (enableObserver subscriber acc key).sendServiceKeys = acc.sendServiceKeys) ∨
    (FirstDisabled subscriber (nodesAt acc.callbacks key) ∧
      (enableObserver subscriber acc key).callbacks =
        acc.callbacks.assign key (enableFirst subscriber (nodesAt acc.callbacks key)) ∧
      (enableObserver subscriber acc key).sendServiceKeys =
        if HasEnabled (nodesAt acc.callbacks key) then acc.sendServiceKeys
        else acc.sendServiceKeys ++ [key]) := by
  unfold enableObserver
  cases hfind : acc.callbacks.find? key with
  | none =>
    refine .inl ⟨?_, rfl, rfl⟩
    rw [nodesAt, hfind]
    simp [FirstDisabled]
  | some nodes =>
    rw [nodesAt_of_find? hfind]
    dsimp only
    cases hfirst : nodes.find? fun node => node.subscriber = subscriber with
    | none =>
      refine .inl ⟨?_, rfl, rfl⟩
      rintro ⟨node, hnode, -⟩
      exact absurd (hfirst.symm.trans hnode) (by simp)
    | some node =>
      dsimp only
      by_cases henabled : node.enabled = true
      · rw [if_pos henabled]
        refine .inl ⟨?_, rfl, rfl⟩
        rintro ⟨node', hnode, hdis⟩
        obtain rfl := Option.some_inj.mp (hfirst.symm.trans hnode)
        rw [henabled] at hdis
        exact Bool.false_ne_true hdis.symm
      · rw [if_neg henabled]
        refine .inr ⟨⟨node, hfirst, by simpa using henabled⟩, rfl, ?_⟩
        dsimp only
        simp only [isEmpty_getEnabledObservers, nodesAt_of_find? hfind, ite_not]

theorem enableObserver_turnAt (subscriber : σ) : TurnAt k (enableObserver subscriber)
    (fun acc : Enabled κ σ ω => nodesAt acc.callbacks k) (enableFirst subscriber) := by
  intro acc key
  dsimp only
  rcases enableObserver_cases subscriber acc key with ⟨hn, hcb, -⟩ | ⟨-, hcb, -⟩
  · rw [hcb]
    split
    · next hk =>
      rw [nodesAt_congr hk] at hn
      rw [enableFirst_of_not_firstDisabled hn]
    · rfl
  · rw [hcb, nodesAt_assign]
    split
    · next hk => rw [nodesAt_congr hk]
    · rfl

theorem enableObserver_collectsAt : CollectsAt k (enableObserver subscriber)
    (fun acc : Enabled κ σ ω => nodesAt acc.callbacks k) Enabled.sendServiceKeys
    fun nodes => FirstDisabled subscriber nodes ∧ ¬ HasEnabled nodes := by
  intro acc key
  have hk : compare k key = .eq → nodesAt acc.callbacks key = nodesAt acc.callbacks k := fun hk =>
    nodesAt_congr hk _
  rcases enableObserver_cases subscriber acc key with
    ⟨hn, -, hsend⟩ | ⟨hf, -, hsend⟩
  · rw [hsend]
    refine (or_iff_left ?_).symm
    rintro ⟨heq, hf, -⟩
    exact hn ((hk heq).symm ▸ hf)
  · rw [hsend]
    by_cases hE : HasEnabled (nodesAt acc.callbacks key)
    · rw [if_pos hE]
      refine (or_iff_left ?_).symm
      rintro ⟨heq, -, hn⟩
      have hn' : ¬ HasEnabled (nodesAt acc.callbacks k) := hn
      rw [← hk heq] at hn'
      exact hn' hE
    · rw [if_neg hE, mentions_append, mentions_cons]
      have heq : compare k key = .eq → FirstDisabled subscriber (nodesAt acc.callbacks k) ∧
          ¬ HasEnabled (nodesAt acc.callbacks k) := fun heq => by
        rw [← hk heq]
        exact ⟨hf, hE⟩
      simp only [not_mentions_nil, or_false]
      exact or_congr_right ⟨fun h => ⟨h, heq h⟩, And.left⟩

theorem nodesAt_enableLocal : nodesAt (enableLocal keys subscriber callbacks).callbacks k =
    if Mentions k keys then enableFirst subscriber (nodesAt callbacks k)
    else nodesAt callbacks k :=
  (enableObserver_turnAt subscriber).foldl_of_idempotent enableFirst_idem keys _

/-- The node a turn enables : the first one of the subscriber, if it is disabled. -/
def nodeToEnable (subscriber : σ) (nodes : List (ObserverNode σ ω)) : Option (ObserverNode σ ω) :=
  (nodes.find? fun node => node.subscriber = subscriber).filter fun node => !node.enabled

theorem nodeToEnable_eq_some {nodes : List (ObserverNode σ ω)} {node : ObserverNode σ ω} :
    nodeToEnable subscriber nodes = some node ↔
      nodes.find? (fun node => node.subscriber = subscriber) = some node ∧ node.enabled = false := by
  rw [nodeToEnable, Option.filter_eq_some_iff, Bool.not_eq_true']

theorem nodeToEnable_enableFirst (nodes : List (ObserverNode σ ω)) :
    nodeToEnable subscriber (enableFirst subscriber nodes) = none := by
  by_contra hsome
  obtain ⟨node, hnode⟩ := Option.ne_none_iff_exists'.mp hsome
  exact not_firstDisabled_enableFirst nodes ⟨node, nodeToEnable_eq_some.mp hnode⟩

/-- A turn notes the node it enables, with its flag. -/
theorem refreshObservers_enableObserver (subscriber : σ) (acc : Enabled κ σ ω) (key : κ) :
    (enableObserver subscriber acc key).refreshObservers =
      (nodeToEnable subscriber (nodesAt acc.callbacks key)).elim acc.refreshObservers fun node =>
        acc.refreshObservers.upsert key fun old =>
          old.getD [] ++ [(node.observer, node.isNotifyOnEnabled)] := by
  unfold enableObserver nodeToEnable
  cases hfind : acc.callbacks.find? key with
  | none =>
    rw [nodesAt, hfind]
    rfl
  | some nodes =>
    rw [nodesAt_of_find? hfind]
    dsimp only
    cases hfirst : nodes.find? fun node => node.subscriber = subscriber with
    | none => rfl
    | some node =>
      dsimp only
      by_cases henabled : node.enabled = true
      · rw [if_pos henabled, Option.filter_some_neg (by simp [henabled])]
        rfl
      · rw [if_neg henabled, Option.filter_some_pos (by simpa using henabled)]
        rfl

theorem enableObserver_refresh_turnAt (subscriber : σ) : TurnAt k (enableObserver subscriber)
    (fun acc : Enabled κ σ ω => (nodesAt acc.callbacks k, acc.refreshObservers.find? k))
    fun view => (enableFirst subscriber view.1, (nodeToEnable subscriber view.1).elim view.2
      fun node => some (view.2.getD [] ++ [(node.observer, node.isNotifyOnEnabled)])) := by
  intro acc key
  have hnodes := enableObserver_turnAt subscriber acc key (k := k)
  dsimp only at hnodes ⊢
  rw [hnodes, refreshObservers_enableObserver]
  by_cases hk : compare k key = .eq
  · rw [if_pos hk, if_pos hk, nodesAt_congr hk]
    refine Prod.ext rfl ?_
    dsimp only
    cases nodeToEnable subscriber (nodesAt acc.callbacks k) with
    | none => rfl
    | some node =>
      rw [Option.elim_some, Option.elim_some, OrderedMap.find?_upsert, if_pos hk,
        OrderedMap.find?_congr hk]
  · rw [if_neg hk, if_neg hk]
    refine Prod.ext rfl ?_
    dsimp only
    cases nodeToEnable subscriber (nodesAt acc.callbacks key) with
    | none => rfl
    | some node => rw [Option.elim_some, OrderedMap.find?_upsert, if_neg hk]

/-- The observers noted for a key : that of the first node of the subscriber. -/
theorem find?_refreshObservers :
    (enableLocal keys subscriber callbacks).refreshObservers.find? k =
      if Mentions k keys then (nodeToEnable subscriber (nodesAt callbacks k)).map fun node =>
        [(node.observer, node.isNotifyOnEnabled)]
      else none := by
  have hloop := (enableObserver_refresh_turnAt subscriber (k := k)).foldl_of_idempotent
    (fun view => by rw [enableFirst_idem, nodeToEnable_enableFirst]; rfl) keys
    (⟨callbacks, [], .empty, []⟩ : Enabled κ σ ω)
  have hsnd := congrArg Prod.snd hloop
  refine hsnd.trans ?_
  split
  · cases nodeToEnable subscriber (nodesAt callbacks k) <;> rfl
  · rfl

theorem mentions_sendServiceKeys :
    Mentions k (enableLocal keys subscriber callbacks).sendServiceKeys ↔
      Mentions k keys ∧ FirstDisabled subscriber (nodesAt callbacks k) ∧
        ¬ HasEnabled (nodesAt callbacks k) := by
  unfold enableLocal
  rw [enableObserver_collectsAt.foldl (enableObserver_turnAt subscriber) fun nodes h =>
    absurd h.1 (not_firstDisabled_enableFirst nodes)]
  simp

/-- A turn disables the subscriber's nodes of a key with an enabled observer, and asks for a
service call if that was the last one. -/
theorem disableObserver_cases (subscriber : σ) (acc : Disabled κ σ ω) (key : κ) :
    ((disableEnabled subscriber (nodesAt acc.callbacks key) = nodesAt acc.callbacks key ∧
        (disableObserver subscriber acc key).callbacks = acc.callbacks) ∨
      (disableObserver subscriber acc key).callbacks =
        acc.callbacks.assign key (disableEnabled subscriber (nodesAt acc.callbacks key))) ∧
    (disableObserver subscriber acc key).lastDisabledKeys =
      if LastEnabled subscriber (nodesAt acc.callbacks key) then acc.lastDisabledKeys ++ [key]
      else acc.lastDisabledKeys := by
  unfold disableObserver
  cases hfind : acc.callbacks.find? key with
  | none =>
    have hnil : nodesAt acc.callbacks key = [] := by rw [nodesAt, hfind, Option.getD_none]
    rw [hnil]
    exact ⟨.inl ⟨rfl, rfl⟩, rfl⟩
  | some nodes =>
    rw [nodesAt_of_find? hfind]
    dsimp only
    by_cases hE : HasEnabled nodes
    · rw [if_neg (by rwa [isEmpty_getEnabledObservers, nodesAt_of_find? hfind, not_not]),
        disableEnabled, if_pos hE]
      by_cases hall : (nodes.all fun item => item.subscriber ≠ subscriber) = true
      · have hsame : disableSubscriber subscriber nodes = nodes :=
          disableSubscriber_of_forall_ne (by simpa using hall)
        have hnot : ¬ LastEnabled subscriber nodes := fun h => h.2 (by rwa [hsame])
        rw [if_pos hall, hsame, if_neg hnot]
        exact ⟨.inl ⟨rfl, rfl⟩, rfl⟩
      · have hself : compare key key = .eq := Std.ReflCmp.compare_self
        rw [if_neg hall]
        simp only [isEmpty_getEnabledObservers, nodesAt_assign, hself, if_true]
        by_cases hlast : HasEnabled (disableSubscriber subscriber nodes)
        · rw [if_neg (not_not.mpr hlast), if_neg fun h : LastEnabled subscriber nodes => h.2 hlast]
          exact ⟨.inr rfl, rfl⟩
        · rw [if_pos hlast, if_pos (show LastEnabled subscriber nodes from ⟨hE, hlast⟩)]
          exact ⟨.inr rfl, rfl⟩
    · rw [if_pos (by rwa [isEmpty_getEnabledObservers, nodesAt_of_find? hfind]), disableEnabled,
        if_neg hE, if_neg fun h : LastEnabled subscriber nodes => hE h.1]
      exact ⟨.inl ⟨rfl, rfl⟩, rfl⟩

theorem disableObserver_turnAt (subscriber : σ) : TurnAt k (disableObserver subscriber)
    (fun acc : Disabled κ σ ω => nodesAt acc.callbacks k) (disableEnabled subscriber) := by
  intro acc key
  dsimp only
  rcases (disableObserver_cases subscriber acc key).1 with ⟨hn, hcb⟩ | hcb
  · rw [hcb]
    split
    · next hk =>
      rw [nodesAt_congr hk] at hn
      exact hn.symm
    · rfl
  · rw [hcb, nodesAt_assign]
    split
    · next hk => rw [nodesAt_congr hk]
    · rfl

theorem disableObserver_collectsAt : CollectsAt k (disableObserver subscriber)
    (fun acc : Disabled κ σ ω => nodesAt acc.callbacks k) Disabled.lastDisabledKeys
    (LastEnabled subscriber) := by
  intro acc key
  have hk : compare k key = .eq → (LastEnabled subscriber (nodesAt acc.callbacks key) ↔
      LastEnabled subscriber (nodesAt acc.callbacks k)) := fun hk => by rw [nodesAt_congr hk]
  rw [(disableObserver_cases subscriber acc key).2]
  by_cases hlast : LastEnabled subscriber (nodesAt acc.callbacks key)
  · rw [if_pos hlast, mentions_append, mentions_cons]
    simp only [not_mentions_nil, or_false]
    tauto
  · rw [if_neg hlast]
    tauto

theorem nodesAt_disableLocal : nodesAt (disableLocal keys subscriber callbacks).callbacks k =
    if Mentions k keys then disableEnabled subscriber (nodesAt callbacks k)
    else nodesAt callbacks k :=
  (disableObserver_turnAt subscriber).foldl_of_idempotent disableEnabled_idem keys _

theorem mentions_lastDisabledKeys :
    Mentions k (disableLocal keys subscriber callbacks).lastDisabledKeys ↔
      Mentions k keys ∧ LastEnabled subscriber (nodesAt callbacks k) := by
  unfold disableLocal
  rw [disableObserver_collectsAt.foldl (disableObserver_turnAt subscriber) fun nodes h =>
    absurd h not_lastEnabled_disableEnabled]
  simp

/-- A key is collected once : it has no enabled observer after that. -/
theorem mentionCount_lastDisabledKeys :
    mentionCount k (disableLocal keys subscriber callbacks).lastDisabledKeys ≤ 1 := by
  let Once (acc : Disabled κ σ ω) : Prop := mentionCount k acc.lastDisabledKeys ≤ 1 ∧
    (Mentions k acc.lastDisabledKeys → ¬ LastEnabled subscriber (nodesAt acc.callbacks k))
  have hinit : Once ⟨callbacks, [], []⟩ := ⟨Nat.zero_le 1, fun h => absurd h (not_mentions_nil k)⟩
  have hturn (acc : Disabled κ σ ω) (h : Once acc) (key : κ) :
      Once (disableObserver subscriber acc key) := by
    obtain ⟨hle, hnot⟩ := h
    have hnodes := disableObserver_turnAt subscriber acc key (k := k)
    dsimp only at hnodes
    dsimp only [Once]
    rw [(disableObserver_cases subscriber acc key).2, hnodes]
    by_cases hk : compare k key = .eq
    · rw [if_pos hk, nodesAt_congr hk]
      refine ⟨?_, fun _ => not_lastEnabled_disableEnabled⟩
      split
      · next hlast =>
        have hzero : mentionCount k acc.lastDisabledKeys = 0 := by
          by_contra hpos
          exact hnot (mentionCount_pos.mp (Nat.pos_of_ne_zero hpos)) hlast
        rw [mentionCount] at hzero ⊢
        rw [List.countP_append, hzero]
        simp [hk]
      · exact hle
    · rw [if_neg hk]
      split
      · have hcount : mentionCount k (acc.lastDisabledKeys ++ [key]) =
            mentionCount k acc.lastDisabledKeys := by
          simp [mentionCount, hk]
        rw [hcount, mentions_append, mentions_cons]
        simpa [hk] using And.intro hle hnot
      · exact ⟨hle, hnot⟩
  have hloop : Once (disableLocal keys subscriber callbacks) :=
    List.foldlRecOn keys _ hinit fun acc h key _ => hturn acc h key
  exact hloop.1

end Loops

end CallbacksManager

end DataShare
