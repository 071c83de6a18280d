import DataShare.CppRdbSubscriberManager
import DataShare.CppPublishedData

/-!
# Epochs of a key

An epoch of a key lasts from the registration of a first observer to the loss of the last one.
A node that is replayed was cached by a change of the run. If the key had observers when the
change came, and its last observer was not lost to a registration the service refused, then the
key has had observers ever since : the change came in the epoch of the replay
(`InEpoch`, `replayed_in_epoch`).

The epoch may be older than every observer left in it. When the oldest observer is deleted while a
newer one stays, its cached node stays too, and is replayed to the next observer
(`replayed_from_before_oldest`).
-/

namespace DataShare

namespace Cpp

open CallbacksManager

namespace SubscriberExchange

/-! ## Cached nodes and epochs -/

section Epochs

variable {τ κ ν ε γ : Type} [Ord κ] [Std.TransOrd κ] {cls : ManagerClass τ κ ν ε γ} {k : κ}
  {calls : List (SubscriberExchange τ ε)} {x : SubscriberExchange τ ε} {stored : κ → ε → Option ν}
  {node : ν}

/-- What a call hands to observers without being a change. -/
def replaysBy (cls : ManagerClass τ κ ν ε γ) (calls : List (SubscriberExchange τ ε))
    (x : SubscriberExchange τ ε) : List (ℕ × γ) :=
  match x.call with
  | .emit _ => []
  | _ => (x.outcome cls (managerAfter cls calls)).calls

/-- The key loses its last observer to a registration that the service refuses. -/
def RefusedAway (cls : ManagerClass τ κ ν ε γ) (k : κ) (calls : List (SubscriberExchange τ ε))
    (x : SubscriberExchange τ ε) : Prop :=
  x.call.Adds ∧ Refused (requestsAt k (x.outcome cls (managerAfter cls calls)).requests) ∧
    Registered k (managerAfter cls calls) ∧ ¬ Registered k (managerAfter cls (calls ++ [x]))

/-- A change after `before` came in the epoch of the key that the calls `after` it end in. -/
def InEpoch (cls : ManagerClass τ κ ν ε γ) (k : κ) (before : List (SubscriberExchange τ ε))
    (change : SubscriberExchange τ ε) (after : List (SubscriberExchange τ ε)) : Prop :=
  Registered k (managerAfter cls before) →
    (∀ mid y rest, after = mid ++ y :: rest → ¬ RefusedAway cls k (before ++ change :: mid) y) →
    ∀ mid rest, after = mid ++ rest → Registered k (managerAfter cls (before ++ change :: mid))

/-- Some change of the run stored the node for the key, in the epoch the run ends in. -/
def StoredInEpoch (cls : ManagerClass τ κ ν ε γ) (stored : κ → ε → Option ν) (k : κ) (node : ν)
    (calls : List (SubscriberExchange τ ε)) : Prop :=
  ∃ before change answer after, calls = before ++ ⟨.emit change, answer⟩ :: after ∧
    stored k change = some node ∧ InEpoch cls k before ⟨.emit change, answer⟩ after

/-- A change caches `stored k change` for `k`, and takes no observers away. -/
structure StoresChanges (cls : ManagerClass τ κ ν ε γ) (stored : κ → ε → Option ν) : Prop where
  cached : ∀ change manager k, (cls.emit change manager).1.lastChangeNodeMap.find? k =
    (stored k change).or (manager.lastChangeNodeMap.find? k)
  registered : ∀ change manager k, Registered k manager →
    Registered k (cls.emit change manager).1

theorem inEpoch_nil {before : List (SubscriberExchange τ ε)}
    (h : Registered k (managerAfter cls before) → Registered k (managerAfter cls (before ++ [x]))) :
    InEpoch cls k before x [] := by
  intro hbefore _ mid rest heq
  obtain ⟨rfl, -⟩ := List.append_eq_nil_iff.mp heq.symm
  exact h hbefore

/-- The epoch goes on with a call that does not end it. -/
theorem InEpoch.concat {before after : List (SubscriberExchange τ ε)}
    {change : SubscriberExchange τ ε} (h : InEpoch cls k before change after)
    (hx : Registered k (managerAfter cls (before ++ change :: after)) →
      Registered k (managerAfter cls (before ++ change :: after ++ [x])) ∨
        RefusedAway cls k (before ++ change :: after) x) :
    InEpoch cls k before change (after ++ [x]) := by
  intro hbefore hkept
  have hrun := h hbefore fun mid y rest heq =>
    hkept mid y (rest ++ [x]) (by rw [heq]; simp)
  have hlast := (hx (hrun after [] (by simp))).resolve_right
    (hkept after x [] rfl)
  intro mid rest heq
  rcases List.eq_nil_or_concat rest with rfl | ⟨rest, last, rfl⟩
  · rw [List.append_nil] at heq
    subst heq
    simpa using hlast
  · rw [List.concat_eq_append, ← List.append_assoc] at heq
    exact hrun mid rest (List.append_inj' heq rfl).1

theorem StoredInEpoch.concat (h : StoredInEpoch cls stored k node calls)
    (hx : Registered k (managerAfter cls calls) →
      Registered k (managerAfter cls (calls ++ [x])) ∨ RefusedAway cls k calls x) :
    StoredInEpoch cls stored k node (calls ++ [x]) := by
  obtain ⟨before, change, answer, after, rfl, hstored, hepoch⟩ := h
  exact ⟨before, change, answer, after ++ [x], by simp, hstored, hepoch.concat hx⟩

/-- Of a call that is no change : it keeps the cached node, or leaves none. -/
theorem storedInEpoch_step (hx : ¬ x.call.Emits)
    (ih : (managerAfter cls calls).lastChangeNodeMap.find? k = some node →
      StoredInEpoch cls stored k node calls)
    (hnode : (managerAfter cls (calls ++ [x])).lastChangeNodeMap.find? k = some node) :
    StoredInEpoch cls stored k node (calls ++ [x]) := by
  have hkept := keptOrForgotten cls (managerAfter cls calls) k hx
  rw [← managerAfter_concat] at hkept
  rcases hkept with ⟨-, hnone⟩ | ⟨hregistered, hsame⟩
  · rw [hnone] at hnode
    exact absurd hnode (by simp)
  · refine (ih (hsame ▸ hnode)).concat fun hbefore => ?_
    by_cases hafter : Registered k (managerAfter cls (calls ++ [x]))
    · exact .inl hafter
    · obtain ⟨hadds, hrefused⟩ := (hregistered hbefore).resolve_left hafter
      exact .inr ⟨hadds, hrefused, hbefore, hafter⟩

/-- What is cached for a key was stored by a change in the epoch of the key, in every run. -/
theorem cached_storedInEpoch (hcls : StoresChanges cls stored)
    (hnode : (managerAfter cls calls).lastChangeNodeMap.find? k = some node) :
    StoredInEpoch cls stored k node calls := by
  induction calls using List.reverseRecOn generalizing node with
  | nil => exact absurd hnode (by simp [managerAfter, SubscriberManager.new])
  | append_singleton calls x ih =>
    by_cases hx : x.call.Emits
    · obtain ⟨call, answer⟩ := x
      obtain ⟨change, rfl⟩ := SubscriberCall.emits_iff.mp hx
      have hregistered : Registered k (managerAfter cls calls) →
          Registered k (managerAfter cls (calls ++ [⟨.emit change, answer⟩])) := fun h => by
        rw [managerAfter_concat]
        exact hcls.registered change _ k h
      have hafter := hnode
      rw [managerAfter_concat] at hafter
      change (cls.emit change (managerAfter cls calls)).1.lastChangeNodeMap.find? k = _ at hafter
      rw [hcls.cached] at hafter
      rcases Option.or_eq_some_iff.mp hafter with hstored | ⟨-, hold⟩
      · exact ⟨calls, change, answer, [], rfl, hstored, inEpoch_nil hregistered⟩
      · exact (ih hold).concat fun h => .inl (hregistered h)
    · exact storedInEpoch_step hx ih hnode

end Epochs

end SubscriberExchange

open SubscriberExchange

/-! ## RDB changes -/

namespace RdbSubscriberManager

variable {δ : Type} {calls : List (RdbExchange δ)} {x : RdbExchange δ}

def stored (k : RdbObserverMapKey) (changeNode : RdbChangeNode δ) : Option (RdbChangeNode δ) :=
  if compare k changeNode.key = .eq then some changeNode else none

theorem stored_eq_some {k : RdbObserverMapKey} {changeNode node : RdbChangeNode δ} :
    stored k changeNode = some node ↔ changeNode = node ∧ compare k node.key = .eq := by
  unfold stored
  split
  · next hk =>
    refine Option.some_inj.trans ⟨fun h => ⟨h, h ▸ hk⟩, And.left⟩
  · next hk =>
    refine iff_of_false (by simp) ?_
    rintro ⟨rfl, heq⟩
    exact hk heq

theorem storesChanges : StoresChanges (cls (δ := δ)) stored where
  cached change manager k := by
    unfold cls emit stored
    dsimp only
    rw [OrderedMap.find?_assign]
    split <;> rfl
  registered change manager k h := by
    unfold Registered cls emit
    dsimp only
    rw [nodesAt_getObserversAndSetNotifiedOn]
    split
    · rwa [ne_eq, setNotifiedOn, List.map_eq_nil_iff]
    · exact h

/-- A replayed node is cached for some key. -/
theorem cached_of_replay {replay : ℕ × RdbChangeNode δ} (h : replay ∈ replaysBy cls calls x) :
    ∃ key, (managerAfter calls).lastChangeNodeMap.find? key = some replay.2 := by
  obtain ⟨call, answer⟩ := x
  cases call with
  | addObservers subscriber uris templateId =>
    unfold replaysBy SubscriberExchange.outcome SubscriberManager.addObservers at h
    dsimp only at h
    split at h
    · exact absurd h List.not_mem_nil
    · obtain ⟨key, -, hkey⟩ := List.mem_filterMap.mp h
      obtain ⟨node, hnode, rfl⟩ := Option.map_eq_some_iff.mp hkey
      exact ⟨key, hnode⟩
  | delObservers subscriber uris templateId =>
    unfold replaysBy SubscriberExchange.outcome SubscriberManager.delObservers at h
    dsimp only at h
    split at h <;> exact absurd h List.not_mem_nil
  | delAllObservers subscriber => exact absurd h List.not_mem_nil
  | enableObservers subscriber uris templateId =>
    obtain ⟨entry, -, hentry⟩ := List.mem_flatMap.mp h
    unfold emitKeyOnEnable at hentry
    split at hentry
    · exact absurd hentry List.not_mem_nil
    · next node hnode =>
      obtain ⟨obs, -, hobs⟩ := List.mem_filterMap.mp hentry
      split at hobs
      · obtain ⟨observer, -, rfl⟩ := Option.map_eq_some_iff.mp hobs
        exact ⟨entry.1, hnode⟩
      · exact absurd hobs (by simp)
  | disableObservers subscriber uris templateId => exact absurd h List.not_mem_nil
  | emit change => exact absurd h List.not_mem_nil

/-- The node was emitted in the epoch of its key that the run ends in. -/
def EmittedInEpoch (node : RdbChangeNode δ) (calls : List (RdbExchange δ)) : Prop :=
  ∃ before answer after, calls = before ++ ⟨.emit node, answer⟩ :: after ∧
    InEpoch cls node.key before ⟨.emit node, answer⟩ after

theorem emittedInEpoch_of_replay {replay : ℕ × RdbChangeNode δ}
    (h : replay ∈ replaysBy cls calls x) : EmittedInEpoch replay.2 calls := by
  obtain ⟨key, hkey⟩ := cached_of_replay h
  obtain ⟨-, change, -, -, -, hstored, -⟩ := cached_storedInEpoch storesChanges hkey
  rw [OrderedMap.find?_congr (stored_eq_some.mp hstored).2] at hkey
  obtain ⟨before, change', answer, after, hcalls, hstored', hepoch⟩ :=
    cached_storedInEpoch storesChanges hkey
  obtain rfl := (stored_eq_some.mp hstored').1
  exact ⟨before, answer, after, hcalls, hepoch⟩

end RdbSubscriberManager

/-! ## Changes of published data -/

namespace PublishedDataSubscriberManager

variable {δ : Type} {calls : List (PublishedExchange δ)} {x : PublishedExchange δ}

/-- The last item of the change for the key, as it is cached. -/
def stored (k : PublishedObserverMapKey) (changeNode : PublishedDataChangeNode δ) :
    Option (PublishedDataChangeNode δ) :=
  (changeNode.datas.filter fun data => compare k data.mapKey = .eq).getLast?.map fun data =>
    ⟨changeNode.ownerBundleName, [data]⟩

theorem item_of_stored {k : PublishedObserverMapKey} {changeNode node : PublishedDataChangeNode δ}
    {item : PublishedDataItem δ} (h : stored k changeNode = some node) (hitem : item ∈ node.datas) :
    item ∈ changeNode.datas ∧ compare k item.mapKey = .eq := by
  obtain ⟨data, hlast, rfl⟩ := Option.map_eq_some_iff.mp h
  obtain rfl := List.mem_singleton.mp hitem
  have hmem := List.mem_of_getLast? hlast
  exact ⟨List.mem_of_mem_filter hmem, by simpa using List.of_mem_filter hmem⟩

theorem find?_emitItems (ownerBundleName : StdString) (k : PublishedObserverMapKey)
    (datas : List (PublishedDataItem δ)) (acc : Emitting δ) :
    (datas.foldl (emitItem ownerBundleName) acc).lastChangeNodeMap.find? k =
      (stored k ⟨ownerBundleName, datas⟩).or (acc.lastChangeNodeMap.find? k) := by
  induction datas using List.reverseRecOn with
  | nil => simp [stored]
  | append_singleton datas data ih =>
    have hlast : (emitItem ownerBundleName
        (datas.foldl (emitItem ownerBundleName) acc) data).lastChangeNodeMap.find? k =
          if compare k data.mapKey = .eq then some ⟨ownerBundleName, [data]⟩
          else (datas.foldl (emitItem ownerBundleName) acc).lastChangeNodeMap.find? k :=
      OrderedMap.find?_assign _ _ _ _
    rw [List.foldl_append, List.foldl_cons, List.foldl_nil, hlast, ih]
    unfold stored
    rw [List.filter_append]
    by_cases hk : compare k data.mapKey = .eq
    · simp [hk]
    · simp [hk]

theorem storesChanges : StoresChanges (cls (δ := δ)) stored where
  cached change manager k := find?_emitItems _ _ _ _
  registered change manager k h := by
    refine List.foldlRecOn (motive := fun acc : Emitting δ => nodesAt acc.callbacks k ≠ [])
      change.datas _ h fun acc hacc data _ => ?_
    unfold emitItem
    dsimp only
    rw [nodesAt_setObserversNotifiedOnEnabled]
    split
    · rwa [ne_eq, setDisabledNotifiedOn, List.map_eq_nil_iff]
    · exact hacc

/-- All items of the node are cached for some key. -/
def CachedItems (lastChangeNodeMap : NodeMap δ) (node : PublishedDataChangeNode δ) : Prop :=
  ∀ item ∈ node.datas, ∃ key value, lastChangeNodeMap.find? key = some value ∧ item ∈ value.datas

theorem cachedItems_append {lastMap : NodeMap δ} {key : PublishedObserverMapKey}
    {node value : PublishedDataChangeNode δ} {more : List (PublishedDataItem δ)}
    (ownerBundleName : StdString) (hnode : CachedItems lastMap node)
    (hvalue : lastMap.find? key = some value) (hmore : ∀ item ∈ more, item ∈ value.datas) :
    CachedItems lastMap ⟨ownerBundleName, node.datas ++ more⟩ := by
  intro item hitem
  rcases List.mem_append.mp hitem with hold | hnew
  · exact hnode item hold
  · exact ⟨key, value, hvalue, hmore item hnew⟩

theorem cachedItems_emitLocal {lastMap : NodeMap δ} {keys : List PublishedObserverMapKey}
    {observer : ℕ} {call : ℕ × PublishedDataChangeNode δ}
    (h : call ∈ emitLocal lastMap keys observer) : CachedItems lastMap call.2 := by
  obtain rfl := List.mem_singleton.mp h
  refine List.foldlRecOn (motive := CachedItems lastMap) keys _
    (fun item hitem => absurd hitem List.not_mem_nil) fun node hnode key _ => ?_
  unfold appendCached
  split
  · exact hnode
  · next value hvalue => exact cachedItems_append _ hnode hvalue fun _ => id

/-- The nodes collected for the observers hold cached items only. -/
def CachedResults (lastMap : NodeMap δ) (results : OrderedMap ℕ (PublishedDataChangeNode δ)) :
    Prop :=
  ∀ observer node, results.find? observer = some node → CachedItems lastMap node

theorem CachedResults.refreshObserver {lastMap : NodeMap δ} {key : PublishedObserverMapKey}
    {value : PublishedDataChangeNode δ} {data : PublishedDataItem δ}
    {results : OrderedMap ℕ (PublishedDataChangeNode δ)} (h : CachedResults lastMap results)
    (hvalue : lastMap.find? key = some value) (hdata : data ∈ value.datas)
    (obs : Option ℕ × Bool) :
    CachedResults lastMap
      (PublishedDataSubscriberManager.refreshObserver value.ownerBundleName data results obs) := by
  unfold PublishedDataSubscriberManager.refreshObserver
  split
  · intro other node hnode
    rw [OrderedMap.find?_upsert] at hnode
    split at hnode
    · obtain rfl := Option.some_inj.mp hnode
      refine cachedItems_append _ ?_ hvalue fun item hitem => List.mem_singleton.mp hitem ▸ hdata
      intro item hitem
      cases hfind : results.find? _ with
      | none =>
        rw [hfind] at hitem
        exact absurd hitem List.not_mem_nil
      | some old =>
        rw [hfind] at hitem
        exact h _ old hfind item hitem
    · exact h other node hnode
  · exact h

theorem CachedResults.refreshKey {lastMap : NodeMap δ}
    {results : OrderedMap ℕ (PublishedDataChangeNode δ)} (h : CachedResults lastMap results)
    (entry : PublishedObserverMapKey × List (Option ℕ × Bool)) :
    CachedResults lastMap (PublishedDataSubscriberManager.refreshKey lastMap results entry) := by
  unfold PublishedDataSubscriberManager.refreshKey
  split
  · exact h
  · next value hvalue =>
    refine List.foldlRecOn (motive := CachedResults lastMap) value.datas _ h
      fun results hresults data hdata => ?_
    exact List.foldlRecOn (motive := CachedResults lastMap) entry.2 _ hresults
      fun results hresults obs _ => hresults.refreshObserver hvalue hdata obs

theorem cachedItems_emitOnEnable {lastMap : NodeMap δ} (callbacks : Callbacks)
    {obsMap : RefreshObservers PublishedObserverMapKey} {call : ℕ × PublishedDataChangeNode δ}
    (h : call ∈ emitOnEnable lastMap callbacks obsMap) : CachedItems lastMap call.2 := by
  have hresults : CachedResults lastMap (obsMap.entries.foldl (refreshKey lastMap) .empty) :=
    List.foldlRecOn (motive := CachedResults lastMap) obsMap.entries _
      (fun _ _ hnode => absurd hnode (by simp)) fun results hresults entry _ =>
        hresults.refreshKey entry
  exact hresults call.1 call.2 (OrderedMap.mem_entries_iff.mp h)

theorem cachedItems_of_replay {replay : ℕ × PublishedDataChangeNode δ}
    (h : replay ∈ replaysBy cls calls x) :
    CachedItems (managerAfter calls).lastChangeNodeMap replay.2 := by
  obtain ⟨call, answer⟩ := x
  cases call with
  | addObservers subscriber uris subscriberId =>
    unfold replaysBy SubscriberExchange.outcome SubscriberManager.addObservers at h
    dsimp only at h
    split at h
    · exact absurd h List.not_mem_nil
    · exact cachedItems_emitLocal h
  | delObservers subscriber uris subscriberId =>
    unfold replaysBy SubscriberExchange.outcome SubscriberManager.delObservers at h
    dsimp only at h
    split at h <;> exact absurd h List.not_mem_nil
  | delAllObservers subscriber => exact absurd h List.not_mem_nil
  | enableObservers subscriber uris subscriberId =>
    exact cachedItems_emitOnEnable (managerAfter calls).callbacks h
  | disableObservers subscriber uris subscriberId => exact absurd h List.not_mem_nil
  | emit change => exact absurd h List.not_mem_nil

/-- The item was emitted in the epoch of its key that the run ends in. -/
def EmittedInEpoch (item : PublishedDataItem δ) (calls : List (PublishedExchange δ)) : Prop :=
  ∃ before change answer after, calls = before ++ ⟨.emit change, answer⟩ :: after ∧
    item ∈ change.datas ∧ InEpoch cls item.mapKey before ⟨.emit change, answer⟩ after

theorem emittedInEpoch_of_replay {replay : ℕ × PublishedDataChangeNode δ}
    {item : PublishedDataItem δ} (h : replay ∈ replaysBy cls calls x)
    (hitem : item ∈ replay.2.datas) : EmittedInEpoch item calls := by
  obtain ⟨key, value, hkey, hvalue⟩ := cachedItems_of_replay h item hitem
  obtain ⟨-, change, -, -, -, hstored, -⟩ := cached_storedInEpoch storesChanges hkey
  rw [OrderedMap.find?_congr (item_of_stored hstored hvalue).2] at hkey
  obtain ⟨before, change', answer, after, hcalls, hstored', hepoch⟩ :=
    cached_storedInEpoch storesChanges hkey
  exact ⟨before, change', answer, after, hcalls, (item_of_stored hstored' hvalue).1, hepoch⟩

end PublishedDataSubscriberManager

/-! ## Replays -/

/-- Both managers replay what was emitted in the epoch of its key only, in every run. -/
theorem replayed_in_epoch {δ : Type} :
    (∀ (calls : List (RdbExchange δ)) (x : RdbExchange δ),
      ∀ replay ∈ replaysBy RdbSubscriberManager.cls calls x,
        RdbSubscriberManager.EmittedInEpoch replay.2 calls) ∧
    ∀ (calls : List (PublishedExchange δ)) (x : PublishedExchange δ),
      ∀ replay ∈ replaysBy PublishedDataSubscriberManager.cls calls x, ∀ item ∈ replay.2.datas,
        PublishedDataSubscriberManager.EmittedInEpoch item calls :=
  ⟨fun _ _ _ h => RdbSubscriberManager.emittedInEpoch_of_replay h,
    fun _ _ _ h _ hitem => PublishedDataSubscriberManager.emittedInEpoch_of_replay h hitem⟩

/-! ### An epoch older than its observers -/

namespace RdbSubscriberManager

variable {δ : Type}

/-- When the node was emitted, some observer was registered for its key that still is. -/
def EmittedUnderOldest (node : RdbChangeNode δ) (calls : List (RdbExchange δ)) : Prop :=
  ∃ before answer after, calls = before ++ ⟨.emit node, answer⟩ :: after ∧
    ∃ observer ∈ (nodesAt (managerAfter before).callbacks node.key).map ObserverNode.observer,
      observer ∈ (nodesAt (managerAfter calls).callbacks node.key).map ObserverNode.observer

/-- The observer that was there for the change is deleted, the next one stays. -/
def oldestDeleted : List (RdbExchange ℕ) :=
  [accepted (.addObservers 1 [[117]] someTemplate), accepted (.emit someNode),
    accepted (.addObservers 2 [[117]] someTemplate),
    accepted (.delObservers 1 [[117]] someTemplate)]

theorem replayed_from_before_oldest :
    (2, someNode) ∈ replaysBy cls oldestDeleted
        (accepted (.addObservers 3 [[117]] someTemplate)) ∧
      ¬ EmittedUnderOldest someNode oldestDeleted := by
  constructor
  · decide +kernel
  · rintro ⟨before, answer, after, hcalls, hoverlap⟩
    obtain rfl : before = [accepted (.addObservers 1 [[117]] someTemplate)] := by
      rcases before with _ | ⟨x, _ | ⟨y, _ | ⟨z, _ | ⟨w, rest⟩⟩⟩⟩
      all_goals simp [oldestDeleted, accepted] at hcalls
      rw [← hcalls.1]
      rfl
    revert hoverlap
    decide +kernel

/-- The first change of a key reaches the observer that joins the one that got it. -/
theorem emittedInEpoch_someNode : EmittedInEpoch someNode
    [accepted (.addObservers 1 [[117]] someTemplate), accepted (.emit someNode)] :=
  replayed_in_epoch.1 _ (accepted (.addObservers 2 [[117]] someTemplate)) (1, someNode)
    (by decide +kernel)

end RdbSubscriberManager

end Cpp

end DataShare
