import DataShare.MissedItems
import DataShare.ProxyDataEmission
import Mathlib.Data.List.Nodup

/-!
# Replays of published data

`PublishedDataSubscriberManager` caches the last item of every key under the owner of the change it
came from. An observer that joins enabled ones is handed the cached items of their keys, and one that
is enabled again those of the keys it has missed a change of. The items are joined to one node for
each observer, and a node has one owner.

An observer is handed what it is to get, each item under its owner, exactly if all these items have
the same owner, and, for a registration, some key it joins has a cached item and no key with one is
named twice (`replaysExactly_iff`).
-/

namespace DataShare

/-! ## The keys a registration joins -/

namespace CallbacksManager

variable {κ σ ω : Type} [Ord κ] [Std.TransOrd κ] {k : κ} {subscriber : σ} {observer : ω}

/-- A key is joined each time it is named, but for the first time if it has no enabled observer. -/
theorem mentionCount_localRegisterKey : ∀ (keys : List κ) (acc : Added κ σ ω),
    mentionCount k (keys.foldl (addObserver subscriber (some observer)) acc).localRegisterKey =
      mentionCount k acc.localRegisterKey +
        if HasEnabled (nodesAt acc.callbacks k) then mentionCount k keys
        else mentionCount k keys - 1
  | [], acc => by simp [mentionCount]
  | key :: keys, acc => by
    have hnodes : nodesAt (addObserver subscriber (some observer) acc key).callbacks k =
        if compare k key = .eq then
          nodesAt acc.callbacks k ++ [ObserverNode.new (some observer) subscriber]
        else nodesAt acc.callbacks k := addObserver_turnAt acc key
    rw [List.foldl_cons, mentionCount_localRegisterKey keys, hnodes]
    unfold addObserver mentionCount
    by_cases hk : compare k key = .eq
    · have hnew : HasEnabled
          (nodesAt acc.callbacks k ++ [ObserverNode.new (some observer) subscriber]) :=
        hasEnabled_iff.mpr ⟨_, List.mem_append_right _ (List.mem_singleton_self _), rfl, rfl⟩
      rw [if_pos hk, if_pos hnew, List.countP_cons_of_pos (by simpa using hk)]
      by_cases henabled : HasEnabled (nodesAt acc.callbacks k)
      · have hjoined : (getEnabledObservers acc.callbacks key).isEmpty ≠ true := by
          rwa [ne_eq, isEmpty_getEnabledObservers, nodesAt_congr hk, not_not]
        rw [if_neg hjoined, if_pos henabled]
        dsimp only
        rw [List.countP_append, List.countP_cons_of_pos (by simpa using hk), List.countP_nil]
        omega
      · have hfirst : (getEnabledObservers acc.callbacks key).isEmpty = true := by
          rwa [isEmpty_getEnabledObservers, nodesAt_congr hk]
        rw [if_pos hfirst, if_neg henabled]
        dsimp only
        omega
    · rw [if_neg hk, List.countP_cons_of_neg (by simpa using hk)]
      split
      · rfl
      · dsimp only
        rw [List.countP_append, List.countP_cons_of_neg (by simpa using hk), List.countP_nil]
        rfl

end CallbacksManager

namespace Cpp

namespace PublishedDataSubscriberManager

open CallbacksManager

variable {δ : Type} {k : PublishedObserverMapKey} {calls : List (PublishedExchange δ)}
  {x : PublishedExchange δ}

/-! ## Cached items -/

/-- The last item for a key in the last change of a run that has one, with the owner of the
change. -/
def lastChange (k : PublishedObserverMapKey) (calls : List (PublishedExchange δ)) :
    Option (StdString × PublishedDataItem δ) :=
  calls.foldl (fun last x =>
    match x.call with
    | .emit changeNode =>
      (((changeNode.datas.filter fun data => compare k data.mapKey = .eq).getLast?).map fun data =>
        (changeNode.ownerBundleName, data)).or last
    | _ => last) none

/-- A key with a cached change, and what its last change left there. -/
def Cached (calls : List (PublishedExchange δ)) (k : PublishedObserverMapKey)
    (item : StdString × PublishedDataItem δ) : Prop :=
  ((managerAfter calls).lastChangeNodeMap.find? k).isSome ∧ lastChange k calls = some item

/-- The node that holds one item. -/
def nodeOf (item : StdString × PublishedDataItem δ) : PublishedDataChangeNode δ :=
  ⟨item.1, [item.2]⟩

theorem lastChange_concat (calls : List (PublishedExchange δ)) (x : PublishedExchange δ) :
    lastChange k (calls ++ [x]) = lastChange k calls ∧ ¬ x.call.Emits ∨
      ∃ changeNode, x.call = .emit changeNode ∧
        (lastChange k (calls ++ [x])).map nodeOf =
          (stored k changeNode).or ((lastChange k calls).map nodeOf) := by
  obtain ⟨call, answer⟩ := x
  unfold lastChange
  rw [List.foldl_append, List.foldl_cons, List.foldl_nil]
  cases call with
  | emit changeNode =>
    refine .inr ⟨changeNode, rfl, ?_⟩
    unfold stored
    rw [Option.map_or, Option.map_map]
    rfl
  | _ => exact .inl ⟨rfl, id⟩

/-- What is cached for a key was left there by its last change, in every run. -/
theorem lastChange_of_cached {node : PublishedDataChangeNode δ}
    (h : (managerAfter calls).lastChangeNodeMap.find? k = some node) :
    (lastChange k calls).map nodeOf = some node := by
  induction calls using List.reverseRecOn generalizing node with
  | nil => exact absurd h (by simp [managerAfter, SubscriberExchange.managerAfter,
      SubscriberManager.new])
  | append_singleton calls x ih =>
    rw [managerAfter_concat] at h
    rcases lastChange_concat (k := k) calls x with ⟨hsame, hx⟩ | ⟨changeNode, hcall, hlast⟩
    · rw [hsame]
      rcases keptOrForgotten cls (managerAfter calls) k hx with ⟨-, hnone⟩ | ⟨-, hkept⟩
      · exact absurd (hnone.symm.trans h) (by simp)
      · exact ih (hkept.symm.trans h)
    · obtain ⟨call, answer⟩ := x
      obtain rfl : call = .emit changeNode := hcall
      change (cls.emit changeNode (managerAfter calls)).1.lastChangeNodeMap.find? k = _ at h
      rw [storesChanges.cached] at h
      rw [hlast]
      rcases Option.or_eq_some_iff.mp h with hstored | ⟨hnone, hold⟩
      · rw [hstored]
        rfl
      · rw [hnone, ih hold]
        rfl

theorem cached_iff {item : StdString × PublishedDataItem δ} : Cached calls k item ↔
    (managerAfter calls).lastChangeNodeMap.find? k = some (nodeOf item) := by
  constructor
  · rintro ⟨hsome, hlast⟩
    obtain ⟨node, hnode⟩ := Option.isSome_iff_exists.mp hsome
    have hmap := lastChange_of_cached hnode
    rw [hlast] at hmap
    rw [hnode, ← hmap]
    rfl
  · intro h
    refine ⟨by simp [h], ?_⟩
    obtain ⟨last, hlast, heq⟩ := Option.map_eq_some_iff.mp (lastChange_of_cached h)
    rw [hlast, Option.some_inj]
    obtain ⟨hdatas, howner⟩ := PublishedDataChangeNode.mk.inj heq
    exact Prod.ext hdatas (List.singleton_inj.mp howner)

/-- A cached item is one for its key. -/
theorem mapKey_of_lastChange {item : StdString × PublishedDataItem δ}
    (h : lastChange k calls = some item) : compare k item.2.mapKey = .eq := by
  induction calls using List.reverseRecOn generalizing item with
  | nil => exact absurd h (by simp [lastChange])
  | append_singleton calls x ih =>
    rcases lastChange_concat (k := k) calls x with ⟨hsame, -⟩ | ⟨changeNode, -, hlast⟩
    · exact ih (hsame.symm.trans h)
    · rw [h, Option.map_some, eq_comm] at hlast
      rcases Option.or_eq_some_iff.mp hlast with hstored | ⟨-, hold⟩
      · exact (item_of_stored hstored (List.mem_singleton_self _)).2
      · obtain ⟨last, hlast, heq⟩ := Option.map_eq_some_iff.mp hold
        obtain ⟨-, hitem⟩ := PublishedDataChangeNode.mk.inj heq
        rw [← List.singleton_inj.mp hitem]
        exact ih hlast

/-! ## One node for many items -/

/-- The items of some nodes, each with the owner of its node. -/
def attributed (nodes : List (PublishedDataChangeNode δ)) :
    List (StdString × PublishedDataItem δ) :=
  nodes.flatMap fun node => node.datas.map fun data => (node.ownerBundleName, data)

/-- The owner of the last item. -/
def ownerOf (items : List (StdString × PublishedDataItem δ)) : StdString :=
  (items.getLast?.map Prod.fst).getD []

def joinedNode (items : List (StdString × PublishedDataItem δ)) : PublishedDataChangeNode δ :=
  ⟨ownerOf items, items.map Prod.snd⟩

theorem joinedNode_concat (items : List (StdString × PublishedDataItem δ))
    (item : StdString × PublishedDataItem δ) :
    joinedNode (items ++ [item]) = ⟨item.1, (joinedNode items).datas ++ [item.2]⟩ := by
  simp [joinedNode, ownerOf]

theorem mem_attributed_joinedNode {items : List (StdString × PublishedDataItem δ)}
    {item : StdString × PublishedDataItem δ} : item ∈ attributed [joinedNode items] ↔
      item.1 = ownerOf items ∧ ∃ other ∈ items, other.2 = item.2 := by
  obtain ⟨ownerBundleName, data⟩ := item
  simp [attributed, joinedNode]
  tauto

theorem nodup_attributed_joinedNode {items : List (StdString × PublishedDataItem δ)} :
    (attributed [joinedNode items]).Nodup ↔ (items.map Prod.snd).Nodup := by
  have hitems : attributed [joinedNode items] =
      (items.map Prod.snd).map (Prod.mk (ownerOf items)) := List.flatMap_singleton _ _
  rw [hitems, List.nodup_map_iff (Prod.mk_right_injective _)]

/-- The node names the owner of each item exactly if all have one owner. -/
theorem attributed_joinedNode_iff {items : List (StdString × PublishedDataItem δ)}
    {P : StdString × PublishedDataItem δ → Prop} (h : ∀ item, item ∈ items ↔ P item) :
    (∀ item, item ∈ attributed [joinedNode items] ↔ P item) ↔
      ∀ item item', P item → P item' → item.1 = item'.1 := by
  constructor
  · intro hexact item item' hitem hitem'
    rw [(mem_attributed_joinedNode.mp ((hexact item).mpr hitem)).1,
      (mem_attributed_joinedNode.mp ((hexact item').mpr hitem')).1]
  · intro howner item
    have hlast : ∀ other, P other → other.1 = ownerOf items := by
      intro other hother
      have hne := List.ne_nil_of_mem ((h other).mpr hother)
      rw [ownerOf, List.getLast?_eq_getLast_of_ne_nil hne]
      exact howner _ _ hother ((h _).mp (List.getLast_mem hne))
    rw [mem_attributed_joinedNode]
    constructor
    · rintro ⟨hitem, other, hother, hdata⟩
      have hP := (h other).mp hother
      rwa [← Prod.ext ((hlast other hP).trans hitem.symm) hdata]
    · exact fun hP => ⟨hlast item hP, item, (h item).mpr hP, rfl⟩

/-! ## What is replayed -/

/-- The cached item of a key. -/
def itemAt (calls : List (PublishedExchange δ)) (k : PublishedObserverMapKey) :
    Option (StdString × PublishedDataItem δ) :=
  if ((managerAfter calls).lastChangeNodeMap.find? k).isSome then lastChange k calls else none

theorem itemAt_eq_some {item : StdString × PublishedDataItem δ} :
    itemAt calls k = some item ↔ Cached calls k item := by
  unfold itemAt Cached
  split
  · next h => simp [h]
  · next h => simp [h]

theorem find?_eq_itemAt (calls : List (PublishedExchange δ)) (k : PublishedObserverMapKey) :
    (managerAfter calls).lastChangeNodeMap.find? k = (itemAt calls k).map nodeOf := by
  cases hitem : itemAt calls k with
  | some item => exact cached_iff.mp (itemAt_eq_some.mp hitem)
  | none =>
    rcases Option.eq_none_or_eq_some ((managerAfter calls).lastChangeNodeMap.find? k) with
      hnone | ⟨node, hnode⟩
    · exact hnone
    · have hlast := lastChange_of_cached hnode
      unfold itemAt at hitem
      rw [if_pos (by simp [hnode])] at hitem
      rw [hitem] at hlast
      exact absurd hlast (by simp)

theorem itemAt_congr {k' : PublishedObserverMapKey} (h : compare k k' = .eq) :
    itemAt calls k' = itemAt calls k := by
  ext item
  rw [itemAt_eq_some, itemAt_eq_some, cached_iff, cached_iff, OrderedMap.find?_congr h]

/-- A registration hands over the items of the keys it joins. -/
theorem emitLocal_eq (calls : List (PublishedExchange δ)) (keys : List PublishedObserverMapKey)
    (observer : ℕ) : emitLocal (managerAfter calls).lastChangeNodeMap keys observer =
      [(observer, joinedNode (keys.filterMap (itemAt calls)))] := by
  unfold emitLocal
  congr 2
  induction keys using List.reverseRecOn with
  | nil => rfl
  | append_singleton keys key ih =>
    rw [List.foldl_append, List.foldl_cons, List.foldl_nil, ih, List.filterMap_append, appendCached,
      find?_eq_itemAt]
    cases hitem : itemAt calls key with
    | none => simp [hitem]
    | some item =>
      rw [List.filterMap_cons_some hitem, List.filterMap_nil, joinedNode_concat]
      rfl

/-- The item of a key, for an observer that missed it. -/
def itemTo (calls : List (PublishedExchange δ)) (observer : ℕ)
    (entry : PublishedObserverMapKey × List (Option ℕ × Bool)) :
    Option (StdString × PublishedDataItem δ) :=
  if (some observer, true) ∈ entry.2 then itemAt calls entry.1 else none

variable (calls) in
/-- An enabled observer is handed the items it missed, if there are any. -/
theorem find?_refreshed {entries : List (PublishedObserverMapKey × List (Option ℕ × Bool))}
    (hone : ∀ entry ∈ entries, ∃ obs, entry.2 = [obs]) (observer : ℕ) :
    (entries.foldl (refreshKey (managerAfter calls).lastChangeNodeMap) .empty).find? observer =
      if entries.filterMap (itemTo calls observer) = [] then none
      else some (joinedNode (entries.filterMap (itemTo calls observer))) := by
  induction entries using List.reverseRecOn with
  | nil => rfl
  | append_singleton entries entry ih =>
    have ih := ih fun other hother => hone other (List.mem_append_left _ hother)
    obtain ⟨obs, hobs⟩ := hone entry (List.mem_append_right _ (List.mem_singleton_self _))
    rw [List.foldl_append, List.foldl_cons, List.foldl_nil, List.filterMap_append, refreshKey,
      find?_eq_itemAt]
    cases hitem : itemAt calls entry.1 with
    | none =>
      have hto : itemTo calls observer entry = none := by simp [itemTo, hitem]
      rw [List.filterMap_cons_none hto, List.filterMap_nil, List.append_nil]
      exact ih
    | some item =>
      have hturn : ∀ results : OrderedMap ℕ (PublishedDataChangeNode δ),
          (nodeOf item).datas.foldl (fun results data =>
            entry.2.foldl (refreshObserver (nodeOf item).ownerBundleName data) results) results =
              refreshObserver item.1 item.2 results obs := fun results => by rw [hobs]; rfl
      rw [Option.map_some]
      dsimp only
      rw [hturn]
      by_cases hnotified : obs = (some observer, true)
      · subst hnotified
        have hto : itemTo calls observer entry = some item := by simp [itemTo, hitem, hobs]
        rw [List.filterMap_cons_some hto, List.filterMap_nil, if_neg (by simp), joinedNode_concat,
          refreshObserver, OrderedMap.find?_upsert, if_pos Std.ReflCmp.compare_self, ih]
        split
        · next hnil => rw [hnil]; rfl
        · rfl
      · have hto : itemTo calls observer entry = none := by
          simp [itemTo, hobs, Ne.symm hnotified]
        rw [List.filterMap_cons_none hto, List.filterMap_nil, List.append_nil, ← ih]
        unfold refreshObserver
        split
        · next other =>
          have hother : compare observer other ≠ .eq := by
            intro heq
            exact hnotified (by rw [Std.LawfulEqCmp.eq_of_compare heq])
          rw [OrderedMap.find?_upsert, if_neg hother]
        · rfl

section Calls

variable {observer subscriber : ℕ} {uris : List StdString} {subscriberId : Int64}
  {answer : ℕ → Answer}

/-- A call is to hand the observer what is cached for the key. -/
def Replays (calls : List (PublishedExchange δ)) (observer : ℕ) (k : PublishedObserverMapKey) :
    SubscriberCall Int64 (PublishedDataChangeNode δ) → Prop
  | .addObservers _ uris subscriberId =>
    observer = (managerAfter calls).made ∧ Mentions k (keysOf uris subscriberId) ∧
      HasEnabled (nodesAt (managerAfter calls).callbacks k)
  | .enableObservers subscriber uris subscriberId =>
    Mentions k (keysOf uris subscriberId) ∧ Missed k subscriber calls ∧
      ∃ node, nodeToEnable subscriber (nodesAt (managerAfter calls).callbacks k) = some node ∧
        node.observer = some observer
  | _ => False

/-- What the observer is called with. -/
def replayed (calls : List (PublishedExchange δ)) (x : PublishedExchange δ) (observer : ℕ) :
    List (PublishedDataChangeNode δ) :=
  callsTo observer (SubscriberExchange.replaysBy cls calls x)

/-- The observer is called with the cached items that are to be replayed to it, each once and under
the owner of its change, and not at all without any. -/
structure ReplaysExactly (calls : List (PublishedExchange δ)) (x : PublishedExchange δ)
    (observer : ℕ) : Prop where
  once : (attributed (replayed calls x observer)).Nodup
  items : ∀ item, item ∈ attributed (replayed calls x observer) ↔
    ∃ k, Replays calls observer k x.call ∧ Cached calls k item
  quiet : replayed calls x observer ≠ [] →
    ∃ k item, Replays calls observer k x.call ∧ Cached calls k item

/-- The items to be replayed come from changes of one owner. -/
def OneOwner (calls : List (PublishedExchange δ)) (observer : ℕ)
    (call : SubscriberCall Int64 (PublishedDataChangeNode δ)) : Prop :=
  ∀ item item', (∃ k, Replays calls observer k call ∧ Cached calls k item) →
    (∃ k, Replays calls observer k call ∧ Cached calls k item') → item.1 = item'.1

/-- A registration names no key twice and joins none, or some key it joins has a cached item and no
key with one is named twice. -/
def JoinsExactly (calls : List (PublishedExchange δ)) (uris : List StdString)
    (subscriberId : Int64) : Prop :=
  (∀ k, Mentions k (keysOf uris subscriberId) → mentionCount k (keysOf uris subscriberId) = 1 ∧
      ¬ HasEnabled (nodesAt (managerAfter calls).callbacks k)) ∨
    (∃ k item, Mentions k (keysOf uris subscriberId) ∧
        HasEnabled (nodesAt (managerAfter calls).callbacks k) ∧ Cached calls k item) ∧
      ∀ k item, Cached calls k item → mentionCount k (keysOf uris subscriberId) ≤ 1

theorem callsTo_entries (observer : ℕ) (results : OrderedMap ℕ (PublishedDataChangeNode δ)) :
    callsTo observer results.entries = (results.find? observer).toList := by
  unfold callsTo
  rw [OrderedMap.filter_entries_eq]
  cases results.find? observer <;> rfl

/-- Nothing is handed to an observer that is to get nothing. -/
theorem replaysExactly_of_nil (hnil : replayed calls x observer = [])
    (hnone : ∀ k item, Replays calls observer k x.call → ¬ Cached calls k item) :
    ReplaysExactly calls x observer where
  once := by
    rw [hnil]
    exact List.nodup_nil
  items item := by
    rw [hnil]
    refine iff_of_false List.not_mem_nil ?_
    rintro ⟨k, hk, hitem⟩
    exact hnone k item hk hitem
  quiet h := absurd hnil h

theorem oneOwner_of_none (hnone : ∀ k item, Replays calls observer k x.call → ¬ Cached calls k item) :
    OneOwner calls observer x.call := by
  rintro item - ⟨k, hk, hitem⟩
  exact absurd hitem (hnone k item hk)

/-- The items an enabled observer is handed. -/
def itemsToEnabled (calls : List (PublishedExchange δ)) (subscriber : ℕ) (uris : List StdString)
    (subscriberId : Int64) (observer : ℕ) : List (StdString × PublishedDataItem δ) :=
  (enableLocal (keysOf uris subscriberId) subscriber
    (managerAfter calls).callbacks).refreshObservers.entries.filterMap (itemTo calls observer)

theorem entry_refreshObservers {keys : List PublishedObserverMapKey} {callbacks : Callbacks}
    {entry : PublishedObserverMapKey × List (Option ℕ × Bool)}
    (h : entry ∈ (enableLocal keys subscriber callbacks).refreshObservers.entries) :
    Mentions entry.1 keys ∧ ∃ node, nodeToEnable subscriber (nodesAt callbacks entry.1) = some node ∧
      entry.2 = [(node.observer, node.isNotifyOnEnabled)] := by
  have hfind := OrderedMap.find?_of_mem_entries h
  rw [find?_refreshObservers] at hfind
  split at hfind
  · next hkeys =>
    obtain ⟨node, hnode, hentry⟩ := Option.map_eq_some_iff.mp hfind
    exact ⟨hkeys, node, hnode, hentry.symm⟩
  · exact absurd hfind (by simp)

theorem replayed_enableObservers :
    replayed calls ⟨.enableObservers subscriber uris subscriberId, answer⟩ observer =
      if itemsToEnabled calls subscriber uris subscriberId observer = [] then []
      else [joinedNode (itemsToEnabled calls subscriber uris subscriberId observer)] := by
  have hone : ∀ entry ∈ (enableLocal (keysOf uris subscriberId) subscriber
      (managerAfter calls).callbacks).refreshObservers.entries, ∃ obs, entry.2 = [obs] :=
    fun entry hentry => by
      obtain ⟨-, node, -, hnode⟩ := entry_refreshObservers hentry
      exact ⟨_, hnode⟩
  have hfind := find?_refreshed calls hone observer
  refine (callsTo_entries observer _).trans ?_
  refine (congrArg Option.toList hfind).trans ?_
  unfold itemsToEnabled
  split <;> rfl

theorem mem_itemsToEnabled {item : StdString × PublishedDataItem δ} :
    item ∈ itemsToEnabled calls subscriber uris subscriberId observer ↔
      ∃ k, Replays calls observer k (.enableObservers subscriber uris subscriberId) ∧
        Cached calls k item := by
  unfold itemsToEnabled
  rw [List.mem_filterMap]
  constructor
  · rintro ⟨entry, hentry, hitem⟩
    obtain ⟨hkeys, node, hnode, hobs⟩ := entry_refreshObservers hentry
    unfold itemTo at hitem
    split at hitem
    · next hmem =>
      rw [hobs, List.mem_singleton] at hmem
      obtain ⟨hobserver, hflag⟩ := Prod.mk.inj hmem
      exact ⟨entry.1, ⟨hkeys, (flag_iff_missed hnode).mp hflag.symm, node, hnode, hobserver.symm⟩,
        itemAt_eq_some.mp hitem⟩
    · exact absurd hitem (by simp)
  · rintro ⟨k, ⟨hkeys, hmissed, node, hnode, hobserver⟩, hcached⟩
    have hfind : (enableLocal (keysOf uris subscriberId) subscriber
        (managerAfter calls).callbacks).refreshObservers.find? k = some [(some observer, true)] := by
      rw [find?_refreshObservers, if_pos hkeys, hnode, Option.map_some, hobserver,
        (flag_iff_missed hnode).mpr hmissed]
    obtain ⟨k', hk', hentries⟩ := OrderedMap.filter_entries_of_find? hfind
    have hmem := List.mem_of_mem_filter (hentries ▸ List.mem_singleton_self _ :
      (k', [(some observer, true)]) ∈ _)
    refine ⟨_, hmem, ?_⟩
    rw [itemTo, if_pos (List.mem_singleton_self _), itemAt_congr hk']
    exact itemAt_eq_some.mpr hcached

theorem nodup_itemsToEnabled :
    ((itemsToEnabled calls subscriber uris subscriberId observer).map Prod.snd).Nodup := by
  unfold itemsToEnabled
  rw [List.Nodup, List.pairwise_map, List.pairwise_filterMap]
  refine (OrderedMap.sorted _).imp fun {entry entry'} hlt item hitem item' hitem' heq => ?_
  have hcached {entry : PublishedObserverMapKey × List (Option ℕ × Bool)}
      {item : StdString × PublishedDataItem δ} (hitem : itemTo calls observer entry = some item) :
      compare entry.1 item.2.mapKey = .eq := by
    unfold itemTo at hitem
    split at hitem
    · exact mapKey_of_lastChange (itemAt_eq_some.mp hitem).2
    · exact absurd hitem (by simp)
  have hkey := hcached hitem
  rw [heq] at hkey
  have hsame := Std.TransCmp.eq_trans hkey (Std.OrientedCmp.eq_symm (hcached hitem'))
  rw [hlt] at hsame
  exact absurd hsame (by simp)

theorem enableObservers_replaysExactly_iff :
    ReplaysExactly calls ⟨.enableObservers subscriber uris subscriberId, answer⟩ observer ↔
      OneOwner calls observer (.enableObservers subscriber uris subscriberId) := by
  have hiff : (∀ item, item ∈ attributed [joinedNode
      (itemsToEnabled calls subscriber uris subscriberId observer)] ↔
        ∃ k, Replays calls observer k (.enableObservers subscriber uris subscriberId) ∧
          Cached calls k item) ↔
      OneOwner calls observer (.enableObservers subscriber uris subscriberId) :=
    attributed_joinedNode_iff fun item => mem_itemsToEnabled
  by_cases hnil : itemsToEnabled calls subscriber uris subscriberId observer = []
  · have hnone : ∀ k item,
        Replays calls observer k (.enableObservers subscriber uris subscriberId) →
          ¬ Cached calls k item := by
      intro k item hk hitem
      have hmem := mem_itemsToEnabled.mpr ⟨k, hk, hitem⟩
      rw [hnil] at hmem
      exact List.not_mem_nil hmem
    exact iff_of_true
      (replaysExactly_of_nil (replayed_enableObservers.trans (if_pos hnil)) hnone)
      (oneOwner_of_none (x := ⟨_, answer⟩) hnone)
  · have hreplayed : replayed calls ⟨.enableObservers subscriber uris subscriberId, answer⟩ observer =
        [joinedNode (itemsToEnabled calls subscriber uris subscriberId observer)] :=
      replayed_enableObservers.trans (if_neg hnil)
    rw [← hiff, ← hreplayed]
    refine ⟨ReplaysExactly.items, fun items => ⟨?_, items, fun _ => ?_⟩⟩
    · rw [hreplayed, nodup_attributed_joinedNode]
      exact nodup_itemsToEnabled
    · obtain ⟨item, hitem⟩ := List.exists_mem_of_ne_nil _ hnil
      obtain ⟨k, hk, hcached⟩ := mem_itemsToEnabled.mp hitem
      exact ⟨k, item, hk, hcached⟩

/-! ## Registrations -/

/-- The keys a registration joins. -/
def keysJoined (calls : List (PublishedExchange δ)) (subscriber : ℕ) (uris : List StdString)
    (subscriberId : Int64) : List PublishedObserverMapKey :=
  (addLocal (keysOf uris subscriberId) subscriber (some (managerAfter calls).made)
    (managerAfter calls).callbacks).localRegisterKey

theorem mentionCount_keysJoined :
    mentionCount k (keysJoined calls subscriber uris subscriberId) =
      if HasEnabled (nodesAt (managerAfter calls).callbacks k) then
        mentionCount k (keysOf uris subscriberId)
      else mentionCount k (keysOf uris subscriberId) - 1 := by
  refine (mentionCount_localRegisterKey (keysOf uris subscriberId) _).trans ?_
  exact Nat.zero_add _

theorem replayed_addObservers :
    replayed calls ⟨.addObservers subscriber uris subscriberId, answer⟩ observer =
      if observer = (managerAfter calls).made ∧
        keysJoined calls subscriber uris subscriberId ≠ [] then
          [joinedNode ((keysJoined calls subscriber uris subscriberId).filterMap (itemAt calls))]
      else [] := by
  have hcalls : SubscriberExchange.replaysBy cls calls
      ⟨.addObservers subscriber uris subscriberId, answer⟩ =
        if (keysJoined calls subscriber uris subscriberId).isEmpty then []
        else emitLocal (managerAfter calls).lastChangeNodeMap
          (keysJoined calls subscriber uris subscriberId) (managerAfter calls).made := rfl
  unfold replayed
  rw [hcalls, emitLocal_eq]
  by_cases hnil : keysJoined calls subscriber uris subscriberId = []
  · simp [hnil, callsTo]
  · by_cases hobserver : observer = (managerAfter calls).made
    · simp [hnil, hobserver, callsTo]
    · simp [hnil, hobserver, callsTo, Ne.symm hobserver]

/-- A loop names each key of a kind once exactly if no two of its turns are for one of them. -/
theorem mentionCount_le_one_iff {p : PublishedObserverMapKey → Prop}
    (hp : ∀ {k k'}, compare k k' = .eq → p k → p k') (keys : List PublishedObserverMapKey) :
    (∀ k, p k → mentionCount k keys ≤ 1) ↔
      keys.Pairwise fun key key' => p key → compare key key' ≠ .eq := by
  unfold mentionCount
  induction keys with
  | nil => simp
  | cons key keys ih =>
    rw [List.pairwise_cons, ← ih]
    constructor
    · intro h
      constructor
      · intro key' hkey' hkey heq
        have hcount := h key hkey
        rw [List.countP_cons_of_pos (by simp)] at hcount
        have hpos : 0 < keys.countP fun key' => decide (compare key key' = .eq) :=
          List.countP_pos_iff.mpr ⟨key', hkey', decide_eq_true heq⟩
        omega
      · intro k hk
        exact (List.Sublist.countP_le (List.sublist_cons_self key keys)).trans (h k hk)
    · rintro ⟨hfirst, hrest⟩ k hk
      by_cases heq : compare k key = .eq
      · have hzero : keys.countP (fun key => decide (compare k key = .eq)) = 0 := by
          refine List.countP_eq_zero.mpr fun key' hkey' heq' => hfirst key' hkey' (hp heq hk) ?_
          exact Std.TransCmp.eq_trans (Std.OrientedCmp.eq_symm heq) (of_decide_eq_true heq')
        rw [List.countP_cons_of_pos (by simpa using heq), hzero]
      · rw [List.countP_cons_of_neg (by simpa using heq)]
        exact hrest k hk

theorem nodup_items_iff (keys : List PublishedObserverMapKey) :
    ((keys.filterMap (itemAt calls)).map Prod.snd).Nodup ↔
      ∀ k item, Cached calls k item → mentionCount k keys ≤ 1 := by
  have hsame {k k' : PublishedObserverMapKey} (h : compare k k' = .eq)
      (hk : ∃ item, Cached calls k item) : ∃ item, Cached calls k' item := by
    obtain ⟨item, hitem⟩ := hk
    exact ⟨item, itemAt_eq_some.mp ((itemAt_congr h).trans (itemAt_eq_some.mpr hitem))⟩
  have hcount := mentionCount_le_one_iff hsame keys
  rw [List.Nodup, List.pairwise_map, List.pairwise_filterMap]
  refine Iff.trans ?_ (hcount.symm.trans (by simp only [forall_exists_index]))
  refine List.Pairwise.iff fun key key' => ⟨?_, ?_⟩
  · rintro h ⟨item, hitem⟩ heq
    have hother := (itemAt_congr heq).trans (itemAt_eq_some.mpr hitem)
    exact h item (itemAt_eq_some.mpr hitem) item hother rfl
  · intro h item hitem item' hitem' heq
    have hkey := mapKey_of_lastChange (itemAt_eq_some.mp hitem).2
    have hkey' := mapKey_of_lastChange (itemAt_eq_some.mp hitem').2
    rw [heq] at hkey
    exact h ⟨item, itemAt_eq_some.mp hitem⟩
      (Std.TransCmp.eq_trans hkey (Std.OrientedCmp.eq_symm hkey'))

/-- The item of a key that is joined is among those handed over. -/
theorem mem_itemsJoined {item : StdString × PublishedDataItem δ} (hitem : Cached calls k item)
    (hcount : 0 < mentionCount k (keysJoined calls subscriber uris subscriberId)) :
    item ∈ (keysJoined calls subscriber uris subscriberId).filterMap (itemAt calls) := by
  obtain ⟨key, hkey, heq⟩ := mentionCount_pos.mp hcount
  refine List.mem_filterMap.mpr ⟨key, hkey, ?_⟩
  rw [itemAt_congr heq]
  exact itemAt_eq_some.mpr hitem

/-- A registration that joins keys : what it hands over is what is to be replayed exactly if there is
something, and each cached key is named once. -/
theorem addObservers_replaysExactly_iff (hne : keysJoined calls subscriber uris subscriberId ≠ []) :
    ReplaysExactly calls ⟨.addObservers subscriber uris subscriberId, answer⟩
        (managerAfter calls).made ↔
      OneOwner calls (managerAfter calls).made (.addObservers subscriber uris subscriberId) ∧
        (∃ k item, Mentions k (keysOf uris subscriberId) ∧
          HasEnabled (nodesAt (managerAfter calls).callbacks k) ∧ Cached calls k item) ∧
        ∀ k item, Cached calls k item → mentionCount k (keysOf uris subscriberId) ≤ 1 := by
  have hreplayed : replayed calls ⟨.addObservers subscriber uris subscriberId, answer⟩
      (managerAfter calls).made =
        [joinedNode ((keysJoined calls subscriber uris subscriberId).filterMap (itemAt calls))] :=
    replayed_addObservers.trans (if_pos ⟨rfl, hne⟩)
  constructor
  · rintro ⟨once, items, quiet⟩
    rw [hreplayed] at once items quiet
    refine ⟨fun item item' hitem hitem' => ?_, ?_, fun k item hitem => ?_⟩
    · rw [(mem_attributed_joinedNode.mp ((items item).mpr hitem)).1,
        (mem_attributed_joinedNode.mp ((items item').mpr hitem')).1]
    · obtain ⟨k, item, ⟨-, hkeys, henabled⟩, hitem⟩ := quiet (by simp)
      exact ⟨k, item, hkeys, henabled, hitem⟩
    · have hcount := (nodup_items_iff _).mp (nodup_attributed_joinedNode.mp once) k item hitem
      rw [mentionCount_keysJoined] at hcount
      by_cases henabled : HasEnabled (nodesAt (managerAfter calls).callbacks k)
      · rwa [if_pos henabled] at hcount
      · -- Named twice, the key is joined to the registration's own observer.
        by_contra htwice
        have hjoined : 0 < mentionCount k (keysJoined calls subscriber uris subscriberId) := by
          rw [mentionCount_keysJoined, if_neg henabled]
          omega
        obtain ⟨k', ⟨-, -, henabled'⟩, hitem'⟩ := (items (_, item.2)).mp
          (mem_attributed_joinedNode.mpr ⟨rfl, item, mem_itemsJoined hitem hjoined, rfl⟩)
        have hkey' := mapKey_of_lastChange hitem'.2
        have hkey := Std.OrientedCmp.eq_symm (mapKey_of_lastChange hitem.2)
        rw [← nodesAt_congr (Std.TransCmp.eq_trans hkey' hkey)] at henabled'
        exact henabled henabled'
  · rintro ⟨howner, ⟨k, item, hkeys, henabled, hitem⟩, hcount⟩
    have hjoined (k : PublishedObserverMapKey) (item : StdString × PublishedDataItem δ)
        (hitem : Cached calls k item) :
        0 < mentionCount k (keysJoined calls subscriber uris subscriberId) ↔
          Mentions k (keysOf uris subscriberId) ∧
            HasEnabled (nodesAt (managerAfter calls).callbacks k) := by
      have honce := hcount k item hitem
      rw [mentionCount_keysJoined, ← mentionCount_pos]
      split
      · next h => simp [h]
      · next h =>
        simp only [h, and_false, iff_false]
        omega
    refine ⟨?_, ?_, fun _ => ⟨k, item, ⟨rfl, hkeys, henabled⟩, hitem⟩⟩
    · rw [hreplayed, nodup_attributed_joinedNode, nodup_items_iff]
      intro k item hitem
      have honce := hcount k item hitem
      rw [mentionCount_keysJoined]
      split <;> omega
    · rw [hreplayed]
      refine (attributed_joinedNode_iff fun item => ?_).mpr howner
      constructor
      · intro hmem
        obtain ⟨key, hkey, hitem⟩ := List.mem_filterMap.mp hmem
        have hcached := itemAt_eq_some.mp hitem
        obtain ⟨hkeys, henabled⟩ := (hjoined key item hcached).mp
          (mentionCount_pos.mpr ⟨key, hkey, Std.ReflCmp.compare_self⟩)
        exact ⟨key, ⟨rfl, hkeys, henabled⟩, hcached⟩
      · rintro ⟨k, ⟨-, hkeys, henabled⟩, hcached⟩
        exact mem_itemsJoined hcached ((hjoined k item hcached).mpr ⟨hkeys, henabled⟩)

/-- A registration joins no key exactly if it names none twice and none with an enabled observer. -/
theorem keysJoined_eq_nil_iff : keysJoined calls subscriber uris subscriberId = [] ↔
    ∀ k, Mentions k (keysOf uris subscriberId) → mentionCount k (keysOf uris subscriberId) = 1 ∧
      ¬ HasEnabled (nodesAt (managerAfter calls).callbacks k) := by
  have hnil : keysJoined calls subscriber uris subscriberId = [] ↔
      ∀ k, mentionCount k (keysJoined calls subscriber uris subscriberId) = 0 := by
    constructor
    · intro h k
      rw [h]
      rfl
    · intro h
      refine List.eq_nil_iff_forall_not_mem.mpr fun key hkey => ?_
      have hpos := mentionCount_pos.mpr ⟨key, hkey, Std.ReflCmp.compare_self⟩
      rw [h key] at hpos
      exact Nat.lt_irrefl 0 hpos
  rw [hnil]
  refine forall_congr' fun k => ?_
  rw [mentionCount_keysJoined, ← mentionCount_pos]
  split
  · next h =>
    simp only [h, not_true_eq_false, and_false, imp_false, not_lt, Nat.le_zero]
  · next h =>
    simp only [h, not_false_eq_true, and_true]
    omega

/-! ## All calls -/

theorem replayed_delObservers :
    replayed calls ⟨.delObservers subscriber uris subscriberId, answer⟩ observer = [] := by
  obtain ⟨order, keys, hdel⟩ := delObservers_eq_delKeys cls (managerAfter calls) subscriber uris
    subscriberId answer
  exact congrArg (fun served : PublishedServed δ => callsTo observer served.calls) hdel

/-- In every state that is reached, the observers are handed what is to be replayed to them, each item
under the owner of its change, exactly if these owners are one, and a registration joins keys of
which some has an item and none with one twice. -/
theorem replaysExactly_iff (calls : List (PublishedExchange δ)) (x : PublishedExchange δ)
    (observer : ℕ) : ReplaysExactly calls x observer ↔
      OneOwner calls observer x.call ∧
        ∀ subscriber uris subscriberId, x.call = .addObservers subscriber uris subscriberId →
          observer = (managerAfter calls).made → JoinsExactly calls uris subscriberId := by
  obtain ⟨call, answer⟩ := x
  cases call with
  | addObservers subscriber uris subscriberId =>
    have hcall : (∀ subscriber' uris' subscriberId',
        SubscriberCall.addObservers (ε := PublishedDataChangeNode δ) subscriber uris subscriberId =
            .addObservers subscriber' uris' subscriberId' →
          observer = (managerAfter calls).made → JoinsExactly calls uris' subscriberId') ↔
        (observer = (managerAfter calls).made → JoinsExactly calls uris subscriberId) := by
      simp
    dsimp only
    rw [hcall]
    by_cases hobserver : observer = (managerAfter calls).made
    · subst hobserver
      by_cases hnil : keysJoined calls subscriber uris subscriberId = []
      · have halone := keysJoined_eq_nil_iff.mp hnil
        have hnone : ∀ k item, Replays calls (managerAfter calls).made k
            (.addObservers subscriber uris subscriberId) → ¬ Cached calls k item := by
          rintro k item ⟨-, hkeys, henabled⟩
          exact absurd henabled (halone k hkeys).2
        refine iff_of_true (replaysExactly_of_nil ?_ hnone)
          ⟨oneOwner_of_none (x := ⟨_, answer⟩) hnone, fun _ => .inl halone⟩
        exact replayed_addObservers.trans (if_neg fun h => h.2 hnil)
      · rw [addObservers_replaysExactly_iff hnil]
        refine and_congr_right fun _ => ⟨fun h _ => .inr h, fun h => ?_⟩
        exact (h rfl).resolve_left fun halone => hnil (keysJoined_eq_nil_iff.mpr halone)
    · have hnone : ∀ k item, Replays calls observer k
          (.addObservers subscriber uris subscriberId) → ¬ Cached calls k item :=
        fun k item h => absurd h.1 hobserver
      refine iff_of_true (replaysExactly_of_nil ?_ hnone)
        ⟨oneOwner_of_none (x := ⟨_, answer⟩) hnone, fun h => absurd h hobserver⟩
      exact replayed_addObservers.trans (if_neg fun h => hobserver h.1)
  | enableObservers subscriber uris subscriberId =>
    rw [enableObservers_replaysExactly_iff]
    simp
  | delObservers subscriber uris subscriberId =>
    refine iff_of_true (replaysExactly_of_nil replayed_delObservers fun _ _ h => h.elim) ⟨?_, by simp⟩
    exact oneOwner_of_none (x := ⟨_, answer⟩) fun _ _ h => h.elim
  | _ =>
    refine iff_of_true (replaysExactly_of_nil rfl fun _ _ h => h.elim) ⟨?_, by simp⟩
    exact oneOwner_of_none (x := ⟨_, answer⟩) fun _ _ h => h.elim

end Calls

/-! ## Two owners -/

/-- An observer of two keys, which change under different owners. -/
def twoOwners : List (PublishedExchange ℕ) :=
  [⟨.addObservers 1 [[117], [118]] 1, fun _ => .replied errOk⟩,
    ⟨.emit ⟨[97], [⟨[117], 1, 7⟩]⟩, fun _ => .replied errOk⟩,
    ⟨.emit ⟨[98], [⟨[118], 1, 8⟩]⟩, fun _ => .replied errOk⟩]

/-- Another observer of them is handed both items under the second owner. -/
theorem not_replaysExactly_twoOwners : ¬ ReplaysExactly twoOwners
    ⟨.addObservers 2 [[117], [118]] 1, fun _ => .replied errOk⟩ 1 := by
  rintro ⟨-, items, -⟩
  obtain ⟨k, -, hcached⟩ := (items ([98], ⟨[117], 1, 7⟩)).mp (by decide +kernel)
  have hfind := cached_iff.mp hcached
  rw [OrderedMap.find?_congr (mapKey_of_lastChange hcached.2)] at hfind
  revert hfind
  decide +kernel

end PublishedDataSubscriberManager

end Cpp

end DataShare
