import DataShare.PublishedKeys
import DataShare.ProxyDataEmission
import DataShare.CppPublishedData

/-!
# Delivery of published data

A change node carries items for several keys, and an observer is registered for some of them. The
C++ `PublishedDataSubscriberManager` joins the two by observer : each observer is called once, with
the items of the keys it is enabled for (`Cpp.PublishedDataSubscriberManager.callsTo_emit`), each
once if no call registers an observer twice for a key (`callsTo_emit_of_once`).

The Rust manager joins them by item. Every enabled entry at the key of an item is called, with the
whole node. An observer gets what is its own exactly if either no item is for it, or all of them are
and only one entry of it is called (`emit_joins_iff`).
-/

namespace DataShare

/-- What an observer is called with for the items of a change that are its own. -/
def joined {α ν : Type} (node : List α → ν) (items : List α) : List ν :=
  if items.isEmpty then [] else [node items]

/-! ## The C++ manager -/

namespace Cpp

namespace PublishedDataSubscriberManager

open CallbacksManager

variable {δ : Type} {observer : ℕ} {changeNode : PublishedDataChangeNode δ}
  {manager : PublishedDataSubscriberManager δ} {k : PublishedObserverMapKey}

/-- The turns of an item in the results, one for each enabled node of its key. -/
def deliveriesOf (callbacks : Callbacks) (data : PublishedDataItem δ) :
    List (ℕ × PublishedDataItem δ) :=
  (getEnabledObservers callbacks data.mapKey).map fun obs => (obs, data)

/-- The items an observer is called with. -/
def itemsTo (observer : ℕ) (changeNode : PublishedDataChangeNode δ) (callbacks : Callbacks) :
    List (PublishedDataItem δ) :=
  callsTo observer (changeNode.datas.flatMap (deliveriesOf callbacks))

/-- To flag disabled nodes changes no set of enabled observers. -/
theorem getEnabledObservers_setObserversNotifiedOnEnabled (key k : PublishedObserverMapKey)
    (callbacks : Callbacks) :
    getEnabledObservers (setObserversNotifiedOnEnabled key callbacks) k =
      getEnabledObservers callbacks k := by
  have hflag (nodes : List (ObserverNode ℕ ℕ)) :
      enabledObservers (setDisabledNotifiedOn nodes) = enabledObservers nodes := by
    unfold enabledObservers setDisabledNotifiedOn
    rw [List.filterMap_map]
    refine List.filterMap_congr fun node _ => ?_
    by_cases henabled : node.enabled = true
    · simp [henabled]
    · simp [henabled]
  rw [getEnabledObservers_eq, getEnabledObservers_eq, nodesAt_setObserversNotifiedOnEnabled]
  split
  · exact hflag _
  · rfl

theorem emitItems_eq (ownerBundleName : StdString) (datas : List (PublishedDataItem δ)) :
    ∀ acc : Emitting δ,
      (∀ k, getEnabledObservers (datas.foldl (emitItem ownerBundleName) acc).callbacks k =
        getEnabledObservers acc.callbacks k) ∧
      (datas.foldl (emitItem ownerBundleName) acc).results =
        (datas.flatMap (deliveriesOf acc.callbacks)).foldl
          (fun results e => results.upsert e.1 fun old => old.getD [] ++ [e.2]) acc.results := by
  induction datas with
  | nil => exact fun acc => ⟨fun _ => rfl, rfl⟩
  | cons data datas ih =>
    intro acc
    have hsame (k : PublishedObserverMapKey) :
        getEnabledObservers (emitItem ownerBundleName acc data).callbacks k =
          getEnabledObservers acc.callbacks k :=
      getEnabledObservers_setObserversNotifiedOnEnabled _ _ _
    have hturns : deliveriesOf (δ := δ) (emitItem ownerBundleName acc data).callbacks =
        deliveriesOf acc.callbacks :=
      funext fun other => by rw [deliveriesOf, hsame, deliveriesOf]
    obtain ⟨hcallbacks, hresults⟩ := ih (emitItem ownerBundleName acc data)
    refine ⟨fun k => (hcallbacks k).trans (hsame k), ?_⟩
    rw [List.foldl_cons, hresults, hturns, List.flatMap_cons, List.foldl_append]
    congr 1
    unfold emitItem deliveriesOf
    dsimp only
    rw [getEnabledObservers_setObserversNotifiedOnEnabled, List.foldl_map]

/-- An observer is called once, with its items in order, and not at all without any. -/
theorem callsTo_emit (observer : ℕ) (changeNode : PublishedDataChangeNode δ)
    (manager : PublishedDataSubscriberManager δ) :
    callsTo observer (emit changeNode manager).2 =
      joined (PublishedDataChangeNode.mk changeNode.ownerBundleName)
        (itemsTo observer changeNode manager.callbacks) := by
  have hresults := (emitItems_eq changeNode.ownerBundleName changeNode.datas
    ⟨manager.callbacks, manager.lastChangeNodeMap, .empty⟩).2
  dsimp only at hresults
  unfold callsTo emit
  dsimp only
  rw [hresults, List.filter_map, List.map_map]
  have hcomp : ((fun call : ℕ × PublishedDataChangeNode δ => decide (call.1 = observer)) ∘
      fun e : ℕ × List (PublishedDataItem δ) =>
        (e.1, PublishedDataChangeNode.mk changeNode.ownerBundleName e.2)) =
      fun e => decide (e.1 = observer) := rfl
  rw [hcomp, OrderedMap.filter_entries_eq, OrderedMap.find?_foldl_append]
  unfold joined itemsTo callsTo
  by_cases hnone : ((changeNode.datas.flatMap (deliveriesOf manager.callbacks)).filter
      fun e => e.1 = observer) = []
  · simp [hnone]
  · simp [hnone]

theorem itemsTo_eq (observer : ℕ) (changeNode : PublishedDataChangeNode δ) (callbacks : Callbacks) :
    itemsTo observer changeNode callbacks = changeNode.datas.flatMap fun data =>
      List.replicate ((getEnabledObservers callbacks data.mapKey).count observer) data := by
  unfold itemsTo callsTo
  rw [List.filter_flatMap, List.map_flatMap]
  refine List.flatMap_congr fun data _ => ?_
  unfold deliveriesOf
  rw [List.filter_map, List.map_map]
  induction getEnabledObservers callbacks data.mapKey with
  | nil => rfl
  | cons obs others ih =>
    by_cases hobs : obs = observer
    · rw [List.filter_cons_of_pos (by simpa using hobs), List.map_cons, ih, hobs,
        List.count_cons_self, List.replicate_succ]
      rfl
    · rw [List.filter_cons_of_neg (by simpa using hobs), ih, List.count_cons_of_ne hobs]

/-- The observer is enabled for the key of the item. -/
def isFor (observer : ℕ) (callbacks : Callbacks) (data : PublishedDataItem δ) : Bool :=
  (getEnabledObservers callbacks data.mapKey).contains observer

/-- With one node for a key at most, the observer gets the items of the keys it is enabled for. -/
theorem callsTo_emit_of_once (h : ∀ data ∈ changeNode.datas,
    (getEnabledObservers manager.callbacks data.mapKey).count observer ≤ 1) :
    callsTo observer (emit changeNode manager).2 =
      joined (PublishedDataChangeNode.mk changeNode.ownerBundleName)
        (changeNode.datas.filter (isFor observer manager.callbacks)) := by
  rw [callsTo_emit, itemsTo_eq]
  congr 1
  generalize changeNode.datas = datas at h
  induction datas with
  | nil => rfl
  | cons data datas ih =>
    obtain ⟨honce, hothers⟩ := List.forall_mem_cons.mp h
    rw [List.flatMap_cons, ih hothers]
    by_cases hfor : observer ∈ getEnabledObservers manager.callbacks data.mapKey
    · have hpos := List.count_pos_iff.mpr hfor
      have hcount : (getEnabledObservers manager.callbacks data.mapKey).count observer = 1 := by
        omega
      rw [hcount, List.filter_cons_of_pos (by simpa [isFor] using hfor)]
      rfl
    · rw [List.count_eq_zero_of_not_mem hfor, List.filter_cons_of_neg (by simpa [isFor] using hfor)]
      rfl

end PublishedDataSubscriberManager

end Cpp

/-! ## The Rust manager -/

namespace Rust

instance : Std.LawfulEqOrd PublishedObserverMapKey where
  eq_of_compare := PublishedObserverMapKey.compare_eq_iff.mp

namespace PublishedDataSubscriberManager

variable {ω δ : Type} {observer : ℕ} {changeNode : PublishedDataChangeNode δ}
  {self : PublishedDataSubscriberManager ℕ δ}

/-- The call with the observer it registers numbered. -/
def Call.numbered (n : ℕ) : Call ω δ → Call ℕ δ
  | .addObservers subscriber uris subscriberId _ => .addObservers subscriber uris subscriberId n
  | .delObservers subscriber uris subscriberId => .delObservers subscriber uris subscriberId
  | .delAllObservers subscriber => .delAllObservers subscriber
  | .enableObservers subscriber uris subscriberId => .enableObservers subscriber uris subscriberId
  | .disableObservers subscriber uris subscriberId => .disableObservers subscriber uris subscriberId
  | .recoverObservers => .recoverObservers
  | .emit changeNode => .emit changeNode

/-- A run whose observers are told apart by the calls that registered them. -/
def numbered (calls : List (Exchange ω δ)) : List (Exchange ℕ δ) :=
  calls.mapIdx fun n x => ⟨x.call.numbered n, x.answer⟩

/-- An entry of the observer that is to be called. -/
def Serves (observer : ℕ) (entry : SubscriberEntry ℕ) : Prop :=
  entry.observer = observer ∧ entry.enabled = true

instance : DecidablePred (Serves observer) := fun _ => instDecidableAnd

/-- The entries of the observer that are called for the item. -/
def entriesFor (observer : ℕ) (self : PublishedDataSubscriberManager ℕ δ)
    (data : PublishedDataItem δ) : List (SubscriberEntry ℕ) :=
  ((self.callbacks.find? data.mapKey).getD []).filter (Serves observer)

/-- The observer is enabled for the uri of the item without its query, and its subscriber id. -/
def isFor (observer : ℕ) (self : PublishedDataSubscriberManager ℕ δ)
    (data : PublishedDataItem δ) : Bool :=
  self.callbacks.entries.any fun e => e.1.clearUri = data.mapKey.clearUri ∧
    e.1.subscriberId = data.subscriberId ∧ ∃ entry ∈ e.2, Serves observer entry

/-- The observer is called once with its own items in order, and not at all without any. -/
def Joins (observer : ℕ) (changeNode : PublishedDataChangeNode δ)
    (self : PublishedDataSubscriberManager ℕ δ) : Prop :=
  callsTo observer (emit changeNode self).calls =
    joined (PublishedDataChangeNode.mk changeNode.ownerBundleName)
      (changeNode.datas.filter (isFor observer self))

/-- All items are for the observer, and one entry of it is called for them. -/
structure Owns (observer : ℕ) (changeNode : PublishedDataChangeNode δ)
    (self : PublishedDataSubscriberManager ℕ δ) : Prop where
  all : ∀ data ∈ changeNode.datas, isFor observer self data = true
  once : (changeNode.datas.flatMap (entriesFor observer self)).length = 1

theorem enabledAt_recorded (ownerBundleName : String) (datas : List (PublishedDataItem δ))
    (data : PublishedDataItem δ) :
    enabledAt data.mapKey (datas.foldl (recordItem ownerBundleName) self) =
      enabledAt data.mapKey self := by
  have hflag (entries : List (SubscriberEntry ℕ)) :
      ((flagDisabled entries).filter SubscriberEntry.enabled).map SubscriberEntry.observer =
        (entries.filter SubscriberEntry.enabled).map SubscriberEntry.observer := by
    induction entries with
    | nil => rfl
    | cons entry entries ih =>
      unfold flagDisabled at ih ⊢
      by_cases henabled : entry.enabled = true
      · simp [henabled, ih]
      · simp [henabled, ih]
  have hrecorded : entriesAt data.key data.subscriberId (datas.foldl (recordItem ownerBundleName) self) =
      if ∃ other ∈ datas, other.mapKey = .new data.key data.subscriberId then
        flagDisabled (entriesAt data.key data.subscriberId self)
      else entriesAt data.key data.subscriberId self := entriesAt_recorded ownerBundleName datas
  unfold entriesAt at hrecorded
  unfold enabledAt
  change ((((datas.foldl (recordItem ownerBundleName) self).callbacks.find?
    (.new data.key data.subscriberId)).getD []).filter _).map _ = _
  rw [hrecorded]
  split
  · exact hflag _
  · rfl

/-- Each entry at the key of an item is called with the whole node. -/
theorem callsTo_emit (observer : ℕ) (changeNode : PublishedDataChangeNode δ)
    (self : PublishedDataSubscriberManager ℕ δ) :
    callsTo observer (emit changeNode self).calls =
      (changeNode.datas.flatMap (entriesFor observer self)).map fun _ => changeNode := by
  unfold callsTo emit
  dsimp only
  rw [List.filter_flatMap, List.map_flatMap, List.map_flatMap]
  refine List.flatMap_congr fun data _ => ?_
  rw [enabledAt_recorded]
  unfold enabledAt entriesFor
  rw [List.filter_map, List.map_map, List.filter_map, List.map_map, List.filter_filter]
  refine congrArg₂ List.map rfl (List.filter_congr fun entry _ => ?_)
  rw [Bool.eq_iff_iff, decide_eq_true_iff]
  simp [Serves]

theorem isFor_of_mem_entriesFor {entry : SubscriberEntry ℕ} {data : PublishedDataItem δ}
    (h : entry ∈ entriesFor observer self data) : isFor observer self data = true := by
  obtain ⟨hentry, hserves⟩ := List.mem_filter.mp h
  cases hfind : self.callbacks.find? data.mapKey with
  | none =>
    rw [hfind] at hentry
    exact absurd hentry List.not_mem_nil
  | some entries =>
    rw [hfind] at hentry
    refine List.any_eq_true.mpr ⟨_, OrderedMap.mem_entries_iff.mpr hfind, ?_⟩
    exact decide_eq_true ⟨rfl, rfl, entry, hentry, of_decide_eq_true hserves⟩

theorem flatMap_entriesFor_eq_nil
    (h : ∀ data ∈ changeNode.datas, isFor observer self data = false) :
    changeNode.datas.flatMap (entriesFor observer self) = [] := by
  refine List.flatMap_eq_nil_iff.mpr fun data hdata => List.eq_nil_iff_forall_not_mem.mpr ?_
  intro entry hentry
  have hfor := isFor_of_mem_entriesFor hentry
  rw [h data hdata] at hfor
  exact absurd hfor (by simp)

/-- The Rust manager calls an observer as the C++ one does exactly if no item is for it, or all are
and one entry of it is called. -/
theorem emit_joins_iff (calls : List (Exchange ω δ)) (changeNode : PublishedDataChangeNode δ)
    (observer : ℕ) :
    Joins observer changeNode (managerAfter (numbered calls)) ↔
      (∀ data ∈ changeNode.datas, isFor observer (managerAfter (numbered calls)) data = false) ∨
        Owns observer changeNode (managerAfter (numbered calls)) := by
  generalize managerAfter (numbered calls) = self
  unfold Joins
  rw [callsTo_emit, List.map_const']
  by_cases hnone : ∀ data ∈ changeNode.datas, isFor observer self data = false
  · have hitems : changeNode.datas.filter (isFor observer self) = [] :=
      List.filter_eq_nil_iff.mpr fun data hdata => by simp [hnone data hdata]
    rw [flatMap_entriesFor_eq_nil hnone, hitems]
    exact iff_of_true rfl (.inl hnone)
  · have hitems : changeNode.datas.filter (isFor observer self) ≠ [] := by
      intro hnil
      refine hnone fun data hdata => ?_
      simpa using List.filter_eq_nil_iff.mp hnil data hdata
    rw [joined, if_neg (by simpa using hitems)]
    constructor
    · intro h
      have honce := congrArg List.length h
      rw [List.length_replicate, List.length_singleton] at honce
      rw [honce, List.replicate_one, List.singleton_inj] at h
      refine .inr ⟨List.filter_eq_self.mp ?_, honce⟩
      exact (congrArg PublishedDataChangeNode.datas h).symm
    · rintro (h | ⟨hall, honce⟩)
      · exact absurd h hnone
      · rw [honce, List.filter_eq_self.mpr hall]
        rfl

/-! ## Two keys -/

/-- An observer of one key. -/
def oneTopic : List (Exchange Unit ℕ) :=
  [⟨.addObservers 1 ["topic"] 1 (), fun _ => .replied errOk⟩]

/-- The observer is handed the item of another key. -/
theorem not_joins_oneTopic :
    ¬ Joins 0 ⟨"owner", [⟨"topic", 1, 7⟩, ⟨"other", 1, 8⟩]⟩ (managerAfter (numbered oneTopic)) := by
  unfold Joins
  decide +kernel

end PublishedDataSubscriberManager

end Rust

end DataShare
