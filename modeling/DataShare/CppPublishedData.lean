import DataShare.CppSubscriberManager

/-!
# The C++ manager of published data

`PublishedDataSubscriberManager` keys its observers by the uri without the query and by the id of
the subscriber. A change carries items for several keys : each is cached for its key, whether or
not an observer is registered for it, and every observer is called once with all items it is
enabled for. Replays of cached items are joined in the same way.

`recoverObservers` subscribes all keys again after a restart of the service, in one request for
each subscriber id and without their status.
-/

namespace DataShare

namespace Cpp

/-- A key as its constructor makes it. -/
structure PublishedObserverMapKey extends ClearedUri where
  subscriberId : Int64
  deriving DecidableEq

def PublishedObserverMapKey.new (uri : StdString) (subscriberId : Int64) :
    PublishedObserverMapKey where
  toClearedUri := .new uri
  subscriberId := subscriberId

/-- `operator<` leaves the uri itself out. -/
instance : Ord PublishedObserverMapKey where
  compare := compareLex (compareOn fun key : PublishedObserverMapKey => key.clearUri)
    (compareOn PublishedObserverMapKey.subscriberId)

instance : Std.TransOrd PublishedObserverMapKey :=
  inferInstanceAs (Std.TransCmp (compareLex _ _))

theorem PublishedObserverMapKey.compare_eq_iff {key key' : PublishedObserverMapKey} :
    compare key key' = .eq ↔
      key.clearUri = key'.clearUri ∧ key.subscriberId = key'.subscriberId := by
  have hclear : compare key.clearUri key'.clearUri = .eq ↔ key.clearUri = key'.clearUri :=
    Std.LawfulEqCmp.compare_eq_iff_eq
  have hid : compare key.subscriberId key'.subscriberId = .eq ↔
      key.subscriberId = key'.subscriberId := Std.LawfulEqCmp.compare_eq_iff_eq
  rw [← hclear, ← hid]
  exact Ordering.then_eq_eq

/-- `data` is what `GetData` reads. -/
structure PublishedDataItem (δ : Type) where
  key : StdString
  subscriberId : Int64
  data : δ
  deriving DecidableEq

/-- The key an item is published for. -/
def PublishedDataItem.mapKey {δ : Type} (item : PublishedDataItem δ) : PublishedObserverMapKey :=
  .new item.key item.subscriberId

structure PublishedDataChangeNode (δ : Type) where
  ownerBundleName : StdString
  datas : List (PublishedDataItem δ)
  deriving DecidableEq

/-- The arguments of a call of `SubscribePublishedData`. -/
structure SubscribePublishedData where
  uris : List StdString
  subscriberId : Int64

abbrev PublishedDataSubscriberManager (δ : Type) :=
  SubscriberManager PublishedObserverMapKey (PublishedDataChangeNode δ)

abbrev PublishedServed (δ : Type) :=
  Served PublishedObserverMapKey (PublishedDataChangeNode δ) (PublishedDataChangeNode δ)

abbrev PublishedExchange (δ : Type) := SubscriberExchange Int64 (PublishedDataChangeNode δ)

namespace PublishedDataSubscriberManager

variable {δ : Type}

abbrev NodeMap (δ : Type) := OrderedMap PublishedObserverMapKey (PublishedDataChangeNode δ)

abbrev Callbacks := CallbacksManager.Callbacks PublishedObserverMapKey ℕ ℕ

/-! ## Changes -/

/-- The state of the loop over the items of a change. `results` is in the order of the observers'
numbers, which stand for their addresses. -/
structure Emitting (δ : Type) where
  callbacks : Callbacks
  lastChangeNodeMap : NodeMap δ
  results : OrderedMap ℕ (List (PublishedDataItem δ))

def emitItem (ownerBundleName : StdString) (acc : Emitting δ) (data : PublishedDataItem δ) :
    Emitting δ :=
  let callbacks := CallbacksManager.setObserversNotifiedOnEnabled data.mapKey acc.callbacks
  { callbacks
    lastChangeNodeMap := acc.lastChangeNodeMap.assign data.mapKey ⟨ownerBundleName, [data]⟩
    results := (CallbacksManager.getEnabledObservers callbacks data.mapKey).foldl
      (fun results obs => results.upsert obs fun old => old.getD [] ++ [data]) acc.results }

/-- `Emit(changeNode)`. -/
def emit (changeNode : PublishedDataChangeNode δ) (manager : PublishedDataSubscriberManager δ) :
    PublishedDataSubscriberManager δ × List (ℕ × PublishedDataChangeNode δ) :=
  let emitted := changeNode.datas.foldl (emitItem changeNode.ownerBundleName)
    ⟨manager.callbacks, manager.lastChangeNodeMap, .empty⟩
  ({ manager with
      callbacks := emitted.callbacks
      lastChangeNodeMap := emitted.lastChangeNodeMap },
    emitted.results.entries.map fun e => (e.1, ⟨changeNode.ownerBundleName, e.2⟩))

/-- The turn of a key in `Emit(keys, observer)`. -/
def appendCached (lastChangeNodeMap : NodeMap δ) (node : PublishedDataChangeNode δ)
    (key : PublishedObserverMapKey) : PublishedDataChangeNode δ :=
  match lastChangeNodeMap.find? key with
  | none => node
  | some value => ⟨value.ownerBundleName, node.datas ++ value.datas⟩

/-- `Emit(keys, observer)` calls the observer also if no item is cached. -/
def emitLocal (lastChangeNodeMap : NodeMap δ) (keys : List PublishedObserverMapKey)
    (observer : ℕ) : List (ℕ × PublishedDataChangeNode δ) :=
  [(observer, keys.foldl (appendCached lastChangeNodeMap) ⟨[], []⟩)]

/-- The turn of an observer, for an item of a cached node. -/
def refreshObserver (ownerBundleName : StdString) (data : PublishedDataItem δ)
    (results : OrderedMap ℕ (PublishedDataChangeNode δ)) (obs : Option ℕ × Bool) :
    OrderedMap ℕ (PublishedDataChangeNode δ) :=
  match obs with
  | (some observer, true) =>
    results.upsert observer fun old =>
      ⟨ownerBundleName, (old.getD ⟨[], []⟩).datas ++ [data]⟩
  | _ => results

/-- The turn of a key, with the observers that are enabled for it. -/
def refreshKey (lastChangeNodeMap : NodeMap δ)
    (results : OrderedMap ℕ (PublishedDataChangeNode δ))
    (entry : PublishedObserverMapKey × List (Option ℕ × Bool)) :
    OrderedMap ℕ (PublishedDataChangeNode δ) :=
  match lastChangeNodeMap.find? entry.1 with
  | none => results
  | some value =>
    value.datas.foldl (fun results data =>
      entry.2.foldl (refreshObserver value.ownerBundleName data) results) results

def emitOnEnable (lastChangeNodeMap : NodeMap δ) (_callbacks : Callbacks)
    (obsMap : RefreshObservers PublishedObserverMapKey) : List (ℕ × PublishedDataChangeNode δ) :=
  (obsMap.entries.foldl (refreshKey lastChangeNodeMap) .empty).entries

/-- The keys in the requests of `DelObservers(subscriber)`, one request for each subscriber id. -/
def keysBySubscriberId (keys : List PublishedObserverMapKey) : List PublishedObserverMapKey :=
  let keysMap : OrderedMap Int64 (List PublishedObserverMapKey) := keys.foldl
    (fun keysMap key => keysMap.upsert key.subscriberId fun old => old.getD [] ++ [key]) .empty
  keysMap.entries.flatMap Prod.snd

def cls : ManagerClass Int64 PublishedObserverMapKey (PublishedDataChangeNode δ)
    (PublishedDataChangeNode δ) (PublishedDataChangeNode δ) where
  keyOf := .new
  unsubscribeOrder := keysBySubscriberId
  emitLocal := emitLocal
  emitOnEnable := emitOnEnable
  emit := emit

/-! ## Registration -/

def addObservers (subscriber : ℕ) (uris : List StdString) (subscriberId : Int64)
    (answer : ℕ → Answer) (manager : PublishedDataSubscriberManager δ) : PublishedServed δ :=
  SubscriberManager.addObservers cls subscriber uris subscriberId answer manager

def delObservers (subscriber : ℕ) (uris : List StdString) (subscriberId : Int64)
    (answer : ℕ → Answer) (manager : PublishedDataSubscriberManager δ) : PublishedServed δ :=
  SubscriberManager.delObservers cls subscriber uris subscriberId answer manager

def enableObservers (subscriber : ℕ) (uris : List StdString) (subscriberId : Int64)
    (answer : ℕ → Answer) (manager : PublishedDataSubscriberManager δ) : PublishedServed δ :=
  SubscriberManager.enableObservers cls subscriber uris subscriberId answer manager

def disableObservers (subscriber : ℕ) (uris : List StdString) (subscriberId : Int64)
    (answer : ℕ → Answer) (manager : PublishedDataSubscriberManager δ) : PublishedServed δ :=
  SubscriberManager.disableObservers cls subscriber uris subscriberId answer manager

/-- `keysMap`, one entry for each subscriber id. -/
def recoverObservers (manager : PublishedDataSubscriberManager δ) : List SubscribePublishedData :=
  let keysMap : OrderedMap Int64 (List StdString) := manager.callbacks.keys.foldl
    (fun keysMap key => keysMap.upsert key.subscriberId fun old => old.getD [] ++ [key.uri]) .empty
  keysMap.entries.map fun entry => ⟨entry.2, entry.1⟩

/-- A run, oldest call first. -/
def managerAfter (calls : List (PublishedExchange δ)) : PublishedDataSubscriberManager δ :=
  SubscriberExchange.managerAfter cls calls

/-- What a call leaves and hands to observers, after a run. -/
def served (calls : List (PublishedExchange δ)) (x : PublishedExchange δ) : PublishedServed δ :=
  x.outcome cls (managerAfter calls)

end PublishedDataSubscriberManager

end Cpp

end DataShare
