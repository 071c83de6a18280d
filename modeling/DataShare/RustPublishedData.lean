import DataShare.RdbSubscriberManager
import DataShare.History

/-!
# The Rust manager of published data

`PublishedDataSubscriberManager` keeps the subscriber entries of every key and the last item
that was published for the key. A key holds the uri it was made from next to the uri without the
query, and its derived order compares all its fields.

An operation gives the manager after it, its requests to the service, the callbacks it
makes with the node each is handed, and its results.
-/

namespace DataShare

namespace Rust

structure PublishedObserverMapKey where
  uri : String
  clearUri : String
  subscriberId : Int
  deriving DecidableEq

def PublishedObserverMapKey.new (uri : String) (subscriberId : Int) : PublishedObserverMapKey where
  uri := uri
  clearUri := clearUriOf uri
  subscriberId := subscriberId

/-- The derived order : field after field. -/
instance : Ord PublishedObserverMapKey where
  compare := compareLex (compareOn PublishedObserverMapKey.uri)
    (compareLex (compareOn PublishedObserverMapKey.clearUri)
      (compareOn PublishedObserverMapKey.subscriberId))

instance : Std.TransOrd PublishedObserverMapKey :=
  inferInstanceAs (Std.TransCmp (compareLex _ _))

/-- `data` is what `get_data` reads, a string or the bytes of the shared memory. -/
structure PublishedDataItem (δ : Type) where
  key : String
  subscriberId : Int
  data : δ
  deriving DecidableEq

structure PublishedDataChangeNode (δ : Type) where
  ownerBundleName : String
  datas : List (PublishedDataItem δ)
  deriving DecidableEq

/-- The key an item is published for. -/
def PublishedDataItem.mapKey {δ : Type} (data : PublishedDataItem δ) : PublishedObserverMapKey :=
  .new data.key data.subscriberId

structure PublishedDataSubscriberManager (ω δ : Type) where
  callbacks : OrderedMap PublishedObserverMapKey (List (SubscriberEntry ω))
  lastChangeNodeMap : OrderedMap PublishedObserverMapKey (PublishedDataChangeNode δ)

structure PublishedOutcome (ω δ : Type) where
  manager : PublishedDataSubscriberManager ω δ
  requests : List (Request PublishedObserverMapKey)
  calls : List (ω × PublishedDataChangeNode δ)
  result : List (OperationResult PublishedObserverMapKey)

/-- The code of a key without the subscriber. -/
def subscriberMissing : Int := -1

/-- The keys of an operation's uris. -/
def publishedKeys (uris : List String) (subscriberId : Int) : List PublishedObserverMapKey :=
  uris.map fun uri => PublishedObserverMapKey.new uri subscriberId

section Entries

variable {ω : Type}

/-- Enable the entry at `position(|e| e.subscriber == subscriber)`. -/
def enableFirstEntry (subscriber : ℕ) : List (SubscriberEntry ω) → List (SubscriberEntry ω)
  | [] => []
  | entry :: entries =>
    if entry.subscriber = subscriber then { entry with enabled := true } :: entries
    else entry :: enableFirstEntry subscriber entries

/-- Undo an enable the service refused : the flags of missed changes stay. -/
def disableRefused (subscriber : ℕ) (entries : List (SubscriberEntry ω)) :
    List (SubscriberEntry ω) :=
  entries.map fun entry =>
    if entry.subscriber = subscriber then { entry with enabled := false } else entry

/-- Flag the entries that miss a change. -/
def flagDisabled (entries : List (SubscriberEntry ω)) : List (SubscriberEntry ω) :=
  entries.map fun entry => if entry.enabled then entry else { entry with isNotifyOnEnabled := true }

end Entries

namespace PublishedDataSubscriberManager

variable {ω δ : Type}

abbrev Callbacks (ω : Type) := OrderedMap PublishedObserverMapKey (List (SubscriberEntry ω))

abbrev NodeMap (δ : Type) := OrderedMap PublishedObserverMapKey (PublishedDataChangeNode δ)

def new : PublishedDataSubscriberManager ω δ :=
  ⟨.empty, .empty⟩

/-- `entries.retain(|e| e.subscriber != subscriber)`, and the key goes with its last entry. -/
def retainAt (subscriber : ℕ) (callbacks : Callbacks ω) (key : PublishedObserverMapKey) :
    Callbacks ω :=
  match callbacks.find? key with
  | none => callbacks
  | some entries =>
    let left := retainOthers subscriber entries
    if left.isEmpty then callbacks.erase key else callbacks.assign key left

/-! ## `add_observers` -/

structure Adding (ω : Type) where
  callbacks : Callbacks ω
  firstAddKeys : List PublishedObserverMapKey
  existingKeys : List PublishedObserverMapKey

def addKey (subscriber : ℕ) (callback : ω) (acc : Adding ω) (key : PublishedObserverMapKey) :
    Adding ω :=
  let entries := (acc.callbacks.find? key).getD []
  let callbacks := acc.callbacks.upsert key fun old =>
    old.getD [] ++ [⟨subscriber, callback, true, false⟩]
  if entries.isEmpty then { acc with callbacks, firstAddKeys := acc.firstAddKeys ++ [key] }
  else { acc with callbacks, existingKeys := acc.existingKeys ++ [key] }

def addObservers (subscriber : ℕ) (uris : List String) (subscriberId : Int) (callback : ω)
    (answer : ℕ → Answer) (self : PublishedDataSubscriberManager ω δ) : PublishedOutcome ω δ :=
  let added := (publishedKeys uris subscriberId).foldl (addKey subscriber callback)
    ⟨self.callbacks, [], []⟩
  let sent := sendRequests .subscribe added.firstAddKeys answer
  { manager :=
      { self with callbacks := (failedKeys sent).foldl (retainAt subscriber) added.callbacks }
    requests := sent
    calls := []
    result := added.existingKeys.map (fun key => ⟨key, 0⟩) ++ replies sent }

/-! ## `del_observers` and `del_all_observers` -/

structure Deleting (ω : Type) where
  callbacks : Callbacks ω
  lastDelKeys : List PublishedObserverMapKey

def delKey (subscriber : ℕ) (acc : Deleting ω) (key : PublishedObserverMapKey) : Deleting ω where
  callbacks := retainAt subscriber acc.callbacks key
  lastDelKeys :=
    if (acc.callbacks.find? key).any fun entries => (retainOthers subscriber entries).isEmpty then
      acc.lastDelKeys ++ [key]
    else acc.lastDelKeys

def delObservers (subscriber : ℕ) (uris : List String) (subscriberId : Int) (answer : ℕ → Answer)
    (self : PublishedDataSubscriberManager ω δ) : PublishedOutcome ω δ :=
  let deleted := (publishedKeys uris subscriberId).foldl (delKey subscriber) ⟨self.callbacks, []⟩
  let sent := sendRequests .unsubscribe deleted.lastDelKeys answer
  { manager := { self with callbacks := deleted.callbacks }
    requests := sent
    calls := []
    result := replies sent }

/-- The keys in the requests of `del_all_observers`, one request for each subscriber id. -/
def keysBySubscriberId (keys : List PublishedObserverMapKey) : List PublishedObserverMapKey :=
  let keysMap : OrderedMap Int (List PublishedObserverMapKey) := keys.foldl
    (fun keysMap key => keysMap.upsert key.subscriberId fun old => old.getD [] ++ [key]) .empty
  keysMap.entries.flatMap Prod.snd

def delAllObservers (subscriber : ℕ) (answer : ℕ → Answer)
    (self : PublishedDataSubscriberManager ω δ) : PublishedOutcome ω δ :=
  let retained := self.callbacks.mapValues fun _ entries => retainOthers subscriber entries
  let lastDelKeys := (retained.filterValues List.isEmpty).keys
  let sent := sendRequests .unsubscribe (keysBySubscriberId lastDelKeys) answer
  { manager := { self with callbacks := retained.filterValues fun entries => !entries.isEmpty }
    requests := sent
    calls := []
    result := replies sent }

/-! ## `enable_observers` and `disable_observers` -/

structure Enabling (ω : Type) where
  callbacks : Callbacks ω
  sendServiceKeys : List PublishedObserverMapKey
  /-- The enabled observers, with whether they missed a change. -/
  refreshObservers : OrderedMap PublishedObserverMapKey (List (ω × Bool))
  result : List (OperationResult PublishedObserverMapKey)

def enableKey (subscriber : ℕ) (acc : Enabling ω) (key : PublishedObserverMapKey) : Enabling ω :=
  let answered (errCode : Int) := { acc with result := acc.result ++ [⟨key, errCode⟩] }
  match acc.callbacks.find? key with
  | none => answered subscriberMissing
  | some entries =>
    match entries.find? fun e => e.subscriber = subscriber with
    | none => answered subscriberMissing
    | some target =>
      if target.enabled then answered 0
      else
        { acc with
          callbacks := acc.callbacks.assign key (enableFirstEntry subscriber entries)
          sendServiceKeys :=
            if anyEnabled entries then acc.sendServiceKeys else acc.sendServiceKeys ++ [key]
          refreshObservers := acc.refreshObservers.upsert key fun old =>
            old.getD [] ++ [(target.observer, target.isNotifyOnEnabled)] }

def disableRefusedAt (subscriber : ℕ) (callbacks : Callbacks ω) (key : PublishedObserverMapKey) :
    Callbacks ω :=
  match callbacks.find? key with
  | none => callbacks
  | some entries => callbacks.assign key (disableRefused subscriber entries)

/-- The flagged observers are called with what is stored for their key. -/
def emitOnEnable (refreshObservers : OrderedMap PublishedObserverMapKey (List (ω × Bool)))
    (lastMap : NodeMap δ) : List (ω × PublishedDataChangeNode δ) :=
  refreshObservers.entries.flatMap fun e =>
    match lastMap.find? e.1 with
    | none => []
    | some storedNode => (e.2.filter Prod.snd).map fun observer => (observer.1, storedNode)

def enableObservers (subscriber : ℕ) (uris : List String) (subscriberId : Int)
    (answer : ℕ → Answer) (self : PublishedDataSubscriberManager ω δ) : PublishedOutcome ω δ :=
  let enabled := (publishedKeys uris subscriberId).foldl (enableKey subscriber)
    ⟨self.callbacks, [], .empty, []⟩
  let sent := sendRequests .enable enabled.sendServiceKeys answer
  { manager :=
      { self with
        callbacks := (failedKeys sent).foldl (disableRefusedAt subscriber) enabled.callbacks }
    requests := sent
    calls := emitOnEnable enabled.refreshObservers self.lastChangeNodeMap
    result := enabled.result ++ replies sent }

structure Disabling (ω : Type) where
  callbacks : Callbacks ω
  lastDisabledKeys : List PublishedObserverMapKey
  result : List (OperationResult PublishedObserverMapKey)

def disableKey (subscriber : ℕ) (acc : Disabling ω) (key : PublishedObserverMapKey) :
    Disabling ω :=
  let answered (errCode : Int) := { acc with result := acc.result ++ [⟨key, errCode⟩] }
  match acc.callbacks.find? key with
  | none => answered subscriberMissing
  | some entries =>
    if !anyEnabled entries then answered subscriberMissing
    else if !entries.any (fun e => e.subscriber = subscriber) then answered subscriberMissing
    else
      let left := disableEntries subscriber entries
      let callbacks := acc.callbacks.assign key left
      if anyEnabled left then { acc with callbacks, result := acc.result ++ [⟨key, 0⟩] }
      else { acc with callbacks, lastDisabledKeys := acc.lastDisabledKeys ++ [key] }

def disableObservers (subscriber : ℕ) (uris : List String) (subscriberId : Int)
    (answer : ℕ → Answer) (self : PublishedDataSubscriberManager ω δ) : PublishedOutcome ω δ :=
  let disabled := (publishedKeys uris subscriberId).foldl (disableKey subscriber)
    ⟨self.callbacks, [], []⟩
  let sent := sendRequests .disable disabled.lastDisabledKeys answer
  { manager := { self with callbacks := disabled.callbacks }
    requests := sent
    calls := []
    result := disabled.result ++ replies sent }

/-! ## `recover_observers` and `emit` -/

/-- Subscribe every key again, each in a request of its own. -/
def recoverObservers (answer : ℕ → Answer) (self : PublishedDataSubscriberManager ω δ) :
    PublishedOutcome ω δ where
  manager := self
  requests := sendRequests .subscribe self.callbacks.keys answer
  calls := []
  result := []

/-- The first loop of `emit` : flag the disabled entries of the item's key and store the item. -/
def recordItem (ownerBundleName : String) (self : PublishedDataSubscriberManager ω δ)
    (data : PublishedDataItem δ) : PublishedDataSubscriberManager ω δ where
  callbacks :=
    match self.callbacks.find? data.mapKey with
    | none => self.callbacks
    | some entries => self.callbacks.assign data.mapKey (flagDisabled entries)
  lastChangeNodeMap := self.lastChangeNodeMap.assign data.mapKey ⟨ownerBundleName, [data]⟩

/-- The enabled observers of a key. -/
def enabledAt (key : PublishedObserverMapKey) (self : PublishedDataSubscriberManager ω δ) :
    List ω :=
  (((self.callbacks.find? key).getD []).filter SubscriberEntry.enabled).map SubscriberEntry.observer

/-- The second loop calls the enabled observers of each item's key with the whole node. -/
def emit (changeNode : PublishedDataChangeNode δ) (self : PublishedDataSubscriberManager ω δ) :
    PublishedOutcome ω δ :=
  let recorded := changeNode.datas.foldl (recordItem changeNode.ownerBundleName) self
  { manager := recorded
    requests := []
    calls := changeNode.datas.flatMap fun data =>
      (enabledAt data.mapKey recorded).map fun observer => (observer, changeNode)
    result := [] }

/-! ## Runs -/

inductive Call (ω δ : Type) where
  | addObservers (subscriber : ℕ) (uris : List String) (subscriberId : Int) (callback : ω)
  | delObservers (subscriber : ℕ) (uris : List String) (subscriberId : Int)
  | delAllObservers (subscriber : ℕ)
  | enableObservers (subscriber : ℕ) (uris : List String) (subscriberId : Int)
  | disableObservers (subscriber : ℕ) (uris : List String) (subscriberId : Int)
  | recoverObservers
  | emit (changeNode : PublishedDataChangeNode δ)

/-- A call, with the answer to its `i`-th request. -/
structure Exchange (ω δ : Type) where
  call : Call ω δ
  answer : ℕ → Answer

def Exchange.outcome (self : PublishedDataSubscriberManager ω δ) :
    Exchange ω δ → PublishedOutcome ω δ
  | ⟨.addObservers subscriber uris subscriberId callback, answer⟩ =>
    addObservers subscriber uris subscriberId callback answer self
  | ⟨.delObservers subscriber uris subscriberId, answer⟩ =>
    delObservers subscriber uris subscriberId answer self
  | ⟨.delAllObservers subscriber, answer⟩ => delAllObservers subscriber answer self
  | ⟨.enableObservers subscriber uris subscriberId, answer⟩ =>
    enableObservers subscriber uris subscriberId answer self
  | ⟨.disableObservers subscriber uris subscriberId, answer⟩ =>
    disableObservers subscriber uris subscriberId answer self
  | ⟨.recoverObservers, answer⟩ => recoverObservers answer self
  | ⟨.emit changeNode, _⟩ => emit changeNode self

/-- One call of a run : the manager after it, and the requests it sent. -/
def step (self : PublishedDataSubscriberManager ω δ) (x : Exchange ω δ) :
    PublishedDataSubscriberManager ω δ × List (Request PublishedObserverMapKey) :=
  ((x.outcome self).manager, (x.outcome self).requests)

/-- The manager after `calls`. -/
def managerAfter (calls : List (Exchange ω δ)) : PublishedDataSubscriberManager ω δ :=
  (runCalls step new calls).1

end PublishedDataSubscriberManager

end Rust

end DataShare
