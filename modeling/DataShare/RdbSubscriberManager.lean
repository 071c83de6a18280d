import DataShare.SubscriptionLedger

/-!
# The Rust manager of RDB subscriptions

`RdbSubscriberManager` keeps the subscriber entries of every key and, in
`last_change_node_map`, the last change node it was notified of for the key. An observer
that joins a key with an enabled observer gets the cached node at once, one that missed a
change while disabled gets it when it is enabled.

An operation gives the manager after it, its requests to the service, the replays of
cached nodes, the observers a change is delivered to and its results. Requests have the
answers of `Answer`, which the manager only passes on.
-/

namespace DataShare

namespace Rust

structure TemplateId where
  subscriberId : Int
  bundleName : String
  deriving DecidableEq

structure RdbObserverMapKey where
  uri : String
  clearUri : String
  templateId : TemplateId
  deriving DecidableEq

/-- `uri.split('?').next()`. -/
def clearUriOf (uri : String) : String :=
  String.ofList (uri.toList.takeWhile fun c => c ≠ '?')

def RdbObserverMapKey.new (uri : String) (templateId : TemplateId) : RdbObserverMapKey where
  uri := uri
  clearUri := clearUriOf uri
  templateId := templateId

/-- The order leaves the uri itself out. -/
instance : Ord RdbObserverMapKey where
  compare := compareLex (compareOn RdbObserverMapKey.clearUri)
    (compareLex (compareOn fun key => key.templateId.subscriberId)
      (compareOn fun key => key.templateId.bundleName))

instance : Std.TransOrd RdbObserverMapKey :=
  inferInstanceAs (Std.TransCmp (compareLex _ _))

/-- The uri a change is about, with the rest of the node. -/
structure RdbChangeNode (δ : Type) where
  uri : String
  change : δ
  deriving DecidableEq

structure SubscriberEntry (ω : Type) where
  subscriber : ℕ
  observer : ω
  enabled : Bool
  isNotifyOnEnabled : Bool

structure RdbSubscriberManager (ω δ : Type) where
  callbacks : OrderedMap RdbObserverMapKey (List (SubscriberEntry ω))
  lastChangeNodeMap : OrderedMap RdbObserverMapKey (RdbChangeNode δ)

/-- A cached node handed to the observer of a key. -/
structure Replay (ω δ : Type) where
  key : RdbObserverMapKey
  observer : ω
  node : RdbChangeNode δ
  deriving DecidableEq

structure RdbOutcome (ω δ : Type) where
  manager : RdbSubscriberManager ω δ
  requests : List (Request RdbObserverMapKey)
  replays : List (Replay ω δ)
  delivered : List ω
  result : List (OperationResult RdbObserverMapKey)

/-- `E_SUBSCRIBER_NOT_EXIST`. -/
def subscriberNotExist : Int := 1047

/-- The keys of an operation's uris. -/
def keysOf (uris : List String) (templateId : TemplateId) : List RdbObserverMapKey :=
  uris.map fun uri => RdbObserverMapKey.new uri templateId

section Entries

variable {ω : Type}

def anyEnabled (entries : List (SubscriberEntry ω)) : Bool :=
  entries.any SubscriberEntry.enabled

/-- `entries.retain(|e| e.subscriber != subscriber)`. -/
def retainOthers (subscriber : ℕ) (entries : List (SubscriberEntry ω)) :
    List (SubscriberEntry ω) :=
  entries.filter fun e => e.subscriber ≠ subscriber

def enableEntries (subscriber : ℕ) (entries : List (SubscriberEntry ω)) :
    List (SubscriberEntry ω) :=
  entries.map fun entry =>
    if entry.subscriber = subscriber ∧ entry.enabled = false then
      { entry with enabled := true, isNotifyOnEnabled := false }
    else entry

def disableEntries (subscriber : ℕ) (entries : List (SubscriberEntry ω)) :
    List (SubscriberEntry ω) :=
  entries.map fun entry =>
    if entry.subscriber = subscriber ∧ entry.enabled then
      { entry with enabled := false, isNotifyOnEnabled := false }
    else entry

theorem disableEntries_eq_self {subscriber : ℕ} {entries : List (SubscriberEntry ω)}
    (h : ∀ e ∈ entries, ¬(e.subscriber = subscriber ∧ e.enabled = true)) :
    disableEntries subscriber entries = entries := by
  unfold disableEntries
  exact (List.map_congr_left fun e he => if_neg (h e he)).trans (List.map_id _)

/-- A change is delivered to the enabled entries and flagged for the others. -/
def notifyEntries (entries : List (SubscriberEntry ω)) : List (SubscriberEntry ω) :=
  entries.map fun entry => { entry with isNotifyOnEnabled := !entry.enabled }

end Entries

namespace RdbSubscriberManager

variable {ω δ : Type}

abbrev Callbacks (ω : Type) := OrderedMap RdbObserverMapKey (List (SubscriberEntry ω))

abbrev NodeMap (δ : Type) := OrderedMap RdbObserverMapKey (RdbChangeNode δ)

def new : RdbSubscriberManager ω δ :=
  ⟨.empty, .empty⟩

/-! ## `add_observers` -/

structure Adding (ω : Type) where
  callbacks : Callbacks ω
  firstAddKeys : List RdbObserverMapKey
  localRegisterKeys : List RdbObserverMapKey
  result : List (OperationResult RdbObserverMapKey)

def addKey (subscriber : ℕ) (callback : ω) (acc : Adding ω) (key : RdbObserverMapKey) :
    Adding ω :=
  let hasEnabled := (acc.callbacks.find? key).elim false anyEnabled
  let entry : SubscriberEntry ω := ⟨subscriber, callback, true, false⟩
  let callbacks := acc.callbacks.upsert key fun old => old.getD [] ++ [entry]
  if hasEnabled then
    { acc with
      callbacks
      localRegisterKeys := acc.localRegisterKeys ++ [key]
      result := acc.result ++ [⟨key, 0⟩] }
  else { acc with callbacks, firstAddKeys := acc.firstAddKeys ++ [key] }

def addObservers (subscriber : ℕ) (uris : List String) (templateId : TemplateId) (callback : ω)
    (answer : ℕ → Answer) (self : RdbSubscriberManager ω δ) : RdbOutcome ω δ :=
  let added := (keysOf uris templateId).foldl (addKey subscriber callback)
    ⟨self.callbacks, [], [], []⟩
  let sent := sendRequests .subscribe added.firstAddKeys answer
  { manager := { self with callbacks := added.callbacks }
    requests := sent
    replays := added.localRegisterKeys.filterMap fun key =>
      (self.lastChangeNodeMap.find? key).map fun node => ⟨key, callback, node⟩
    delivered := []
    result := added.result ++ replies sent }

/-! ## `del_observers` and `del_all_observers` -/

structure Deleting (ω : Type) where
  callbacks : Callbacks ω
  keysToErase : List RdbObserverMapKey

def delKey (subscriber : ℕ) (acc : Deleting ω) (key : RdbObserverMapKey) : Deleting ω :=
  match acc.callbacks.find? key with
  | none => acc
  | some entries =>
    let left := retainOthers subscriber entries
    if left.isEmpty then
      { callbacks := acc.callbacks.erase key, keysToErase := acc.keysToErase ++ [key] }
    else { acc with callbacks := acc.callbacks.assign key left }

def delObservers (subscriber : ℕ) (uris : List String) (templateId : TemplateId)
    (answer : ℕ → Answer) (self : RdbSubscriberManager ω δ) : RdbOutcome ω δ :=
  let deleted := (keysOf uris templateId).foldl (delKey subscriber) ⟨self.callbacks, []⟩
  let sent := sendRequests .unsubscribe deleted.keysToErase answer
  { manager :=
      { callbacks := deleted.callbacks
        lastChangeNodeMap := deleted.keysToErase.foldl (fun lastMap key => lastMap.erase key)
          self.lastChangeNodeMap }
    requests := sent
    replays := []
    delivered := []
    result := replies sent }

/-- Only the entries are removed : no request is sent, and no cached node dropped. -/
def delAllObservers (subscriber : ℕ) (self : RdbSubscriberManager ω δ) : RdbOutcome ω δ :=
  let retained := self.callbacks.mapValues fun _ entries => retainOthers subscriber entries
  { manager := { self with callbacks := retained.filterValues fun entries => !entries.isEmpty }
    requests := []
    replays := []
    delivered := []
    result := [] }

/-! ## `enable_observers` and `disable_observers` -/

structure Enabling (ω δ : Type) where
  callbacks : Callbacks ω
  sendServiceKeys : List RdbObserverMapKey
  replayList : List (Replay ω δ)
  result : List (OperationResult RdbObserverMapKey)

def enableKey (subscriber : ℕ) (lastMap : NodeMap δ) (acc : Enabling ω δ)
    (key : RdbObserverMapKey) : Enabling ω δ :=
  let answered (errCode : Int) := { acc with result := acc.result ++ [⟨key, errCode⟩] }
  match acc.callbacks.find? key with
  | none => answered subscriberNotExist
  | some entries =>
    if !entries.any (fun e => e.subscriber = subscriber) then answered subscriberNotExist
    else if entries.any (fun e => e.subscriber = subscriber ∧ e.enabled) then answered 0
    else
      let missed := entries.filter fun e =>
        e.subscriber = subscriber ∧ e.enabled = false ∧ e.isNotifyOnEnabled
      { acc with
        callbacks := acc.callbacks.assign key (enableEntries subscriber entries)
        sendServiceKeys :=
          if anyEnabled entries then acc.sendServiceKeys else acc.sendServiceKeys ++ [key]
        replayList := acc.replayList ++ missed.filterMap fun e =>
          (lastMap.find? key).map fun node => ⟨key, e.observer, node⟩ }

def enableObservers (subscriber : ℕ) (uris : List String) (templateId : TemplateId)
    (answer : ℕ → Answer) (self : RdbSubscriberManager ω δ) : RdbOutcome ω δ :=
  let enabled := (keysOf uris templateId).foldl (enableKey subscriber self.lastChangeNodeMap)
    ⟨self.callbacks, [], [], []⟩
  let sent := sendRequests .enable enabled.sendServiceKeys answer
  { manager := { self with callbacks := enabled.callbacks }
    requests := sent
    replays := enabled.replayList
    delivered := []
    result := enabled.result ++ replies sent }

structure Disabling (ω : Type) where
  callbacks : Callbacks ω
  lastDisabledKeys : List RdbObserverMapKey
  result : List (OperationResult RdbObserverMapKey)

def disableKey (subscriber : ℕ) (acc : Disabling ω) (key : RdbObserverMapKey) : Disabling ω :=
  let answered (errCode : Int) := { acc with result := acc.result ++ [⟨key, errCode⟩] }
  match acc.callbacks.find? key with
  | none => answered subscriberNotExist
  | some entries =>
    if !anyEnabled entries then answered subscriberNotExist
    else if !entries.any (fun e => e.subscriber = subscriber) then answered subscriberNotExist
    else
      let left := disableEntries subscriber entries
      let callbacks := acc.callbacks.assign key left
      if anyEnabled left then { acc with callbacks, result := acc.result ++ [⟨key, 0⟩] }
      else { acc with callbacks, lastDisabledKeys := acc.lastDisabledKeys ++ [key] }

def disableObservers (subscriber : ℕ) (uris : List String) (templateId : TemplateId)
    (answer : ℕ → Answer) (self : RdbSubscriberManager ω δ) : RdbOutcome ω δ :=
  let disabled := (keysOf uris templateId).foldl (disableKey subscriber) ⟨self.callbacks, [], []⟩
  let sent := sendRequests .disable disabled.lastDisabledKeys answer
  { manager := { self with callbacks := disabled.callbacks }
    requests := sent
    replays := []
    delivered := []
    result := disabled.result ++ replies sent }

/-! ## `recover_observers` and `emit` -/

/-- Subscribe every key again, each in a request of its own. -/
def recoverObservers (answer : ℕ → Answer) (self : RdbSubscriberManager ω δ) : RdbOutcome ω δ where
  manager := self
  requests := sendRequests .subscribe self.callbacks.keys answer
  replays := []
  delivered := []
  result := []

/-- The keys a change is about. -/
def matchingKeys (changeUri : String) (callbacks : Callbacks ω) : List RdbObserverMapKey :=
  callbacks.keys.filter fun key => key.clearUri = changeUri

def emit (changeNode : RdbChangeNode δ) (self : RdbSubscriberManager ω δ) : RdbOutcome ω δ :=
  let changeUri := clearUriOf changeNode.uri
  { manager :=
      { callbacks := self.callbacks.mapValues fun key entries =>
          if key.clearUri = changeUri then notifyEntries entries else entries
        lastChangeNodeMap := (matchingKeys changeUri self.callbacks).foldl
          (fun lastMap key => lastMap.assign key changeNode) self.lastChangeNodeMap }
    requests := []
    replays := []
    delivered := (matchingKeys changeUri self.callbacks).flatMap fun key =>
      (((self.callbacks.find? key).getD []).filter SubscriberEntry.enabled).map
        SubscriberEntry.observer
    result := [] }

end RdbSubscriberManager

end Rust

end DataShare
