import DataShare.CppSubscriberManager

/-!
# The C++ manager of RDB subscriptions

`RdbSubscriberManager` keys its observers by the uri without the query and by the template. A
change is cached for its key, whether or not an observer is registered for it, and handed to the
enabled observers of the key. The cached node goes to an observer that joins an enabled one, and
to one that missed a change while it was disabled.

`recoverObservers` subscribes all keys again after a restart of the service, in one request for
each template, with the status of every uri.
-/

namespace DataShare

namespace Cpp

structure TemplateId where
  subscriberId : Int64
  bundleName : StdString
  deriving DecidableEq

instance : Ord TemplateId where
  compare := compareLex (compareOn TemplateId.subscriberId) (compareOn TemplateId.bundleName)

instance : Std.TransOrd TemplateId :=
  inferInstanceAs (Std.TransCmp (compareLex _ _))

instance : Std.LawfulEqOrd TemplateId where
  eq_of_compare {a b} h := by
    obtain ⟨hid, hname⟩ := Ordering.then_eq_eq.mp h
    obtain ⟨idA, nameA⟩ := a
    obtain ⟨idB, nameB⟩ := b
    obtain rfl : idA = idB := Std.LawfulEqCmp.eq_of_compare hid
    obtain rfl : nameA = nameB := Std.LawfulEqCmp.eq_of_compare hname
    rfl

/-- A key as its constructor makes it. -/
structure RdbObserverMapKey extends ClearedUri where
  templateId : TemplateId
  deriving DecidableEq

def RdbObserverMapKey.new (uri : StdString) (templateId : TemplateId) : RdbObserverMapKey where
  toClearedUri := .new uri
  templateId := templateId

/-- `operator<` leaves the uri itself out. -/
instance : Ord RdbObserverMapKey where
  compare := compareLex (compareOn fun key : RdbObserverMapKey => key.clearUri)
    (compareOn RdbObserverMapKey.templateId)

instance : Std.TransOrd RdbObserverMapKey :=
  inferInstanceAs (Std.TransCmp (compareLex _ _))

theorem RdbObserverMapKey.compare_eq_iff {key key' : RdbObserverMapKey} :
    compare key key' = .eq ↔ key.clearUri = key'.clearUri ∧ key.templateId = key'.templateId := by
  have hclear : compare key.clearUri key'.clearUri = .eq ↔ key.clearUri = key'.clearUri :=
    Std.LawfulEqCmp.compare_eq_iff_eq
  have htemplate : compare key.templateId key'.templateId = .eq ↔ key.templateId = key'.templateId :=
    Std.LawfulEqCmp.compare_eq_iff_eq
  rw [← hclear, ← htemplate]
  exact Ordering.then_eq_eq

/-- The key a change is for, with the rest of the node. -/
structure RdbChangeNode (δ : Type) where
  uri : StdString
  templateId : TemplateId
  data : δ
  deriving DecidableEq

def RdbChangeNode.key {δ : Type} (changeNode : RdbChangeNode δ) : RdbObserverMapKey :=
  .new changeNode.uri changeNode.templateId

/-- The status of each uri of a template. -/
abbrev SubscribeOption := OrderedMap StdString Bool

/-- The arguments of a call of `SubscribeRdbData`. -/
structure SubscribeRdbData where
  uris : List StdString
  templateId : TemplateId
  subscribeOption : SubscribeOption

abbrev RdbSubscriberManager (δ : Type) := SubscriberManager RdbObserverMapKey (RdbChangeNode δ)

abbrev RdbServed (δ : Type) := Served RdbObserverMapKey (RdbChangeNode δ) (RdbChangeNode δ)

abbrev RdbExchange (δ : Type) := SubscriberExchange TemplateId (RdbChangeNode δ)

namespace RdbSubscriberManager

variable {δ : Type}

abbrev NodeMap (δ : Type) := OrderedMap RdbObserverMapKey (RdbChangeNode δ)

/-! ## Changes -/

/-- `Emit(changeNode)`. -/
def emit (changeNode : RdbChangeNode δ) (manager : RdbSubscriberManager δ) :
    RdbSubscriberManager δ × List (ℕ × RdbChangeNode δ) :=
  let notified := CallbacksManager.getObserversAndSetNotifiedOn changeNode.key manager.callbacks
  ({ manager with
      callbacks := notified.1
      lastChangeNodeMap := manager.lastChangeNodeMap.assign changeNode.key changeNode },
    notified.2.map fun obs => (obs, changeNode))

/-- `Emit(keys, observer)`. -/
def emitLocal (lastChangeNodeMap : NodeMap δ) (keys : List RdbObserverMapKey) (observer : ℕ) :
    List (ℕ × RdbChangeNode δ) :=
  keys.filterMap fun key => (lastChangeNodeMap.find? key).map fun node => (observer, node)

/-- The turn of a key in `EmitOnEnable`. -/
def emitKeyOnEnable (lastChangeNodeMap : NodeMap δ)
    (callbacks : CallbacksManager.Callbacks RdbObserverMapKey ℕ ℕ)
    (entry : RdbObserverMapKey × List (Option ℕ × Bool)) : List (ℕ × RdbChangeNode δ) :=
  match lastChangeNodeMap.find? entry.1 with
  | none => []
  | some node =>
    -- The flag in `obsMap` may be out of date, the one in the callbacks counts.
    entry.2.filterMap fun obs =>
      if CallbacksManager.isObserversNotifiedOnEnabled entry.1 obs.1 callbacks then
        obs.1.map fun observer => (observer, node)
      else none

def emitOnEnable (lastChangeNodeMap : NodeMap δ)
    (callbacks : CallbacksManager.Callbacks RdbObserverMapKey ℕ ℕ)
    (obsMap : RefreshObservers RdbObserverMapKey) : List (ℕ × RdbChangeNode δ) :=
  obsMap.entries.flatMap (emitKeyOnEnable lastChangeNodeMap callbacks)

def cls : ManagerClass TemplateId RdbObserverMapKey (RdbChangeNode δ) (RdbChangeNode δ)
    (RdbChangeNode δ) where
  keyOf := .new
  unsubscribeOrder := id
  emitLocal := emitLocal
  emitOnEnable := emitOnEnable
  emit := emit

/-! ## Registration -/

def addObservers (subscriber : ℕ) (uris : List StdString) (templateId : TemplateId)
    (answer : ℕ → Answer) (manager : RdbSubscriberManager δ) : RdbServed δ :=
  SubscriberManager.addObservers cls subscriber uris templateId answer manager

def delObservers (subscriber : ℕ) (uris : List StdString) (templateId : TemplateId)
    (answer : ℕ → Answer) (manager : RdbSubscriberManager δ) : RdbServed δ :=
  SubscriberManager.delObservers cls subscriber uris templateId answer manager

def enableObservers (subscriber : ℕ) (uris : List StdString) (templateId : TemplateId)
    (answer : ℕ → Answer) (manager : RdbSubscriberManager δ) : RdbServed δ :=
  SubscriberManager.enableObservers cls subscriber uris templateId answer manager

def disableObservers (subscriber : ℕ) (uris : List StdString) (templateId : TemplateId)
    (answer : ℕ → Answer) (manager : RdbSubscriberManager δ) : RdbServed δ :=
  SubscriberManager.disableObservers cls subscriber uris templateId answer manager

/-- `keysMap` and `optionMap`, one entry for each template. -/
def recoverObservers (manager : RdbSubscriberManager δ) : List SubscribeRdbData :=
  let keys := manager.callbacks.keys
  let keysMap : OrderedMap TemplateId (List StdString) := keys.foldl
    (fun keysMap key => keysMap.upsert key.templateId fun old => old.getD [] ++ [key.uri]) .empty
  let optionMap : OrderedMap TemplateId SubscribeOption := keys.foldl
    (fun optionMap key =>
      let enabled := !(CallbacksManager.getEnabledObservers manager.callbacks key).isEmpty
      optionMap.upsert key.templateId fun old => (old.getD .empty).insert key.uri enabled) .empty
  keysMap.entries.map fun entry => ⟨entry.2, entry.1, (optionMap.find? entry.1).getD .empty⟩

/-- A run, oldest call first. -/
def managerAfter (calls : List (RdbExchange δ)) : RdbSubscriberManager δ :=
  SubscriberExchange.managerAfter cls calls

/-- What a call leaves and hands to observers, after a run. -/
def served (calls : List (RdbExchange δ)) (x : RdbExchange δ) : RdbServed δ :=
  x.outcome cls (managerAfter calls)

/-! ### Sample calls -/

def someTemplate : TemplateId :=
  ⟨7, [98]⟩

/-- A change of the uri `u`. -/
def someNode : RdbChangeNode ℕ :=
  ⟨[117], someTemplate, 5⟩

def accepted (call : SubscriberCall TemplateId (RdbChangeNode ℕ)) : RdbExchange ℕ :=
  ⟨call, fun _ => .replied errOk⟩

end RdbSubscriberManager

end Cpp

end DataShare
