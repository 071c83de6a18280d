import DataShare.CppPublishedData
import DataShare.CppRdbSubscriberManager
import DataShare.NapiCallbacksManager

/-!
# The JS managers of RDB and published data

`NapiRdbSubscriberManager` and `NapiPublishedSubscriberManager` keep the JS observers of a helper by
the uri as it was given, and by the template or the subscriber id. The first observer of a key
subscribes its uri through the helper, with a callback that hands every change to the observers of
its keys, and the last one unsubscribes it.

What the two have in common is written for a `NapiClass`. `NapiTables` are the tables behind one
helper : its JS manager, and the native manager that all helpers of the process share.
-/

namespace DataShare

def errRegisteredRepeated : Int := 1002

/-! ## The loop of a registration -/

namespace NapiCallbacksManager

variable {κ : Type} [Ord κ] [Std.TransOrd κ]

structure Registered (κ : Type) [Ord κ] where
  callbacks : Callbacks κ
  firstRegisterKey : List κ
  localRegisterKey : List κ
  result : List (OperationResult κ)

/-- The turn of a key in the overload without a configuration. -/
def registerObserver (observer : Observer) (acc : Registered κ) (key : κ) : Registered κ :=
  if (getEnabledObservers acc.callbacks key).isEmpty then
    { acc with
      callbacks := emplaceBack acc.callbacks key (Node.new observer {})
      firstRegisterKey := acc.firstRegisterKey ++ [key] }
  else if isRegistered observer ((acc.callbacks.find? key).getD []) then
    { acc with result := acc.result ++ [⟨key, errRegisteredRepeated⟩] }
  else
    { acc with
      callbacks := emplaceBack acc.callbacks key (Node.new observer {})
      localRegisterKey := acc.localRegisterKey ++ [key]
      result := acc.result ++ [⟨key, errOk⟩] }

def registerLocal (keys : List κ) (observer : Observer) (callbacks : Callbacks κ) : Registered κ :=
  keys.foldl (registerObserver observer) ⟨callbacks, [], [], []⟩

end NapiCallbacksManager

namespace Napi

open Cpp (StdString TemplateId RdbObserverMapKey RdbChangeNode PublishedObserverMapKey
  PublishedDataItem PublishedDataChangeNode ManagerClass SubscriberManager SubscriberCall
  SubscriberExchange)
open CallbacksManager (delCodes)
open NapiCallbacksManager (Observer Callbacks getEnabledObservers registerLocal delLocal)

/-! ## The managers -/

/-- The scope is the template or the subscriber id. -/
structure ObserverMapKey (τ : Type) where
  uri : StdString
  scope : τ
  deriving DecidableEq

abbrev NapiRdbObserverMapKey := ObserverMapKey TemplateId

abbrev NapiPublishedObserverMapKey := ObserverMapKey Int64

section Keys

variable {τ : Type} [Ord τ]

instance : Ord (ObserverMapKey τ) where
  compare := compareLex (compareOn ObserverMapKey.uri) (compareOn ObserverMapKey.scope)

instance [Std.TransOrd τ] : Std.TransOrd (ObserverMapKey τ) :=
  inferInstanceAs (Std.TransCmp (compareLex _ _))

instance [Std.TransOrd τ] [Std.LawfulEqOrd τ] : Std.LawfulEqOrd (ObserverMapKey τ) where
  eq_of_compare {a b} h := by
    obtain ⟨huri, hscope⟩ := Ordering.then_eq_eq.mp h
    obtain ⟨uriA, scopeA⟩ := a
    obtain ⟨uriB, scopeB⟩ := b
    obtain rfl : uriA = uriB := Std.LawfulEqCmp.eq_of_compare huri
    obtain rfl : scopeA = scopeB := Std.LawfulEqCmp.eq_of_compare hscope
    rfl

end Keys

/-- `made` counts the observers, which stand at addresses of their own, and `subscriptions` are the
native observers whose callback is the `Emit` of this manager. -/
structure Manager (τ ν : Type) [Ord τ] where
  callbacks : Callbacks (ObserverMapKey τ)
  lastChangeNodeMap : OrderedMap (ObserverMapKey τ) ν
  made : ℕ
  subscriptions : List ℕ

/-- What the manager of one kind of data has of its own. -/
structure NapiClass (τ κ ν : Type) [Ord τ] [Ord κ] where
  native : ManagerClass τ κ ν ν ν
  /-- `operator std::string` of a native key. -/
  uriOf : κ → StdString
  emitLocal : OrderedMap (ObserverMapKey τ) ν → List (ObserverMapKey τ) → Observer →
    List (Observer × ν)
  emit : ν → Manager τ ν → Manager τ ν × List (Observer × ν)

structure NapiTables (τ κ ν : Type) [Ord τ] [Ord κ] where
  js : Manager τ ν
  native : SubscriberManager κ ν

/-- What a call leaves, hands to JS observers with `OnChange`, and returns. -/
structure NapiServed (τ κ ν : Type) [Ord τ] [Ord κ] where
  tables : NapiTables τ κ ν
  calls : List (Observer × ν)
  result : List (OperationResult StdString)

section Calls

variable {τ κ ν : Type} [Ord τ] [Ord κ]

/-- Of the native observers that are called, those of this manager emit. -/
def receive (cls : NapiClass τ κ ν) (calls : List (ℕ × ν)) (js : Manager τ ν) :
    Manager τ ν × List (Observer × ν) :=
  runCalls (fun js call => cls.emit call.2 js) js
    (calls.filter fun call => call.1 ∈ js.subscriptions)

variable [Std.TransOrd τ] [Std.TransOrd κ]

/-- `SubscribeRdbData` or `SubscribePublishedData` of the helper. Without a proxy of the service
nothing is done, and there is no result. -/
def subscribe (cls : NapiClass τ κ ν) (subscriber : ℕ) (uris : List StdString) (scope : τ)
    (proxy : Bool) (answer : ℕ → Answer) (tables : NapiTables τ κ ν) : NapiServed τ κ ν :=
  if proxy then
    let served := tables.native.addObservers cls.native subscriber uris scope answer
    let js := { tables.js with subscriptions := tables.js.subscriptions ++ [tables.native.made] }
    let emitted := receive cls served.calls js
    { tables := ⟨emitted.1, served.manager⟩
      calls := emitted.2
      result := served.result.map fun r => ⟨cls.uriOf r.key, r.errCode⟩ }
  else ⟨tables, [], []⟩

/-- `UnsubscribeRdbData` or `UnsubscribePublishedData` of the helper. -/
def unsubscribe (cls : NapiClass τ κ ν) (subscriber : ℕ) (uris : List StdString) (scope : τ)
    (proxy : Bool) (answer : ℕ → Answer) (native : SubscriberManager κ ν) :
    SubscriberManager κ ν × List (OperationResult StdString) :=
  if proxy then
    let served := native.delObservers cls.native subscriber uris scope answer
    (served.manager, served.result.map fun r => ⟨cls.uriOf r.key, r.errCode⟩)
  else (native, [])

/-- The keys of the results with an error. -/
def failedKeys (scope : τ) (subResults : List (OperationResult StdString)) :
    List (ObserverMapKey τ) :=
  (subResults.filter fun subResult => subResult.errCode ≠ errOk).map fun subResult =>
    ⟨subResult.key, scope⟩

/-- With no failed key the loop of the rollback does nothing. -/
def addObservers (cls : NapiClass τ κ ν) (subscriber : ℕ) (callback : ℕ) (uris : List StdString)
    (scope : τ) (proxy : Bool) (answer : ℕ → Answer) (tables : NapiTables τ κ ν) :
    NapiServed τ κ ν :=
  let keys := uris.map fun uri => ⟨uri, scope⟩
  let observer : Observer := ⟨tables.js.made, callback⟩
  let added := registerLocal keys observer tables.js.callbacks
  let js := { tables.js with callbacks := added.callbacks, made := tables.js.made + 1 }
  let localCalls :=
    if added.localRegisterKey.isEmpty then []
    else cls.emitLocal js.lastChangeNodeMap added.localRegisterKey observer
  let result := added.result.map fun r => ⟨r.key.uri, r.errCode⟩
  if added.firstRegisterKey.isEmpty then ⟨⟨js, tables.native⟩, localCalls, result⟩
  else
    let firstAddUris := added.firstRegisterKey.map ObserverMapKey.uri
    let subscribed := subscribe cls subscriber firstAddUris scope proxy answer ⟨js, tables.native⟩
    let deleted := delLocal delCodes (failedKeys scope subscribed.result) (some observer)
      subscribed.tables.js.callbacks
    let left := { subscribed.tables.js with callbacks := deleted.callbacks }
    { tables := ⟨left, subscribed.tables.native⟩
      calls := localCalls ++ subscribed.calls
      result := result ++ subscribed.result }

/-- Without a callback, all observers of the keys are deleted. -/
def delObservers (cls : NapiClass τ κ ν) (subscriber : ℕ) (callback : Option ℕ)
    (uris : List StdString) (scope : τ) (proxy : Bool) (answer : ℕ → Answer)
    (tables : NapiTables τ κ ν) : NapiServed τ κ ν :=
  let keys := uris.map fun uri => ⟨uri, scope⟩
  let observer := callback.map (Observer.mk tables.js.made)
  let deleted := delLocal delCodes keys observer tables.js.callbacks
  let made := if callback.isSome then tables.js.made + 1 else tables.js.made
  let js := { tables.js with callbacks := deleted.callbacks, made }
  let result := deleted.result.map fun r => ⟨r.key.uri, r.errCode⟩
  if deleted.lastDelKeys.isEmpty then ⟨⟨js, tables.native⟩, [], result⟩
  else
    let lastDelUris := deleted.lastDelKeys.map ObserverMapKey.uri
    let left := SubscriberManager.forget deleted.lastDelKeys js.lastChangeNodeMap
    let unsubscribed := unsubscribe cls subscriber lastDelUris scope proxy answer tables.native
    { tables := ⟨{ js with lastChangeNodeMap := left }, unsubscribed.1⟩
      calls := []
      result := result ++ unsubscribed.2 }

end Calls

/-- `native` is a change of the service, or a call of another helper. -/
inductive NapiCall (τ ν : Type) where
  | addObservers (callback : ℕ) (uris : List StdString) (scope : τ)
  | delObservers (callback : Option ℕ) (uris : List StdString) (scope : τ)
  | native (call : SubscriberCall τ ν)

/-- A call, with whether there is a proxy of the service, and its answers. -/
structure NapiExchange (τ ν : Type) where
  call : NapiCall τ ν
  proxy : Bool
  answer : ℕ → Answer

section Runs

variable {τ κ ν : Type} [Ord τ] [Ord κ] [Std.TransOrd τ] [Std.TransOrd κ]

def NapiExchange.outcome (cls : NapiClass τ κ ν) (subscriber : ℕ) (tables : NapiTables τ κ ν) :
    NapiExchange τ ν → NapiServed τ κ ν
  | ⟨.addObservers callback uris scope, proxy, answer⟩ =>
    addObservers cls subscriber callback uris scope proxy answer tables
  | ⟨.delObservers callback uris scope, proxy, answer⟩ =>
    delObservers cls subscriber callback uris scope proxy answer tables
  | ⟨.native call, _, answer⟩ =>
    let served := SubscriberExchange.outcome cls.native tables.native ⟨call, answer⟩
    let emitted := receive cls served.calls tables.js
    ⟨⟨emitted.1, served.manager⟩, emitted.2, []⟩

def NapiExchange.step (cls : NapiClass τ κ ν) (subscriber : ℕ) (tables : NapiTables τ κ ν)
    (x : NapiExchange τ ν) : NapiTables τ κ ν × List (Observer × ν) :=
  ((x.outcome cls subscriber tables).tables, (x.outcome cls subscriber tables).calls)

/-- The JS manager of a new helper. -/
def Manager.new : Manager τ ν :=
  ⟨.empty, .empty, 0, []⟩

end Runs

/-! ## RDB data -/

namespace NapiRdbSubscriberManager

variable {δ : Type}

def keyOf (changeNode : RdbChangeNode δ) : NapiRdbObserverMapKey :=
  ⟨changeNode.uri, changeNode.templateId⟩

/-- `Emit(changeNode)`. -/
def emit (changeNode : RdbChangeNode δ) (manager : Manager TemplateId (RdbChangeNode δ)) :
    Manager TemplateId (RdbChangeNode δ) × List (Observer × RdbChangeNode δ) :=
  let key := keyOf changeNode
  ({ manager with lastChangeNodeMap := manager.lastChangeNodeMap.assign key changeNode },
    (getEnabledObservers manager.callbacks key).map fun obs => (obs, changeNode))

/-- `Emit(keys, observer)`. -/
def emitLocal (lastChangeNodeMap : OrderedMap NapiRdbObserverMapKey (RdbChangeNode δ))
    (keys : List NapiRdbObserverMapKey) (observer : Observer) : List (Observer × RdbChangeNode δ) :=
  keys.filterMap fun key => (lastChangeNodeMap.find? key).map fun node => (observer, node)

def cls : NapiClass TemplateId RdbObserverMapKey (RdbChangeNode δ) where
  native := Cpp.RdbSubscriberManager.cls
  uriOf key := key.uri
  emitLocal := emitLocal
  emit := emit

end NapiRdbSubscriberManager

/-! ## Published data -/

namespace NapiPublishedSubscriberManager

variable {δ : Type}

abbrev NodeMap (δ : Type) := OrderedMap NapiPublishedObserverMapKey (PublishedDataChangeNode δ)

def keyOf (data : PublishedDataItem δ) : NapiPublishedObserverMapKey :=
  ⟨data.key, data.subscriberId⟩

/-- The turn of an item in the first loop. -/
def clearDatas (lastChangeNodeMap : NodeMap δ) (data : PublishedDataItem δ) : NodeMap δ :=
  lastChangeNodeMap.upsert (keyOf data) fun old => { old.getD ⟨[], []⟩ with datas := [] }

/-- The state of the second loop. -/
structure Emitting (δ : Type) where
  lastChangeNodeMap : NodeMap δ
  results : OrderedMap Observer (List (PublishedDataItem δ))

def emitItem (ownerBundleName : StdString) (callbacks : Callbacks NapiPublishedObserverMapKey)
    (acc : Emitting δ) (data : PublishedDataItem δ) : Emitting δ :=
  let observers := getEnabledObservers callbacks (keyOf data)
  if observers.isEmpty then acc
  else
    { lastChangeNodeMap := acc.lastChangeNodeMap.upsert (keyOf data) fun old =>
        ⟨ownerBundleName, (old.getD ⟨[], []⟩).datas ++ [data]⟩
      results := observers.foldl
        (fun results obs => results.upsert obs fun old => old.getD [] ++ [data]) acc.results }

/-- `Emit(changeNode)`. -/
def emit (changeNode : PublishedDataChangeNode δ)
    (manager : Manager Int64 (PublishedDataChangeNode δ)) :
    Manager Int64 (PublishedDataChangeNode δ) × List (Observer × PublishedDataChangeNode δ) :=
  let cleared := changeNode.datas.foldl clearDatas manager.lastChangeNodeMap
  let emitted := changeNode.datas.foldl (emitItem changeNode.ownerBundleName manager.callbacks)
    ⟨cleared, .empty⟩
  ({ manager with lastChangeNodeMap := emitted.lastChangeNodeMap },
    emitted.results.entries.map fun e => (e.1, ⟨changeNode.ownerBundleName, e.2⟩))

def appendCached (lastChangeNodeMap : NodeMap δ) (node : PublishedDataChangeNode δ)
    (key : NapiPublishedObserverMapKey) : PublishedDataChangeNode δ :=
  match lastChangeNodeMap.find? key with
  | none => node
  | some value => ⟨value.ownerBundleName, node.datas ++ value.datas⟩

/-- `Emit(keys, observer)`. -/
def emitLocal (lastChangeNodeMap : NodeMap δ) (keys : List NapiPublishedObserverMapKey)
    (observer : Observer) : List (Observer × PublishedDataChangeNode δ) :=
  [(observer, keys.foldl (appendCached lastChangeNodeMap) ⟨[], []⟩)]

def cls : NapiClass Int64 PublishedObserverMapKey (PublishedDataChangeNode δ) where
  native := Cpp.PublishedDataSubscriberManager.cls
  uriOf key := key.uri
  emitLocal := emitLocal
  emit := emit

end NapiPublishedSubscriberManager

end Napi

end DataShare
