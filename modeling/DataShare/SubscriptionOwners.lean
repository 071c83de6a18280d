import DataShare.CppRdbSubscriberManager
import DataShare.MissedItems
import DataShare.OwnedCalls
import DataShare.PublishedEmission

/-!
# The owners of subscriptions

The nodes in the tables of a process are registered through objects : those of the C++ managers of
RDB and published data through silent `DataShareHelperImpl`s, those of the manager of proxy data
through `DataProxyHandle`s, with the address of the object as their subscriber, and those of the
Rust managers through Rust `DataShareHelperImpl`s, with its number. The address of a destroyed
object may be given to a new one.

The destructor of a silent helper deletes its nodes through the proxy of the service, and without
one it does not. That of a handle is defaulted, and the Rust helper has no `Drop`. So nodes stay in
the tables after their owner, are called, and are taken for those of the next object at the address
(`nodes_outlive_owners`). If a helper is only destroyed while there is a service or when it has no
nodes, and the others only when they have none (`Clean`), nodes do not outlive their owners, which
keep them to themselves (`nodes_end_with_owners`).
-/

namespace DataShare

namespace SubscriptionOwners

open CallbacksManager (nodesAt)
open Cpp (StdString)

/-! ## The objects -/

inductive Kind
  | silentHelper
  | dataProxyHandle
  | rustHelper
deriving DecidableEq

/-- `subscriber` is the address of a C++ object, and the `helper_id` of a Rust one. -/
structure Object where
  kind : Kind
  subscriber : ℕ
  alive : Bool
deriving DecidableEq

/-- A call of a helper for its subscriptions. -/
inductive TableCall (υ τ : Type)
  | subscribe (uris : List υ) (scope : τ)
  | unsubscribe (uris : List υ) (scope : τ)
  | enable (uris : List υ) (scope : τ)
  | disable (uris : List υ) (scope : τ)

/-- A call of a handle. -/
inductive ProxyDataCall
  | subscribeProxyData (uris : List StdString) (maxValueLength : Int32)
  | unsubscribeProxyData (uris : List StdString)

/-! ## The tables -/

/-- A C++ manager. `owners` is not in the source : the objects its observers were made for. -/
structure NativeTable (κ ν : Type) [Ord κ] where
  manager : Cpp.SubscriberManager κ ν
  owners : List ℕ

/-- The observer of a node with the limit it was registered with. -/
structure ProxyObserver where
  observer : ℕ
  maxValueLength : Int32
deriving DecidableEq

/-- The manager of proxy data. Its observers are numbered as they are made. -/
structure ProxyDataTable where
  callbacks : CallbacksManager.Callbacks StdString ℕ ProxyObserver
  owners : List ℕ

/-- The proxy of the service with its answers, if there is one. -/
abbrev Service := Option (ℕ → Answer)

namespace NativeTable

variable {τ κ ν ε γ : Type} [Ord κ] [Std.TransOrd κ]

def new : NativeTable κ ν :=
  ⟨.new, []⟩

/-- The call of the manager : no URIs stand for all. -/
def toManager (subscriber : ℕ) : TableCall StdString τ → Cpp.SubscriberCall τ ε
  | .subscribe uris scope => .addObservers subscriber uris scope
  | .unsubscribe uris scope =>
    if uris.isEmpty then .delAllObservers subscriber else .delObservers subscriber uris scope
  | .enable uris scope => .enableObservers subscriber uris scope
  | .disable uris scope => .disableObservers subscriber uris scope

/-- The observers a call makes belong to the object. -/
def ownersAfter (object : ℕ) (owners : List ℕ) : TableCall StdString τ → List ℕ
  | .subscribe _ _ => owners ++ [object]
  | _ => owners

/-- A call through a controller, which needs the proxy. -/
def serve (cls : Cpp.ManagerClass τ κ ν ε γ) (subscriber object : ℕ) (call : TableCall StdString τ)
    (service : Service) (table : NativeTable κ ν) : NativeTable κ ν :=
  match service with
  | none => table
  | some answer =>
    ⟨(Cpp.SubscriberExchange.outcome cls table.manager ⟨toManager subscriber call, answer⟩).manager,
      ownersAfter object table.owners call⟩

/-- `Emit`, and the objects whose observers it calls. -/
def emit (cls : Cpp.ManagerClass τ κ ν ε γ) (change : ε) (table : NativeTable κ ν) :
    NativeTable κ ν × List (Option ℕ) :=
  let emitted := cls.emit change table.manager
  (⟨emitted.1, table.owners⟩, emitted.2.map fun called => table.owners[called.1]?)

end NativeTable

namespace ProxyDataTable

/-- A call of a handle, which needs the proxy. -/
def serve (subscriber object : ℕ) (call : ProxyDataCall) (service : Service) (table : ProxyDataTable) :
    ProxyDataTable :=
  match service with
  | none => table
  | some answer =>
    match call with
    | .subscribeProxyData uris maxValueLength =>
      ⟨(CallbacksManager.addProxyDataObservers uris subscriber
          (some ⟨table.owners.length, maxValueLength⟩) answer table.callbacks).callbacks,
        table.owners ++ [object]⟩
    | .unsubscribeProxyData uris =>
      let deleted :=
        if uris.isEmpty then CallbacksManager.delAllProxyDataObservers subscriber answer table.callbacks
        else CallbacksManager.delProxyDataObservers uris subscriber answer table.callbacks
      ⟨deleted.callbacks, table.owners⟩

/-- The node with its limit next to it. -/
def proxyNode (node : ObserverNode ℕ ProxyObserver) : Cpp.ProxyDataSubscriberManager.ProxyNode where
  node :=
    { observer := node.observer.map ProxyObserver.observer
      enabled := node.enabled
      subscriber := node.subscriber
      isNotifyOnEnabled := node.isNotifyOnEnabled }
  maxValueLength := (node.observer.map ProxyObserver.maxValueLength).getD 0

/-- The objects whose observers `Emit` calls. -/
def emit (changeInfo : List Cpp.DataProxyChangeInfo) (table : ProxyDataTable) : List (Option ℕ) :=
  (Cpp.ProxyDataSubscriberManager.emit changeInfo
    (table.callbacks.mapValues fun _ nodes => nodes.map proxyNode)).map fun called =>
      table.owners[called.1]?

end ProxyDataTable

/-- The Rust managers, whose observers are the objects they belong to. -/
def serveRdb {δ : Type} (subscriber object : ℕ) (call : TableCall String Rust.TemplateId)
    (service : Service) (self : Rust.RdbSubscriberManager ℕ δ) : Rust.RdbSubscriberManager ℕ δ :=
  match service with
  | none => self
  | some answer =>
    match call with
    | .subscribe uris templateId =>
      (Rust.RdbSubscriberManager.addObservers subscriber uris templateId object answer self).manager
    | .unsubscribe uris templateId =>
      if uris.isEmpty then (Rust.RdbSubscriberManager.delAllObservers subscriber self).manager
      else (Rust.RdbSubscriberManager.delObservers subscriber uris templateId answer self).manager
    | .enable uris templateId =>
      (Rust.RdbSubscriberManager.enableObservers subscriber uris templateId answer self).manager
    | .disable uris templateId =>
      (Rust.RdbSubscriberManager.disableObservers subscriber uris templateId answer self).manager

def servePublished {δ : Type} (subscriber object : ℕ) (call : TableCall String Int)
    (service : Service) (self : Rust.PublishedDataSubscriberManager ℕ δ) :
    Rust.PublishedDataSubscriberManager ℕ δ :=
  match service with
  | none => self
  | some answer =>
    match call with
    | .subscribe uris subscriberId =>
      (Rust.PublishedDataSubscriberManager.addObservers subscriber uris subscriberId object answer
        self).manager
    | .unsubscribe uris subscriberId =>
      if uris.isEmpty then
        (Rust.PublishedDataSubscriberManager.delAllObservers subscriber answer self).manager
      else
        (Rust.PublishedDataSubscriberManager.delObservers subscriber uris subscriberId answer
          self).manager
    | .enable uris subscriberId =>
      (Rust.PublishedDataSubscriberManager.enableObservers subscriber uris subscriberId answer
        self).manager
    | .disable uris subscriberId =>
      (Rust.PublishedDataSubscriberManager.disableObservers subscriber uris subscriberId answer
        self).manager

/-! ## The process -/

/-- An object is known by its place in `objects`. -/
structure World (δ : Type) where
  objects : List Object
  /-- `NEXT_HELPER_ID`. -/
  nextHelperId : ℕ
  rdb : NativeTable Cpp.RdbObserverMapKey (Cpp.RdbChangeNode δ)
  published : NativeTable Cpp.PublishedObserverMapKey (Cpp.PublishedDataChangeNode δ)
  proxyData : ProxyDataTable
  rustRdb : Rust.RdbSubscriberManager ℕ δ
  rustPublished : Rust.PublishedDataSubscriberManager ℕ δ

def World.initial {δ : Type} : World δ :=
  ⟨[], 1, .new, .new, ⟨.empty, []⟩, .new, .new⟩

inductive Event (δ : Type)
  | createHelper (address : ℕ)
  | createHandle (address : ℕ)
  | createRustHelper
  | destroy (object : ℕ) (rdbService publishedService : Service)
  | rdb (object : ℕ) (call : TableCall StdString Cpp.TemplateId) (service : Service)
  | published (object : ℕ) (call : TableCall StdString Int64) (service : Service)
  | proxyData (object : ℕ) (call : ProxyDataCall) (service : Service)
  | rustRdb (object : ℕ) (call : TableCall String Rust.TemplateId) (service : Service)
  | rustPublished (object : ℕ) (call : TableCall String Int) (service : Service)
  | emitRdb (changeNode : Cpp.RdbChangeNode δ)
  | emitPublished (changeNode : Cpp.PublishedDataChangeNode δ)
  | emitProxyData (changeInfo : List Cpp.DataProxyChangeInfo)
  | emitRustRdb (changeNode : Rust.RdbChangeNode δ)
  | emitRustPublished (changeNode : Rust.PublishedDataChangeNode δ)

/-- The object that is destroyed, or makes a call. -/
def Event.actor {δ : Type} : Event δ → Option ℕ
  | .destroy object _ _ | .rdb object _ _ | .published object _ _ | .proxyData object _ _
  | .rustRdb object _ _ | .rustPublished object _ _ => some object
  | _ => none

namespace World

variable {δ : Type} (world : World δ)

/-- The subscriber of an object of the kind that is not destroyed. -/
def live (kind : Kind) (object : ℕ) : Option ℕ :=
  (world.objects[object]?).bind fun o => if o.kind = kind ∧ o.alive then some o.subscriber else none

/-- An address is not given to an object while another one has it. -/
def create (kind : Kind) (address : ℕ) : World δ :=
  if ∃ o ∈ world.objects, o.alive = true ∧ o.kind ≠ .rustHelper ∧ o.subscriber = address then world
  else { world with objects := world.objects ++ [⟨kind, address, true⟩] }

def createRust : World δ :=
  { world with
    objects := world.objects ++ [⟨.rustHelper, world.nextHelperId % 2 ^ 64, true⟩]
    nextHelperId := world.nextHelperId + 1 }

/-- `~DataShareHelperImpl` unsubscribes from everything with the two controllers. -/
def destroy (object : ℕ) (rdbService publishedService : Service) : World δ :=
  let objects := world.objects.modify object fun o => { o with alive := false }
  match world.live .silentHelper object with
  | none => { world with objects }
  | some subscriber =>
    { world with
      objects
      rdb := world.rdb.serve Cpp.RdbSubscriberManager.cls subscriber object
        (.unsubscribe [] ⟨0, []⟩) rdbService
      published := world.published.serve Cpp.PublishedDataSubscriberManager.cls subscriber object
        (.unsubscribe [] 0) publishedService }

/-- One event, and the objects whose observers an `Emit` calls. -/
def step (world : World δ) : Event δ → World δ × List (Option ℕ)
  | .createHelper address => (world.create .silentHelper address, [])
  | .createHandle address => (world.create .dataProxyHandle address, [])
  | .createRustHelper => (world.createRust, [])
  | .destroy object rdbService publishedService =>
    (world.destroy object rdbService publishedService, [])
  | .rdb object call service =>
    match world.live .silentHelper object with
    | none => (world, [])
    | some subscriber =>
      let rdb := world.rdb.serve Cpp.RdbSubscriberManager.cls subscriber object call service
      ({ world with rdb }, [])
  | .published object call service =>
    match world.live .silentHelper object with
    | none => (world, [])
    | some subscriber =>
      let published :=
        world.published.serve Cpp.PublishedDataSubscriberManager.cls subscriber object call service
      ({ world with published }, [])
  | .proxyData object call service =>
    match world.live .dataProxyHandle object with
    | none => (world, [])
    | some subscriber =>
      let proxyData := world.proxyData.serve subscriber object call service
      ({ world with proxyData }, [])
  | .rustRdb object call service =>
    match world.live .rustHelper object with
    | none => (world, [])
    | some subscriber =>
      let rustRdb := serveRdb subscriber object call service world.rustRdb
      ({ world with rustRdb }, [])
  | .rustPublished object call service =>
    match world.live .rustHelper object with
    | none => (world, [])
    | some subscriber =>
      let rustPublished := servePublished subscriber object call service world.rustPublished
      ({ world with rustPublished }, [])
  | .emitRdb changeNode =>
    let emitted := world.rdb.emit Cpp.RdbSubscriberManager.cls changeNode
    ({ world with rdb := emitted.1 }, emitted.2)
  | .emitPublished changeNode =>
    let emitted := world.published.emit Cpp.PublishedDataSubscriberManager.cls changeNode
    ({ world with published := emitted.1 }, emitted.2)
  | .emitProxyData changeInfo => (world, world.proxyData.emit changeInfo)
  | .emitRustRdb changeNode =>
    let emitted := Rust.RdbSubscriberManager.emit changeNode world.rustRdb
    ({ world with rustRdb := emitted.manager }, emitted.delivered.map some)
  | .emitRustPublished changeNode =>
    let emitted := Rust.PublishedDataSubscriberManager.emit changeNode world.rustPublished
    ({ world with rustPublished := emitted.manager }, emitted.calls.map fun called => some called.1)

end World

/-- The world after `events`. -/
def worldAfter {δ : Type} (events : List (Event δ)) : World δ :=
  (runCalls World.step .initial events).1

/-! ## The nodes and their owners -/

/-- A key of one of the tables. -/
inductive Slot
  | rdb (key : Cpp.RdbObserverMapKey)
  | published (key : Cpp.PublishedObserverMapKey)
  | proxyData (uri : StdString)
  | rustRdb (key : Rust.RdbObserverMapKey)
  | rustPublished (key : Rust.PublishedObserverMapKey)

/-- The objects that register nodes there. -/
def Slot.kind : Slot → Kind
  | .rdb _ | .published _ => .silentHelper
  | .proxyData _ => .dataProxyHandle
  | .rustRdb _ | .rustPublished _ => .rustHelper

/-- A node, with the object it was registered through. -/
structure Registration where
  owner : Option ℕ
  subscriber : ℕ
  enabled : Bool
  isNotifyOnEnabled : Bool
deriving DecidableEq

/-- The registration of a C++ node, whose observer is the `number`th. -/
def ofNode {ω : Type} (number : ω → ℕ) (owners : List ℕ) (node : ObserverNode ℕ ω) : Registration where
  owner := node.observer.bind fun observer => owners[number observer]?
  subscriber := node.subscriber
  enabled := node.enabled
  isNotifyOnEnabled := node.isNotifyOnEnabled

def ofEntry (entry : Rust.SubscriberEntry ℕ) : Registration where
  owner := some entry.observer
  subscriber := entry.subscriber
  enabled := entry.enabled
  isNotifyOnEnabled := entry.isNotifyOnEnabled

def NativeTable.registrationsAt {κ ν : Type} [Ord κ] (table : NativeTable κ ν) (k : κ) :
    List Registration :=
  (nodesAt table.manager.callbacks k).map (ofNode id table.owners)

namespace World

variable {δ : Type} (world : World δ)

def registrations : Slot → List Registration
  | .rdb key => world.rdb.registrationsAt key
  | .published key => world.published.registrationsAt key
  | .proxyData uri =>
    (nodesAt world.proxyData.callbacks uri).map (ofNode ProxyObserver.observer world.proxyData.owners)
  | .rustRdb key => (Rust.RdbSubscriberManager.entriesOfKey key world.rustRdb).map ofEntry
  | .rustPublished key =>
    (Rust.PublishedDataSubscriberManager.entriesOfKey key world.rustPublished).map ofEntry

/-- No node was registered through the object. -/
def Rid (object : ℕ) (slot : Slot) : Prop :=
  ∀ r ∈ world.registrations slot, r.owner ≠ some object

def Destroyed (object : ℕ) : Prop :=
  ∃ o, world.objects[object]? = some o ∧ o.alive = false

end World

/-- Nodes do not outlive their owners, no `Emit` calls the observer of a destroyed object, and what an
object does leaves the nodes of all others alone. -/
structure EndWithOwners {δ : Type} (events : List (Event δ)) : Prop where
  gone : ∀ before after, events = before ++ after → ∀ object, (worldAfter before).Destroyed object →
    ∀ slot, (worldAfter before).Rid object slot
  silent : ∀ before event after, events = before ++ event :: after →
    ∀ object, (worldAfter before).Destroyed object →
      some object ∉ ((worldAfter before).step event).2
  apart : ∀ before event after, events = before ++ event :: after → ∀ object ∈ event.actor, ∀ slot,
    ((((worldAfter before).step event).1.registrations slot).filter fun r => r.owner ≠ some object) =
      ((worldAfter before).registrations slot).filter fun r => r.owner ≠ some object

/-- A silent helper is destroyed while there is a service, or it has no nodes ; a handle and a Rust
helper are destroyed only without nodes ; and a Rust helper does not get the number of another one.
-/
def Clean {δ : Type} (world : World δ) : Event δ → Prop
  | .createRustHelper => ∀ object, world.live .rustHelper object ≠ some (world.nextHelperId % 2 ^ 64)
  | .destroy object rdbService publishedService =>
    (∀ key, (world.live .silentHelper object).isSome = true ∧ rdbService.isSome = true ∨
        world.Rid object (.rdb key)) ∧
      (∀ key, (world.live .silentHelper object).isSome = true ∧ publishedService.isSome = true ∨
        world.Rid object (.published key)) ∧
      (∀ uri, world.Rid object (.proxyData uri)) ∧ (∀ key, world.Rid object (.rustRdb key)) ∧
      ∀ key, world.Rid object (.rustPublished key)
  | _ => True

/-! ## What calls change -/

section Registrations

variable {ω : Type} {number : ω → ℕ} {owners owners' : List ℕ} {subscriber object : ℕ}
  {brings : Option ω → Prop} {nodes before after : List (ObserverNode ℕ ω)}

/-- A change by the object, of registrations with its subscriber. -/
abbrev ChangesRegistrations (subscriber object : ℕ) (before after : List Registration) : Prop :=
  OwnChange Registration.subscriber Registration.owner subscriber (· = some object) before after

/-- Owners of observers made later do not matter. -/
theorem map_ofNode_of_prefix (howners : owners <+: owners')
    (hknown : ∀ r ∈ nodes.map (ofNode number owners), r.owner.isSome = true) :
    nodes.map (ofNode number owners') = nodes.map (ofNode number owners) := by
  obtain ⟨more, rfl⟩ := howners
  refine List.map_congr_left fun node hnode => ?_
  obtain ⟨i, hi⟩ := Option.isSome_iff_exists.mp (hknown _ (List.mem_map_of_mem hnode))
  obtain ⟨observer, hobserver, hget⟩ := Option.bind_eq_some_iff.mp hi
  have hlt : number observer < owners.length := (List.getElem?_eq_some_iff.mp hget).1
  unfold ofNode
  rw [hobserver, Option.bind_some, Option.bind_some, List.getElem?_append_left hlt]

theorem changesRegistrations_ofNode (h : ChangesNodes subscriber brings before after)
    (howners : owners <+: owners')
    (hknown : ∀ r ∈ before.map (ofNode number owners), r.owner.isSome = true)
    (hbrings : ∀ o, brings o → (o.bind fun observer => owners'[number observer]?) = some object) :
    ChangesRegistrations subscriber object (before.map (ofNode number owners))
      (after.map (ofNode number owners')) := by
  rw [← map_ofNode_of_prefix howners hknown]
  exact h.map (fun _ => rfl) (fun _ => rfl) hbrings

theorem changesRegistrations_ofEntry {before after : List (Rust.SubscriberEntry ℕ)}
    (h : Rust.ChangesEntries subscriber (· = object) before after) :
    ChangesRegistrations subscriber object (before.map ofEntry) (after.map ofEntry) :=
  h.map (fun _ => rfl) (fun _ => rfl) fun _ hobserver => congrArg some hobserver

end Registrations

namespace NativeTable

variable {τ κ ν ε γ : Type} [Ord κ] [Std.TransOrd κ] {cls : Cpp.ManagerClass τ κ ν ε γ}
  {table : NativeTable κ ν} {subscriber object : ℕ} {call : TableCall StdString τ} {service : Service}

/-- Every observer has an owner. -/
def Numbered (table : NativeTable κ ν) : Prop :=
  table.manager.made = table.owners.length

theorem caller_toManager : (toManager (ε := ε) subscriber call).caller = some subscriber := by
  cases call with
  | unsubscribe uris scope =>
    dsimp only [toManager]
    split
    · rfl
    · rfl
  | _ => rfl

/-- The one call that makes an observer. -/
theorem adds_toManager {owners : List ℕ} (h : (toManager (ε := ε) subscriber call).Adds) :
    ownersAfter object owners call = owners ++ [object] := by
  cases call with
  | subscribe uris scope => rfl
  | unsubscribe uris scope =>
    dsimp only [toManager] at h
    split at h
    · exact h.elim
    · exact h.elim
  | enable uris scope => exact h.elim
  | disable uris scope => exact h.elim

theorem prefix_ownersAfter (owners : List ℕ) : owners <+: ownersAfter object owners call := by
  cases call with
  | subscribe uris scope => exact List.prefix_append owners [object]
  | _ => exact List.prefix_refl owners

theorem changesRegistrations_serve (hmade : table.Numbered) {k : κ}
    (hknown : ∀ r ∈ table.registrationsAt k, r.owner.isSome = true) :
    ChangesRegistrations subscriber object (table.registrationsAt k)
      ((table.serve cls subscriber object call service).registrationsAt k) := by
  cases service with
  | none => exact .refl _
  | some answer =>
    refine changesRegistrations_ofNode (Cpp.changesNodes_outcome caller_toManager k)
      (prefix_ownersAfter _) hknown ?_
    rintro o ⟨hadds, rfl⟩
    change (ownersAfter object table.owners call)[table.manager.made]? = some object
    rw [adds_toManager hadds, hmade, List.getElem?_concat_length]

theorem numbered_serve (hmade : table.Numbered) :
    (table.serve cls subscriber object call service).Numbered := by
  unfold Numbered at hmade ⊢
  cases service with
  | none => exact hmade
  | some answer =>
    cases call with
    | subscribe uris scope =>
      change table.manager.made + 1 = (table.owners ++ [object]).length
      rw [List.length_append, List.length_singleton, hmade]
    | unsubscribe uris scope =>
      dsimp only [serve, toManager]
      split
      · exact hmade
      · obtain ⟨order, keys, hdel⟩ :=
          Cpp.delObservers_eq_delKeys cls table.manager subscriber uris scope answer
        dsimp only [Cpp.SubscriberExchange.outcome, ownersAfter]
        rw [hdel]
        exact hmade
    | enable uris scope => exact hmade
    | disable uris scope => exact hmade

/-- With a service, nothing of the subscriber is left by the call without uris. -/
theorem gone_of_unsubscribe (hservice : service.isSome = true) {scope : τ} {k : κ} :
    ∀ r ∈ (table.serve cls subscriber object (.unsubscribe [] scope) service).registrationsAt k,
      r.subscriber ≠ subscriber := by
  obtain ⟨answer, rfl⟩ := Option.isSome_iff_exists.mp hservice
  intro r hr
  obtain ⟨node, hnode, rfl⟩ := List.mem_map.mp hr
  change node ∈ nodesAt (CallbacksManager.delLocal CallbacksManager.delCodes
    table.manager.callbacks.keys subscriber table.manager.callbacks).callbacks k at hnode
  rw [CallbacksManager.nodesAt_delLocal] at hnode
  split at hnode
  · exact of_decide_eq_true (List.mem_filter.mp hnode).2
  · next hkeys =>
    exact absurd (CallbacksManager.mentions_keys_of_ne_nil (List.ne_nil_of_mem hnode)) hkeys

end NativeTable

theorem changesRegistrations_serveProxyData {table : ProxyDataTable} {subscriber object : ℕ}
    {call : ProxyDataCall} {service : Service} {uri : StdString}
    (hknown : ∀ r ∈ (nodesAt table.callbacks uri).map (ofNode ProxyObserver.observer table.owners),
      r.owner.isSome = true) :
    ChangesRegistrations subscriber object
      ((nodesAt table.callbacks uri).map (ofNode ProxyObserver.observer table.owners))
      ((nodesAt (table.serve subscriber object call service).callbacks uri).map
        (ofNode ProxyObserver.observer (table.serve subscriber object call service).owners)) := by
  cases service with
  | none => exact .refl _
  | some answer =>
    cases call with
    | subscribeProxyData uris maxValueLength =>
      refine changesRegistrations_ofNode (CallbacksManager.changesNodes_addProxyDataObservers uris _ uri)
        (List.prefix_append _ _) hknown ?_
      rintro o rfl
      exact List.getElem?_concat_length
    | unsubscribeProxyData uris =>
      have hnodes : ChangesNodes subscriber (fun _ => False) (nodesAt table.callbacks uri)
          (nodesAt (table.serve subscriber object (.unsubscribeProxyData uris)
            (some answer)).callbacks uri) := by
        unfold ProxyDataTable.serve
        dsimp only
        split
        · exact CallbacksManager.changesNodes_delLocal _ _ uri
        · exact CallbacksManager.changesNodes_delLocal _ _ uri
      exact changesRegistrations_ofNode hnodes (List.prefix_refl _) hknown fun _ h => h.elim

section RustTables

variable {δ : Type} {subscriber object : ℕ} {service : Service}

theorem changesEntries_serveRdb {call : TableCall String Rust.TemplateId}
    {self : Rust.RdbSubscriberManager ℕ δ} (k : Rust.RdbObserverMapKey) :
    Rust.ChangesEntries subscriber (· = object) (Rust.RdbSubscriberManager.entriesOfKey k self)
      (Rust.RdbSubscriberManager.entriesOfKey k (serveRdb subscriber object call service self)) := by
  cases service with
  | none => exact .refl _
  | some answer =>
    cases call with
    | subscribe uris templateId =>
      exact Rust.RdbSubscriberManager.changesEntries_addObservers uris templateId object k
    | unsubscribe uris templateId =>
      unfold serveRdb
      dsimp only
      split
      · exact Rust.RdbSubscriberManager.changesEntries_delAllObservers k
      · exact Rust.RdbSubscriberManager.changesEntries_delObservers uris templateId k
    | enable uris templateId =>
      exact Rust.RdbSubscriberManager.changesEntries_enableObservers uris templateId k
    | disable uris templateId =>
      exact Rust.RdbSubscriberManager.changesEntries_disableObservers uris templateId k

theorem changesEntries_servePublished {call : TableCall String Int}
    {self : Rust.PublishedDataSubscriberManager ℕ δ} (k : Rust.PublishedObserverMapKey) :
    Rust.ChangesEntries subscriber (· = object)
      (Rust.PublishedDataSubscriberManager.entriesOfKey k self)
      (Rust.PublishedDataSubscriberManager.entriesOfKey k
        (servePublished subscriber object call service self)) := by
  cases service with
  | none => exact .refl _
  | some answer =>
    cases call with
    | subscribe uris subscriberId =>
      exact Rust.PublishedDataSubscriberManager.changesEntries_addObservers uris subscriberId object k
    | unsubscribe uris subscriberId =>
      unfold servePublished
      dsimp only
      split
      · exact Rust.PublishedDataSubscriberManager.changesEntries_delAllObservers k
      · exact Rust.PublishedDataSubscriberManager.changesEntries_delObservers uris subscriberId k
    | enable uris subscriberId =>
      exact Rust.PublishedDataSubscriberManager.changesEntries_enableObservers uris subscriberId k
    | disable uris subscriberId =>
      exact Rust.PublishedDataSubscriberManager.changesEntries_disableObservers uris subscriberId k

end RustTables

end SubscriptionOwners

end DataShare
