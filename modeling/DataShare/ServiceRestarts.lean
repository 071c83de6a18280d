import DataShare.CallPhases
import DataShare.CppPublishedData
import DataShare.CppRdbSubscriberManager
import DataShare.ThreadMachine
import Mathlib.Logic.Function.Basic

/-!
# The manager across restarts of the service

The service dies and is started again, each time as a new incarnation without subscriptions. The
manager keeps a handle to it. `GetProxy` looks the service up if there is no handle, and may fail ; a
notice of death, which may be late, and `OnAddSystemAbility`, which is called once for each incarnation,
clear the handle. `OnAddSystemAbility` then gets a proxy and subscribes the keys of the three tables
again, one table after the other. If there is no proxy it does nothing.

Other threads get proxies and make calls of the subscriber managers with them, in their phases. The
machine below interleaves all of these steps. Requests on the proxy of a past incarnation are lost.
-/

namespace DataShare

namespace Cpp

structure ProxyDataObserverMapKey where
  uri : StdString
  deriving DecidableEq

instance : Ord ProxyDataObserverMapKey :=
  ⟨compareOn ProxyDataObserverMapKey.uri⟩

instance : Std.TransOrd ProxyDataObserverMapKey :=
  inferInstanceAs (Std.TransCmp (compareOn _))

namespace DataShareManagerImpl

open CallbacksManager

/-! ## The tables -/

/-- The subscriber managers, in the order in which they recover. -/
inductive TableId where
  | rdb | published | proxyData
  deriving DecidableEq

namespace TableId

abbrev Key : TableId → Type
  | .rdb => RdbObserverMapKey
  | .published => PublishedObserverMapKey
  | .proxyData => ProxyDataObserverMapKey

instance : (t : TableId) → Ord t.Key
  | .rdb => inferInstanceAs (Ord RdbObserverMapKey)
  | .published => inferInstanceAs (Ord PublishedObserverMapKey)
  | .proxyData => inferInstanceAs (Ord ProxyDataObserverMapKey)

instance : (t : TableId) → Std.TransOrd t.Key
  | .rdb => inferInstanceAs (Std.TransOrd RdbObserverMapKey)
  | .published => inferInstanceAs (Std.TransOrd PublishedObserverMapKey)
  | .proxyData => inferInstanceAs (Std.TransOrd ProxyDataObserverMapKey)

def index : TableId → ℕ
  | .rdb => 0
  | .published => 1
  | .proxyData => 2

/-- The manager that recovers next. -/
def after : TableId → Option TableId
  | .rdb => some .published
  | .published => some .proxyData
  | .proxyData => none

end TableId

/-- `keysMap`, as the list of its values. -/
def keysMap {κ γ : Type} [Ord γ] [Std.TransOrd γ] (group : κ → γ) (keys : List κ) : List (List κ) :=
  (keys.foldl (fun keysMap key => keysMap.upsert (group key) fun old => old.getD [] ++ [key])
    (.empty : OrderedMap γ (List κ))).entries.map Prod.snd

/-- The requests of `RecoverObservers`, each for a list of keys. -/
def recoverObservers : (t : TableId) → List t.Key → List (List t.Key)
  | .rdb, keys => keysMap RdbObserverMapKey.templateId keys
  | .published, keys => keysMap PublishedObserverMapKey.subscriberId keys
  | .proxyData, keys => if keys.isEmpty then [] else [keys]

/-- The observers of a table, and the requests the running incarnation has got for its keys. -/
structure Table (κ : Type) [Ord κ] where
  callbacks : Callbacks κ ℕ ℕ
  received : List (Request κ)

/-- The running incarnation holds a subscription of the key. -/
def Table.subscribed {κ : Type} [Ord κ] (table : Table κ) (k : κ) : Bool :=
  (serviceAt k table.received).subscribed

/-! ## The manager and the service -/

/-- A proxy is known by the incarnation it belongs to. -/
structure World where
  incarnation : ℕ
  alive : Bool
  /-- The recipients that were added to the running incarnation. -/
  deathRecipients : ℕ
  dataMgrService : Option ℕ
  dataShareService : Option ℕ
  tables : (t : TableId) → Table t.Key
  /-- The incarnations whose `OnAddSystemAbility` is over. -/
  processed : List ℕ

def World.initial : World where
  incarnation := 0
  alive := false
  deathRecipients := 0
  dataMgrService := none
  dataShareService := none
  tables := fun _ => ⟨.empty, []⟩
  processed := []

/-- What the outside replies in a step : whether the lookups of `GetProxy` succeed, and the answer to
the `i`-th key of a request. -/
structure Reply where
  checkSystemAbility : Bool
  getFeatureInterface : Bool
  addDeathRecipient : Bool
  answer : ℕ → Answer

namespace World

variable (world : World)

/-- The proxy is one of the running incarnation. -/
def running (proxy : ℕ) : Bool :=
  world.alive && proxy = world.incarnation

/-- The lookups find only an incarnation that is running. -/
def getDistributedDataManager (reply : Reply) : Option ℕ :=
  if world.alive && reply.checkSystemAbility then some world.incarnation else none

def resetServiceHandle : World :=
  { world with dataMgrService := none, dataShareService := none }

def getProxy (reply : Reply) : World × Option ℕ :=
  match world.dataShareService with
  | some proxy => (world, some proxy)
  | none =>
    match world.dataMgrService.or (world.getDistributedDataManager reply) with
    | none => (world, none)
    | some service =>
      if world.running service && reply.getFeatureInterface then
        if reply.addDeathRecipient then
          ({ world with
              dataMgrService := some service
              dataShareService := some service
              deathRecipients := world.deathRecipients + 1 }, some service)
        else (world.resetServiceHandle, none)
      else ({ world with dataMgrService := none }, none)

def setTable (t : TableId) (table : Table t.Key) : World :=
  { world with tables := Function.update world.tables t table }

def setCallbacks (t : TableId) (callbacks : Callbacks t.Key ℕ ℕ) : World :=
  world.setTable t { world.tables t with callbacks }

/-- A request on a proxy, with its answers. -/
def request (proxy : ℕ) (kind : RequestKind) {κ : Type} (keys : List κ) (reply : Reply) :
    List (Request κ) :=
  sendRequests kind keys (if world.running proxy then reply.answer else fun _ => .lost false)

def receive (t : TableId) (requests : List (Request t.Key)) : World :=
  world.setTable t { world.tables t with received := (world.tables t).received ++ requests }

end World

/-! ## Threads -/

/-- Where a thread stands. The number `n` is the incarnation of an `OnAddSystemAbility`. -/
inductive Thread where
  | onRemoteDied
  | onAddSystemAbility (n : ℕ)
  | getServiceProxy (n : ℕ)
  | getKeys (n proxy : ℕ) (t : TableId)
  | resubscribe (n proxy : ℕ) (t : TableId) (requests : List (List t.Key))
  | getProxy
  | getProxyFor (t : TableId) (c : CallbacksManager.Call t.Key ℕ ℕ)
  | call (proxy : ℕ) (t : TableId) (c : CallbacksManager.Call t.Key ℕ ℕ)
  | sendRequest (proxy : ℕ) (t : TableId) (c : CallbacksManager.Call t.Key ℕ ℕ) (keys : List t.Key)
  | undo (proxy : ℕ) (t : TableId) (c : CallbacksManager.Call t.Key ℕ ℕ) (failed : List t.Key)
  | finished

inductive Outside where
  | die
  | start
  | getServiceProxy
  | call (t : TableId) (c : CallbacksManager.Call t.Key ℕ ℕ)

abbrev ServicePool := Pool World Thread

/-- A message is a proxy that `GetProxy` hands out. -/
abbrev ServiceMove := MachineMove World Thread ℕ

abbrev ServiceEvent := MachineEvent Outside Reply

namespace World

def outside (world : World) : Outside → World × List Thread
  | .die =>
    if world.alive then
      ({ world with alive := false, deathRecipients := 0 },
        List.replicate world.deathRecipients .onRemoteDied)
    else (world, [])
  | .start =>
    if world.alive then (world, [])
    else
      ({ world with
          incarnation := world.incarnation + 1
          alive := true
          tables := fun t => { world.tables t with received := [] } },
        [.onAddSystemAbility (world.incarnation + 1)])
  | .getServiceProxy => (world, [.getProxy])
  | .call t c => (world, [.getProxyFor t c])

/-- `OnAddSystemAbility` is over. -/
def process (world : World) (n : ℕ) : ServiceMove :=
  ⟨{ world with processed := n :: world.processed }, .finished, [], []⟩

/-- `GetProxy`, and where the thread goes with the proxy it gets. -/
def getProxyThen (world : World) (reply : Reply) (fails : World → ServiceMove)
    (goesOn : ℕ → Thread) : ServiceMove :=
  match world.getProxy reply with
  | (world, none) => fails world
  | (world, some proxy) => ⟨world, goesOn proxy, [], [proxy]⟩

def next (world : World) (thread : Thread) (reply : Reply) : ServiceMove :=
  match thread with
  | .onRemoteDied => ⟨world.resetServiceHandle, .finished, [], []⟩
  | .onAddSystemAbility n => ⟨world.resetServiceHandle, .getServiceProxy n, [], []⟩
  | .getServiceProxy n =>
    world.getProxyThen reply (fun world => world.process n) fun proxy => .getKeys n proxy .rdb
  | .getKeys n proxy t =>
    ⟨world, .resubscribe n proxy t (recoverObservers t (world.tables t).callbacks.keys), [], []⟩
  | .resubscribe n proxy t (keys :: requests) =>
    ⟨world.receive t (world.request proxy .subscribe keys reply), .resubscribe n proxy t requests,
      [], []⟩
  | .resubscribe n proxy t [] =>
    match t.after with
    | some t' => ⟨world, .getKeys n proxy t', [], []⟩
    | none => world.process n
  | .getProxy => world.getProxyThen reply (fun world => ⟨world, .finished, [], []⟩) fun _ => .finished
  | .getProxyFor t c =>
    world.getProxyThen reply (fun world => ⟨world, .finished, [], []⟩) fun proxy => .call proxy t c
  | .call proxy t c =>
    let looped := c.loop (world.tables t).callbacks
    ⟨world.setCallbacks t looped.callbacks, .sendRequest proxy t c looped.keys, [], []⟩
  | .sendRequest proxy t c keys =>
    let requests := world.request proxy c.kind keys reply
    ⟨world.receive t requests, .undo proxy t c (failedKeys requests), [], []⟩
  | .undo _ t c failed =>
    ⟨world.setCallbacks t (c.undo failed (world.tables t).callbacks), .finished, [], []⟩
  | .finished => ⟨world, .finished, [], []⟩

end World

def serviceMachine : Machine World Thread Outside Reply ℕ where
  outside := World.outside
  next := World.next

/-- The pool after `events`. -/
def poolAfter (events : List ServiceEvent) : ServicePool :=
  (serviceMachine.run ⟨.initial, []⟩ events).1

/-- Every key that is present is subscribed at the running incarnation. -/
def AllSubscribed (world : World) : Prop :=
  ∀ (t : TableId) (k : t.Key), nodesAt (world.tables t).callbacks k ≠ [] →
    (world.tables t).subscribed k = true

/-- Whenever a proxy of the running incarnation is handed out after its `OnAddSystemAbility`, every
key that is present is subscribed there. -/
def SurvivesRestarts (events : List ServiceEvent) : Prop :=
  ∀ before event after, events = before ++ event :: after →
    ∀ proxy ∈ (serviceMachine.step (poolAfter before) event).2,
      (poolAfter before).shared.running proxy = true →
      proxy ∈ (poolAfter before).shared.processed → AllSubscribed (poolAfter before).shared

/-! ## Facts about single steps -/

section Facts

variable {world : World} {t t' : TableId}

theorem mentions_keysMap {κ γ : Type} [Ord κ] [Ord γ] [Std.TransOrd γ] [Std.LawfulEqOrd γ]
    {group : κ → γ} {keys : List κ} {k : κ} (h : Mentions k keys) :
    ∃ request ∈ keysMap group keys, Mentions k request := by
  obtain ⟨key, hkey, hk⟩ := h
  obtain ⟨entry, hentry, -, hmem⟩ := (OrderedMap.exists_mem_entries_group group id).mpr
    ⟨key, hkey, rfl, rfl⟩
  exact ⟨entry.2, List.mem_map_of_mem hentry, key, hmem, hk⟩

/-- All keys of the table are subscribed again. -/
theorem mentions_recoverObservers {keys : List t.Key} {k : t.Key} (h : Mentions k keys) :
    ∃ request ∈ recoverObservers t keys, Mentions k request := by
  cases t with
  | rdb => exact mentions_keysMap h
  | published => exact mentions_keysMap h
  | proxyData =>
    obtain ⟨key, hkey, hk⟩ := h
    have hne : keys ≠ [] := List.ne_nil_of_mem hkey
    exact ⟨keys, by simp [recoverObservers, hne], key, hkey, hk⟩

@[simp] theorem tables_setTable_self (table : Table t.Key) : (world.setTable t table).tables t = table :=
  Function.update_self ..

theorem tables_setTable_of_ne (table : Table t'.Key) (h : t ≠ t') :
    (world.setTable t' table).tables t = world.tables t :=
  Function.update_of_ne h ..

/-- What `GetProxy` leaves alone, and which handle it leaves and returns. -/
theorem getProxy_cases (world : World) (reply : Reply) : ∃ m d r, (world.getProxy reply).1 =
      { world with dataMgrService := m, dataShareService := d, deathRecipients := r } ∧
    (d = world.dataShareService ∨ d = none ∨ ∃ p, d = some p ∧ world.running p = true) ∧
    ∀ p, (world.getProxy reply).2 = some p → d = some p := by
  unfold World.getProxy
  split
  · next proxy hproxy => exact ⟨_, _, _, rfl, .inl rfl, fun p hp => hproxy.trans hp⟩
  · next hnone =>
    split
    · exact ⟨_, _, _, rfl, .inl rfl, by simp⟩
    · next service hservice =>
      split
      · next hrunning =>
        rw [Bool.and_eq_true] at hrunning
        split
        · exact ⟨_, _, _, rfl, .inr (.inr ⟨service, rfl, hrunning.1⟩), fun p hp => hp⟩
        · exact ⟨_, _, _, rfl, .inr (.inl rfl), by simp⟩
      · exact ⟨_, _, _, rfl, .inl rfl, by simp⟩

end Facts

end DataShareManagerImpl

end Cpp

end DataShare
