import DataShare.CppBuffer
import DataShare.OrderedMap
import DataShare.ThreadMachine

/-!
# The C++ connection to a provider

`DataShareConnection` keeps the proxy of a provider extension. The ability manager answers a `Connect`
with `OnAbilityConnectDone` and reports a lost or ended connection with `OnAbilityDisconnectDone` ; the
latter reconnects, the first time at once and later through delayed tasks of a pool. From the second
connection on the observers are registered again.

The threads are those of the ability manager's callbacks, of the pool's tasks and of the users'
calls. A step is a block under the mutex, an access of an atomic member or of the budget of
reconnects, a call of the ability manager or of the provider. `connectionMachine` has all threads of
one connection ; its outside is the clock, the users, the ability manager and the provider, which
may refuse any call.
-/

namespace DataShare

namespace Cpp

/-! ## The connection's members -/

/-- Times in milliseconds. -/
structure DataShareConnectionInfo where
  count : ℤ := 0
  firstTime : ℤ := 0
  prevTime : ℤ := 0
  deriving DecidableEq

structure Param where
  uri : StdString
  isDescendants : Bool
  deriving DecidableEq

/-- The observers by their addresses, each with what it was registered for. -/
abbrev ObserverExts := OrderedMap ℕ (List Param)

/-- A proxy is known by the process of the provider it calls. -/
structure DataShareConnection where
  dataShareProxy : Option ℕ
  uri : StdString
  isInvalid : Bool
  isReconnect : Bool
  reConnects : DataShareConnectionInfo
  observerExtsProvider : ObserverExts
  deriving DecidableEq

namespace DataShareConnection

def maxReconnect : ℤ := 6

/-- `RECONNECT_TIME_INTERVAL`. -/
def reconnectTimeInterval : ℤ := 10000

/-- `MAX_RECONNECT_TIME_INTERVAL`. -/
def maxReconnectTimeInterval : ℤ := 70000

def new (uri : StdString) : DataShareConnection where
  dataShareProxy := none
  uri := uri
  isInvalid := false
  isReconnect := false
  reConnects := {}
  observerExtsProvider := .empty

def UpdateObserverExtsProviderMap (connection : DataShareConnection) (uri : StdString)
    (dataObserver : ℕ) (isDescendants : Bool) : DataShareConnection where
  __ := connection
  observerExtsProvider := connection.observerExtsProvider.upsert dataObserver fun value =>
    value.getD [] ++ [⟨uri, isDescendants⟩]

def DeleteObserverExtsProviderMap (connection : DataShareConnection) (uri : StdString)
    (dataObserver : ℕ) : DataShareConnection where
  __ := connection
  observerExtsProvider :=
    let observers := connection.observerExtsProvider
    let value := ((observers.find? dataObserver).getD []).filter fun param => uri ≠ param.uri
    if value.isEmpty then observers.erase dataObserver else observers.assign dataObserver value

/-- The entries in the order `ForEach` visits them. -/
def entriesOf (observers : ObserverExts) : List (ℕ × Param) :=
  observers.entries.flatMap fun e => e.2.map fun param => (e.1, param)

/-- The budget at the start of `DelayConnectExtAbility` : it is new again after the window. -/
def renewed (now : ℤ) (reConnects : DataShareConnectionInfo) : DataShareConnectionInfo :=
  if now - reConnects.prevTime ≥ maxReconnectTimeInterval then
    { count := 0, firstTime := now, prevTime := now }
  else
    reConnects

/-- `delay` of a task. -/
def delayOf (now : ℤ) (reConnects : DataShareConnectionInfo) : ℤ :=
  if now - reConnects.prevTime ≥ reconnectTimeInterval then 0 else reconnectTimeInterval

end DataShareConnection

/-! ## Outside the connection -/

/-- The ability manager's connections of this object, by number : those it was asked for and has not
answered, and those that stand. -/
structure AbilityManager where
  next : ℕ
  connecting : List ℕ
  established : List ℕ
  deriving DecidableEq

def AbilityManager.connect (ams : AbilityManager) : AbilityManager :=
  { ams with next := ams.next + 1, connecting := ams.next :: ams.connecting }

/-- The provider's process, and the observers registered with it. -/
structure Provider where
  process : ℕ
  registrations : List (ℕ × StdString)
  deriving DecidableEq

/-- What the threads share. -/
structure World where
  connection : DataShareConnection
  ams : AbilityManager
  provider : Provider
  clock : ℤ
  deriving DecidableEq

/-! ## Threads -/

/-- What a user wants the proxy for. -/
inductive Use where
  | request
  | registerObserverExtProvider (uri : StdString) (dataObserver : ℕ) (isDescendants : Bool)
  | unregisterObserverExtProvider (uri : StdString) (dataObserver : ℕ)
  deriving DecidableEq

/-- A user's call, or the deleter of the shared connection. -/
inductive UserCall where
  | getDataShareProxy (uri : StdString) (use : Use)
  | release
  deriving DecidableEq

/-- The next step of a thread. -/
inductive Thread where
  /-- `OnAbilityConnectDone` -/
  | storeProxy (connection : ℕ) (remoteObject : Option ℕ)
  | loadInvalid (connection : ℕ)
  | disconnect (connection : ℕ)
  | exchangeReconnect
  /-- `ReRegisterObserverExtProvider` -/
  | moveObservers
  | clearObservers (entries : List (ℕ × Param))
  | loadProxy (entries : List (ℕ × Param))
  | reRegister (proxy : ℕ) (entries : List (ℕ × Param))
  | storeBack (proxy : ℕ) (entry : ℕ × Param) (entries : List (ℕ × Param))
  /-- `OnAbilityDisconnectDone`, `ReconnectExtAbility`, `DelayConnectExtAbility` -/
  | clearProxy
  | reconnect (uri : StdString)
  | connectNow (uri : StdString)
  | chargeFirst
  | delayConnect (uri : StdString)
  | task (due : ℤ) (uri : StdString)
  | charge
  /-- `ConnectDataShareExtAbility`, and what its caller does with the proxy -/
  | findProxy (uri : StdString) (use : Use)
  | connect (reqUri : StdString) (use : Use)
  | awaitProxy (use : Use)
  | call (proxy : ℕ) (use : Use)
  | record (use : Use)
  /-- `SetConnectInvalid`, `DisconnectDataShareExtAbility` -/
  | setInvalid
  | clearUri
  | disconnectReleased
  | finished
  deriving DecidableEq

inductive Message where
  /-- An automatic reconnect succeeded. -/
  | reconnected (time : ℤ)
  /-- A call of the user returned `E_OK`. -/
  | registered (dataObserver : ℕ) (uri : StdString)
  | unregistered (dataObserver : ℕ) (uri : StdString)
  /-- The new proxy accepted a stored observer. -/
  | reRegistered (dataObserver : ℕ) (uri : StdString)
  /-- The deleter returned. -/
  | released
  deriving DecidableEq

abbrev ConnectionMove := MachineMove World Thread Message

namespace World

open DataShareConnection

/-- A step that changes the connection only. -/
def become (world : World) (connection : DataShareConnection) (thread : Thread)
    (started : List Thread) (sent : List Message) : ConnectionMove :=
  ⟨{ world with connection := connection }, thread, started, sent⟩

/-- A step that changes nothing. -/
def pass (world : World) (thread : Thread) : ConnectionMove :=
  ⟨world, thread, [], []⟩

/-- `AmsMgrProxy::Connect` that succeeds. -/
def connected (world : World) (thread : Thread) (sent : List Message) : ConnectionMove :=
  ⟨{ world with ams := world.ams.connect }, thread, [], sent⟩

/-- `AmsMgrProxy::DisConnect` ends the connections that stand, and is answered. -/
def disconnected (world : World) (sent : List Message) : ConnectionMove :=
  ⟨{ world with ams := { world.ams with established := [] } }, .finished, [.clearProxy], sent⟩

/-- The user has got `proxy`. -/
def got (proxy : Option ℕ) (use : Use) : Thread :=
  match use, proxy with
  | .request, _ => .finished
  | _, none => .finished
  | use, some proxy => .call proxy use

/-- A call of the provider through a proxy, which fails if the provider's process is gone. -/
def answers (world : World) (proxy : ℕ) (reply : Bool) : Bool :=
  reply && proxy = world.provider.process

def register (world : World) (dataObserver : ℕ) (uri : StdString) : World :=
  { world with provider.registrations := (dataObserver, uri) :: world.provider.registrations }

def unregister (world : World) (dataObserver : ℕ) (uri : StdString) : World :=
  { world with provider.registrations :=
      world.provider.registrations.filter fun e => e ≠ (dataObserver, uri) }

/-- The next step of a thread. `reply` says whether the ability manager, the pool or the provider
accepts the call it makes. -/
def next (world : World) (thread : Thread) (reply : Bool) : ConnectionMove :=
  let c := world.connection
  match thread with
  | .storeProxy _ none => world.pass .finished
  | .storeProxy n (some remoteObject) =>
    world.become { c with dataShareProxy := some remoteObject } (.loadInvalid n) [] []
  | .loadInvalid n => world.pass (if c.isInvalid then .disconnect n else .exchangeReconnect)
  | .disconnect _ => world.disconnected []
  | .exchangeReconnect =>
    world.become { c with isReconnect := true }
      (if c.isReconnect then .moveObservers else .finished) [] []
  | .moveObservers =>
    world.become { c with observerExtsProvider := .empty }
      (.clearObservers (entriesOf c.observerExtsProvider)) [] []
  | .clearObservers entries =>
    world.become { c with observerExtsProvider := .empty } (.loadProxy entries) [] []
  | .loadProxy entries =>
    match c.dataShareProxy with
    | none => world.pass .finished
    | some proxy => world.pass (.reRegister proxy entries)
  | .reRegister _ [] => world.pass .finished
  | .reRegister proxy (entry :: entries) =>
    if world.answers proxy reply then
      ⟨world.register entry.1 entry.2.uri, .storeBack proxy entry entries, [],
        [.reRegistered entry.1 entry.2.uri]⟩
    else
      world.pass (.reRegister proxy entries)
  | .storeBack proxy entry entries =>
    world.become (c.UpdateObserverExtsProviderMap entry.2.uri entry.1 entry.2.isDescendants)
      (.reRegister proxy entries) [] []
  | .clearProxy =>
    world.become { c with dataShareProxy := none }
      (if c.uri.isEmpty then .finished else .reconnect c.uri) [] []
  | .reconnect uri =>
    world.pass (if c.reConnects.count = 0 then .connectNow uri else .delayConnect uri)
  | .connectNow _ =>
    if reply then world.connected .chargeFirst [.reconnected world.clock] else world.pass .finished
  | .chargeFirst =>
    world.become { c with reConnects := ⟨1, world.clock, world.clock⟩ } .finished [] []
  | .delayConnect uri =>
    let reConnects := renewed world.clock c.reConnects
    world.become { c with reConnects := reConnects } .finished
      (if reConnects.count < maxReconnect ∧ reply then
        [.task (world.clock + delayOf world.clock reConnects) uri]
      else []) []
  | .task due uri =>
    if world.clock < due then world.pass (.task due uri)
    else if reply then world.connected .charge [.reconnected world.clock]
    else world.pass .finished
  | .charge =>
    world.become { c with reConnects :=
      { c.reConnects with count := c.reConnects.count + 1, prevTime := world.clock } } .finished [] []
  | .findProxy uri use =>
    match c.dataShareProxy with
    | some proxy => world.pass (got (some proxy) use)
    | none => world.pass (.connect (if c.uri.isEmpty then uri else c.uri) use)
  | .connect _ use =>
    if reply then world.connected (.awaitProxy use) [] else world.pass .finished
  | .awaitProxy use => world.pass (got c.dataShareProxy use)
  | .call proxy (.registerObserverExtProvider uri dataObserver isDescendants) =>
    if world.answers proxy reply then
      ⟨world.register dataObserver uri,
        .record (.registerObserverExtProvider uri dataObserver isDescendants), [], []⟩
    else world.pass .finished
  | .call proxy (.unregisterObserverExtProvider uri dataObserver) =>
    if world.answers proxy reply then
      ⟨world.unregister dataObserver uri,
        .record (.unregisterObserverExtProvider uri dataObserver), [], []⟩
    else world.pass .finished
  | .call _ .request => world.pass .finished
  | .record (.registerObserverExtProvider uri dataObserver isDescendants) =>
    world.become (c.UpdateObserverExtsProviderMap uri dataObserver isDescendants) .finished []
      [.registered dataObserver uri]
  | .record (.unregisterObserverExtProvider uri dataObserver) =>
    world.become (c.DeleteObserverExtsProviderMap uri dataObserver) .finished []
      [.unregistered dataObserver uri]
  | .record .request => world.pass .finished
  | .setInvalid => world.become { c with isInvalid := true } .clearUri [] []
  | .clearUri =>
    if c.dataShareProxy = none then
      world.become { c with uri := [] } .finished [] [.released]
    else
      world.become { c with uri := [] } .disconnectReleased [] []
  | .disconnectReleased => world.disconnected [.released]
  | .finished => world.pass .finished

end World

/-! ## Events -/

/-- What happens outside the connection : time passes, a user calls, the ability manager answers a
`Connect`, a connection is lost, or the provider's process exits and with it all connections. -/
inductive Outside where
  | tick (ms : ℕ)
  | user (call : UserCall)
  | connectDone (connection : ℕ) (accepted : Bool)
  | lost (connection : ℕ)
  | exited
  deriving DecidableEq

def UserCall.thread : UserCall → Thread
  | .getDataShareProxy uri use => .findProxy uri use
  | .release => .setInvalid

def World.outside (world : World) : Outside → World × List Thread
  | .tick ms => ({ world with clock := world.clock + ms }, [])
  | .user call => (world, [call.thread])
  | .connectDone n accepted =>
    if n ∈ world.ams.connecting then
      if accepted then
        ({ world with ams := { world.ams with
            connecting := world.ams.connecting.erase n
            established := n :: world.ams.established } },
          [.storeProxy n (some world.provider.process)])
      else
        ({ world with ams.connecting := world.ams.connecting.erase n }, [.storeProxy n none])
    else (world, [])
  | .lost n =>
    if n ∈ world.ams.established then
      ({ world with ams.established := world.ams.established.erase n }, [.clearProxy])
    else (world, [])
  | .exited =>
    ({ world with
        ams.established := []
        provider := ⟨world.provider.process + 1, []⟩ },
      world.ams.established.map fun _ => .clearProxy)

def connectionMachine : Machine World Thread Outside Bool Message :=
  ⟨World.outside, World.next⟩

abbrev ConnectionEvent := MachineEvent Outside Bool

abbrev ConnectionPool := Pool World Thread

/-- A connection nobody has used. -/
def World.initial (uri : StdString) (clock : ℤ) : World where
  connection := .new uri
  ams := ⟨0, [], []⟩
  provider := ⟨0, []⟩
  clock := clock

/-- The connection and the messages after `events`. -/
def runConnection (uri : StdString) (clock : ℤ) (events : List ConnectionEvent) :
    ConnectionPool × List Message :=
  connectionMachine.run ⟨World.initial uri clock, []⟩ events

/-- The next steps of a thread, each call of which is accepted. -/
def steps (i n : ℕ) : List ConnectionEvent :=
  List.replicate n (.advance i true)

/-- A first user connects. -/
def firstConnect : List ConnectionEvent :=
  ([.outside (.user (.getDataShareProxy [47] .request))] : List ConnectionEvent) ++ steps 0 2 ++
    ([.outside (.connectDone 0 true)] : List ConnectionEvent) ++ steps 1 3 ++ steps 0 1

end Cpp

end DataShare
