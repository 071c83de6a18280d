import DataShare.OrderedMap

/-!
# The callbacks manager

`CallbacksManager<Key, Observer>` keeps the local observers of every key and tells its
callbacks which keys need a service call. The loops under its lock are `addLocal`,
`delLocal`, `enableLocal` and `disableLocal`. The callbacks are those of the subscriber
managers : send one request for each listed key, and undo the local change of the keys
the service refused through the same loops.

What the service answers is not in this code : each call takes the answer to its `i`-th
request. A lost reply carries no result for the key, whether or not the service has
acted on the request.
-/

namespace DataShare

/-! ## Requests to the service -/

inductive RequestKind where
  | subscribe | unsubscribe | enable | disable
  deriving DecidableEq, Repr

/-- The result the service gives for a key, or a lost reply. -/
inductive Answer where
  | replied (errCode : Int)
  | lost (applied : Bool)
  deriving DecidableEq, Repr

def errOk : Int := 0

def errUnregisteredEmpty : Int := 1003

def errSubscriberNotExist : Int := 1047

/-- `DataProxyErrorCode::INNER_ERROR`. -/
def innerError : Int := 4

def Answer.accepted (a : Answer) : Bool :=
  a = .replied errOk

def Answer.refused : Answer → Bool
  | .replied errCode => errCode ≠ errOk
  | .lost _ => false

def Answer.isLost : Answer → Bool
  | .replied _ => false
  | .lost _ => true

structure Request (κ : Type) where
  kind : RequestKind
  key : κ
  answer : Answer

/-- `OperationResult`, and `DataProxyResult` with its code as a number. -/
structure OperationResult (κ : Type) where
  key : κ
  errCode : Int

section Requests

variable {κ : Type}

def sendRequests (kind : RequestKind) (keys : List κ) (answer : ℕ → Answer) : List (Request κ) :=
  keys.mapIdx fun i key => ⟨kind, key, answer i⟩

def failedKeys (sent : List (Request κ)) : List κ :=
  (sent.filter fun r => r.answer.refused).map Request.key

/-- The results in the reply. -/
def replies (sent : List (Request κ)) : List (OperationResult κ) :=
  sent.filterMap fun r =>
    match r.answer with
    | .replied errCode => some ⟨r.key, errCode⟩
    | .lost _ => none

end Requests

/-! ## Observer nodes -/

/-- A registered observer, whose pointer may be null. -/
structure ObserverNode (σ ω : Type) where
  observer : Option ω
  enabled : Bool
  subscriber : σ
  isNotifyOnEnabled : Bool
  deriving DecidableEq

section Nodes

variable {σ ω : Type} [DecidableEq σ]

def ObserverNode.new (observer : Option ω) (subscriber : σ) : ObserverNode σ ω where
  observer := observer
  enabled := true
  subscriber := subscriber
  isNotifyOnEnabled := false

def enabledObservers (nodes : List (ObserverNode σ ω)) : List ω :=
  nodes.filterMap fun value => if value.enabled then value.observer else none

/-- What is left of a key's nodes without those of `subscriber`. -/
def eraseSubscriber (subscriber : σ) (nodes : List (ObserverNode σ ω)) : List (ObserverNode σ ω) :=
  nodes.filter fun node => node.subscriber ≠ subscriber

/-- Enable the first node of `subscriber`. -/
def enableFirst (subscriber : σ) : List (ObserverNode σ ω) → List (ObserverNode σ ω)
  | [] => []
  | node :: nodes =>
    if node.subscriber = subscriber then { node with enabled := true } :: nodes
    else node :: enableFirst subscriber nodes

/-- Disable every node of `subscriber`. -/
def disableSubscriber (subscriber : σ) (nodes : List (ObserverNode σ ω)) :
    List (ObserverNode σ ω) :=
  nodes.map fun item =>
    if item.subscriber = subscriber ∧ item.enabled then
      { item with enabled := false, isNotifyOnEnabled := false }
    else item

end Nodes

namespace CallbacksManager

variable {κ σ ω : Type} [Ord κ]

abbrev Callbacks (κ σ ω : Type) [Ord κ] := OrderedMap κ (List (ObserverNode σ ω))

def getEnabledObservers (callbacks : Callbacks κ σ ω) (inputKey : κ) : List ω :=
  match callbacks.find? inputKey with
  | none => []
  | some nodes => enabledObservers nodes

variable [Std.TransOrd κ]

/-- `callbacks_[key].emplace_back(node)`. -/
def emplaceBack (callbacks : Callbacks κ σ ω) (key : κ) (node : ObserverNode σ ω) :
    Callbacks κ σ ω :=
  callbacks.upsert key fun old => old.getD [] ++ [node]

/-! ## The loops under the lock -/

structure Added (κ σ ω : Type) [Ord κ] where
  callbacks : Callbacks κ σ ω
  firstRegisterKey : List κ
  localRegisterKey : List κ
  result : List (OperationResult κ)

def addObserver (subscriber : σ) (observer : Option ω) (acc : Added κ σ ω) (key : κ) :
    Added κ σ ω :=
  let callbacks := emplaceBack acc.callbacks key (ObserverNode.new observer subscriber)
  if (getEnabledObservers acc.callbacks key).isEmpty then
    { acc with callbacks, firstRegisterKey := acc.firstRegisterKey ++ [key] }
  else
    { acc with
      callbacks
      localRegisterKey := acc.localRegisterKey ++ [key]
      result := acc.result ++ [⟨key, errOk⟩] }

def addLocal (keys : List κ) (subscriber : σ) (observer : Option ω) (callbacks : Callbacks κ σ ω) :
    Added κ σ ω :=
  keys.foldl (addObserver subscriber observer) ⟨callbacks, [], [], []⟩

/-- The loop of the overload for proxy data, which registers every key. -/
def addLocalProxyData (keys : List κ) (subscriber : σ) (observer : Option ω)
    (callbacks : Callbacks κ σ ω) : Callbacks κ σ ω :=
  keys.foldl (fun callbacks key => emplaceBack callbacks key (ObserverNode.new observer subscriber))
    callbacks

/-- The codes for a key that is not registered and for one that keeps observers. -/
structure DelCodes where
  missing : Int
  remaining : Int

def delCodes : DelCodes :=
  ⟨errUnregisteredEmpty, errOk⟩

def delProxyDataCodes : DelCodes :=
  ⟨innerError, innerError⟩

structure Deleted (κ σ ω : Type) [Ord κ] where
  callbacks : Callbacks κ σ ω
  lastDelKeys : List κ
  result : List (OperationResult κ)

section Deletion

variable [DecidableEq σ]

def delLocalObservers (codes : DelCodes) (subscriber : σ) (acc : Deleted κ σ ω) (key : κ) :
    Deleted κ σ ω :=
  match acc.callbacks.find? key with
  | none => { acc with result := acc.result ++ [⟨key, codes.missing⟩] }
  | some nodes =>
    let left := eraseSubscriber subscriber nodes
    let callbacks := acc.callbacks.assign key left
    if left.isEmpty then
      { acc with callbacks, lastDelKeys := acc.lastDelKeys ++ [key] }
    else
      { acc with callbacks, result := acc.result ++ [⟨key, codes.remaining⟩] }

def eraseKeys (keys : List κ) (callbacks : Callbacks κ σ ω) : Callbacks κ σ ω :=
  keys.foldl (fun callbacks key => callbacks.erase key) callbacks

def delLocal (codes : DelCodes) (keys : List κ) (subscriber : σ) (callbacks : Callbacks κ σ ω) :
    Deleted κ σ ω :=
  let deleted := keys.foldl (delLocalObservers codes subscriber) ⟨callbacks, [], []⟩
  { deleted with callbacks := eraseKeys deleted.lastDelKeys deleted.callbacks }

end Deletion

structure Enabled (κ σ ω : Type) [Ord κ] where
  callbacks : Callbacks κ σ ω
  sendServiceKeys : List κ
  /-- The enabled observers, with whether they missed a change. -/
  refreshObservers : OrderedMap κ (List (Option ω × Bool))
  result : List (OperationResult κ)

variable [DecidableEq σ]

def enableObserver (subscriber : σ) (acc : Enabled κ σ ω) (key : κ) : Enabled κ σ ω :=
  let answered (errCode : Int) := { acc with result := acc.result ++ [⟨key, errCode⟩] }
  match acc.callbacks.find? key with
  | none => answered errSubscriberNotExist
  | some nodes =>
    match nodes.find? fun node => node.subscriber = subscriber with
    | none => answered errSubscriberNotExist
    | some node =>
      if node.enabled then answered errOk
      else
        { acc with
          callbacks := acc.callbacks.assign key (enableFirst subscriber nodes)
          sendServiceKeys :=
            if (getEnabledObservers acc.callbacks key).isEmpty then acc.sendServiceKeys ++ [key]
            else acc.sendServiceKeys
          refreshObservers := acc.refreshObservers.upsert key fun old =>
            old.getD [] ++ [(node.observer, node.isNotifyOnEnabled)] }

def enableLocal (keys : List κ) (subscriber : σ) (callbacks : Callbacks κ σ ω) : Enabled κ σ ω :=
  keys.foldl (enableObserver subscriber) ⟨callbacks, [], .empty, []⟩

structure Disabled (κ σ ω : Type) [Ord κ] where
  callbacks : Callbacks κ σ ω
  lastDisabledKeys : List κ
  result : List (OperationResult κ)

def disableObserver (subscriber : σ) (acc : Disabled κ σ ω) (key : κ) : Disabled κ σ ω :=
  let answered (errCode : Int) := { acc with result := acc.result ++ [⟨key, errCode⟩] }
  match acc.callbacks.find? key with
  | none => answered errSubscriberNotExist
  | some nodes =>
    if (getEnabledObservers acc.callbacks key).isEmpty then answered errSubscriberNotExist
    else if nodes.all fun item => item.subscriber ≠ subscriber then
      answered errSubscriberNotExist
    else
      let callbacks := acc.callbacks.assign key (disableSubscriber subscriber nodes)
      if (getEnabledObservers callbacks key).isEmpty then
        { acc with callbacks, lastDisabledKeys := acc.lastDisabledKeys ++ [key] }
      else
        { acc with callbacks, result := acc.result ++ [⟨key, errOk⟩] }

def disableLocal (keys : List κ) (subscriber : σ) (callbacks : Callbacks κ σ ω) :
    Disabled κ σ ω :=
  keys.foldl (disableObserver subscriber) ⟨callbacks, [], []⟩

/-! ## The operations with their service calls -/

structure Outcome (κ σ ω : Type) [Ord κ] where
  callbacks : Callbacks κ σ ω
  requests : List (Request κ)
  result : List (OperationResult κ)

/-- Subscribe the keys that had no enabled observer, and drop `subscriber` from those the
service refuses (with no refused key the loop does nothing). -/
def addObservers (keys : List κ) (subscriber : σ) (observer : Option ω) (answer : ℕ → Answer)
    (callbacks : Callbacks κ σ ω) : Outcome κ σ ω :=
  let added := addLocal keys subscriber observer callbacks
  let sent := sendRequests .subscribe added.firstRegisterKey answer
  { callbacks := (delLocal delCodes (failedKeys sent) subscriber added.callbacks).callbacks
    requests := sent
    result := added.result ++ replies sent }

/-- The overload for proxy data subscribes every key. -/
def addProxyDataObservers (keys : List κ) (subscriber : σ) (observer : Option ω)
    (answer : ℕ → Answer) (callbacks : Callbacks κ σ ω) : Outcome κ σ ω :=
  let added := addLocalProxyData keys subscriber observer callbacks
  let sent := sendRequests .subscribe keys answer
  { callbacks := (delLocal delProxyDataCodes (failedKeys sent) subscriber added).callbacks
    requests := sent
    result := replies sent }

def delKeys (codes : DelCodes) (keys : List κ) (subscriber : σ) (answer : ℕ → Answer)
    (callbacks : Callbacks κ σ ω) : Outcome κ σ ω :=
  let deleted := delLocal codes keys subscriber callbacks
  let sent := sendRequests .unsubscribe deleted.lastDelKeys answer
  { callbacks := deleted.callbacks
    requests := sent
    result := deleted.result ++ replies sent }

def delObservers (keys : List κ) (subscriber : σ) (answer : ℕ → Answer)
    (callbacks : Callbacks κ σ ω) : Outcome κ σ ω :=
  delKeys delCodes keys subscriber answer callbacks

def delProxyDataObservers (keys : List κ) (subscriber : σ) (answer : ℕ → Answer)
    (callbacks : Callbacks κ σ ω) : Outcome κ σ ω :=
  delKeys delProxyDataCodes keys subscriber answer callbacks

/-- `DelObservers(subscriber)` : the loop goes over every registered key. -/
def delAllObservers (subscriber : σ) (answer : ℕ → Answer) (callbacks : Callbacks κ σ ω) :
    Outcome κ σ ω :=
  delKeys delCodes callbacks.keys subscriber answer callbacks

def delAllProxyDataObservers (subscriber : σ) (answer : ℕ → Answer)
    (callbacks : Callbacks κ σ ω) : Outcome κ σ ω :=
  delKeys delProxyDataCodes callbacks.keys subscriber answer callbacks

def enableObservers (keys : List κ) (subscriber : σ) (answer : ℕ → Answer)
    (callbacks : Callbacks κ σ ω) : Outcome κ σ ω :=
  let enabled := enableLocal keys subscriber callbacks
  let sent := sendRequests .enable enabled.sendServiceKeys answer
  { callbacks := (disableLocal (failedKeys sent) subscriber enabled.callbacks).callbacks
    requests := sent
    result := enabled.result ++ replies sent }

def disableObservers (keys : List κ) (subscriber : σ) (answer : ℕ → Answer)
    (callbacks : Callbacks κ σ ω) : Outcome κ σ ω :=
  let disabled := disableLocal keys subscriber callbacks
  let sent := sendRequests .disable disabled.lastDisabledKeys answer
  { callbacks := (enableLocal (failedKeys sent) subscriber disabled.callbacks).callbacks
    requests := sent
    result := disabled.result ++ replies sent }

end CallbacksManager

end DataShare
