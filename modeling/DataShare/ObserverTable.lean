import DataShare.History
import DataShare.CppBuffer
import DataShare.OrderedMap

/-!
# The table of extended observers

All helpers of a process keep their extended observers in one static table : for each user's observer
the `ObserverImpl` the services know it by, and the uris it is registered at. Both channels, the
provider of a helper and the data observer manager, enter a uri before they ask their service and
delete it when a registration fails or an unregistration succeeds, and nobody counts.

So an entry lasts as long as its registrations if no registration fails where the pair of observer
and uri is registered, and no unregistration succeeds where it is registered at another channel, and
only then (`observers_stay_usable`).
-/

namespace DataShare.Cpp

def eNullObserver : Int32 := 1063
def eHelperDied : Int32 := 1064
def eNullObserverClient : Int32 := 1084

/-! ## The table -/

/-- An object that forwards changes to a user's observer. -/
structure ObserverImpl where
  address : ℕ
  dataShareObserver : ℕ
deriving DecidableEq, Repr

structure ObserverParam where
  obs : Option ObserverImpl := none
  uris : List StdString := []
deriving DecidableEq, Repr

/-- `ObserverImpl::observers_`, by the address of the user's observer, and the number of objects made
so far. -/
structure ObserverTable where
  observers : OrderedMap ℕ ObserverParam := .empty
  made : ℕ := 0

namespace ObserverTable

/-- `memory` tells whether `new (std::nothrow)` gets any. -/
def getObserver (table : ObserverTable) (uri : StdString) (observer : ℕ) (memory : Bool) :
    ObserverTable × Option ObserverImpl :=
  let value := (table.observers.find? observer).getD {}
  match value.obs with
  | none =>
    if memory then
      let obs := ⟨table.made, observer⟩
      (⟨table.observers.assign observer ⟨some obs, value.uris ++ [uri]⟩, table.made + 1⟩, some obs)
    else ({ table with observers := table.observers.erase observer }, none)
  | some obs =>
    let uris := if uri ∈ value.uris then value.uris else value.uris ++ [uri]
    ({ table with observers := table.observers.assign observer ⟨some obs, uris⟩ }, some obs)

def findObserver (table : ObserverTable) (uri : StdString) (observer : ℕ) : Bool :=
  match table.observers.find? observer with
  | none => false
  | some value => uri ∈ value.uris

def deleteObserver (table : ObserverTable) (uri : StdString) (observer : ℕ) : ObserverTable :=
  match table.observers.find? observer with
  | none => table
  | some value =>
    let uris := value.uris.filter (uri ≠ ·)
    if uris = [] then { table with observers := table.observers.erase observer }
    else { table with observers := table.observers.assign observer { value with uris := uris } }

end ObserverTable

/-! ## Calls -/

/-- A `DataShareHelperImpl`. -/
structure Helper where
  id : ℕ
  isSystem : Bool
deriving DecidableEq, Repr

/-- Where observers are registered : at the provider of a helper, or at the data observer manager. -/
inductive Channel
  | generalCtl (helper : Helper)
  | obsMgrClient
deriving DecidableEq, Repr

/-- A call to a service. -/
inductive ServiceRequest
  | registerObserver (channel : Channel) (uri : StdString) (obs : ObserverImpl)
      (isDescendants isSystem : Bool)
  | unregisterObserver (channel : Channel) (uri : StdString) (obs : ObserverImpl) (isSystem : Bool)
deriving DecidableEq, Repr

/-- A call of a helper. -/
inductive HelperCall
  | registerObserverExtProvider (helper : Helper) (uri : StdString) (dataObserver : Option ℕ)
      (isDescendants : Bool)
  | unregisterObserverExtProvider (helper : Helper) (uri : StdString) (dataObserver : Option ℕ)
  | tryRegisterObserverExt (helper : Helper) (uri : StdString) (dataObserver : Option ℕ)
      (isDescendants isSystem : Bool)
  | tryUnregisterObserverExt (helper : Helper) (uri : StdString) (dataObserver : Option ℕ)
      (isSystem : Bool)
deriving DecidableEq, Repr

/-- What a call meets : whether there is memory, whether the controller or the client is there, and
what the service answers if it is asked. -/
structure Surroundings where
  memory : Bool := true
  client : Bool := true
  answer : Int32 := 0
deriving DecidableEq, Repr

/-- The table a call leaves, what it sent to the service, and what it returns. -/
structure HelperResult where
  table : ObserverTable
  request : Option ServiceRequest
  ret : Int32

namespace ObserverTable

def registerObserverExtProvider (table : ObserverTable) (around : Surroundings) (helper : Helper)
    (uri : StdString) (dataObserver : Option ℕ) (isDescendants : Bool) : HelperResult :=
  match dataObserver with
  | none => ⟨table, none, eNullObserver⟩
  | some observer =>
    match table.getObserver uri observer around.memory with
    | (table, none) => ⟨table, none, eNullObserver⟩
    | (table, some obs) =>
      if around.client then
        ⟨if around.answer ≠ 0 then table.deleteObserver uri observer else table,
          some (.registerObserver (.generalCtl helper) uri obs isDescendants helper.isSystem),
          around.answer⟩
      else ⟨table, none, eHelperDied⟩

def unregisterObserverExtProvider (table : ObserverTable) (around : Surroundings) (helper : Helper)
    (uri : StdString) (dataObserver : Option ℕ) : HelperResult :=
  match dataObserver with
  | none => ⟨table, none, eNullObserver⟩
  | some observer =>
    if table.findObserver uri observer then
      match table.getObserver uri observer around.memory with
      | (table, none) => ⟨table, none, eNullObserver⟩
      | (table, some obs) =>
        if around.client then
          ⟨if around.answer ≠ 0 then table else table.deleteObserver uri observer,
            some (.unregisterObserver (.generalCtl helper) uri obs helper.isSystem), around.answer⟩
        else ⟨table, none, eHelperDied⟩
    else ⟨table, none, eNullObserver⟩

def tryRegisterObserverExtInner (table : ObserverTable) (around : Surroundings) (uri : StdString)
    (dataObserver : Option ℕ) (isDescendants isSystem : Bool) : HelperResult :=
  match dataObserver with
  | none => ⟨table, none, eNullObserver⟩
  | some observer =>
    if around.client then
      match table.getObserver uri observer around.memory with
      | (table, none) => ⟨table, none, eNullObserver⟩
      | (table, some obs) =>
        ⟨if around.answer ≠ 0 then table.deleteObserver uri observer else table,
          some (.registerObserver .obsMgrClient uri obs isDescendants isSystem), around.answer⟩
    else ⟨table, none, eNullObserverClient⟩

def tryUnregisterObserverExtInner (table : ObserverTable) (around : Surroundings) (uri : StdString)
    (dataObserver : Option ℕ) (isSystem : Bool) : HelperResult :=
  match dataObserver with
  | none => ⟨table, none, eNullObserver⟩
  | some observer =>
    if around.client then
      if table.findObserver uri observer then
        match table.getObserver uri observer around.memory with
        | (table, none) => ⟨table, none, eNullObserver⟩
        | (table, some obs) =>
          ⟨if around.answer ≠ 0 then table else table.deleteObserver uri observer,
            some (.unregisterObserver .obsMgrClient uri obs isSystem), around.answer⟩
      else ⟨table, none, eNullObserver⟩
    else ⟨table, none, eNullObserverClient⟩

def call (table : ObserverTable) (around : Surroundings) : HelperCall → HelperResult
  | .registerObserverExtProvider helper uri dataObserver isDescendants =>
    table.registerObserverExtProvider around helper uri dataObserver isDescendants
  | .unregisterObserverExtProvider helper uri dataObserver =>
    table.unregisterObserverExtProvider around helper uri dataObserver
  | .tryRegisterObserverExt _ uri dataObserver isDescendants isSystem =>
    table.tryRegisterObserverExtInner around uri dataObserver isDescendants isSystem
  | .tryUnregisterObserverExt _ uri dataObserver isSystem =>
    table.tryUnregisterObserverExtInner around uri dataObserver isSystem

end ObserverTable

/-! ## Entries -/

namespace ObserverTable

variable {table : ObserverTable} {uri uri' : StdString} {observer observer' : ℕ}
  {obs obs' : ObserverImpl} {memory : Bool}

/-- The observer is in the table with this object and, among others, this uri. -/
def Keeps (table : ObserverTable) (observer : ℕ) (uri : StdString) (obs : ObserverImpl) : Prop :=
  ∃ value, table.observers.find? observer = some value ∧ value.obs = some obs ∧ uri ∈ value.uris

theorem Keeps.findObserver (h : table.Keeps observer uri obs) :
    table.findObserver uri observer = true := by
  obtain ⟨value, hfind, -, hmem⟩ := h
  simpa [ObserverTable.findObserver, hfind] using hmem

/-- Another uri gets the same object. -/
theorem Keeps.getObserver_snd (h : table.Keeps observer uri obs) :
    (table.getObserver uri' observer memory).2 = some obs := by
  obtain ⟨value, hfind, hobs, -⟩ := h
  simp [getObserver, hfind, hobs]

/-- What is in the table is found and gets its object. -/
theorem Keeps.not_refused (h : table.Keeps observer uri obs) :
    ¬ ((table.getObserver uri observer memory).2 = none ∨
      table.findObserver uri observer = false) := by
  simp [h.getObserver_snd, h.findObserver]

theorem find?_getObserver_of_ne (hne : observer ≠ observer') :
    (table.getObserver uri observer' memory).1.observers.find? observer =
      table.observers.find? observer := by
  unfold getObserver
  dsimp only
  split
  · split
    · simp [OrderedMap.find?_assign, hne]
    · simp [OrderedMap.find?_erase, hne]
  · simp [OrderedMap.find?_assign, hne]

/-- Nothing gets lost when a uri is entered. -/
theorem Keeps.getObserver (h : table.Keeps observer uri obs) :
    (table.getObserver uri' observer' memory).1.Keeps observer uri obs := by
  obtain ⟨value, hfind, hobs, hmem⟩ := h
  by_cases ho : observer = observer'
  · subst ho
    refine ⟨⟨some obs, if uri' ∈ value.uris then value.uris else value.uris ++ [uri']⟩, ?_, rfl, ?_⟩
    · simp [ObserverTable.getObserver, hfind, hobs, OrderedMap.find?_assign]
    · dsimp only
      split
      · exact hmem
      · exact List.mem_append_left _ hmem
  · exact ⟨value, (find?_getObserver_of_ne ho).trans hfind, hobs, hmem⟩

/-- The uri is in the table with the object that was got for it. -/
theorem keeps_getObserver (h : (table.getObserver uri observer memory).2 = some obs) :
    (table.getObserver uri observer memory).1.Keeps observer uri obs := by
  unfold getObserver at h ⊢
  rcases hvalue : ((table.observers.find? observer).getD {}).obs with _ | old
  · simp only [hvalue] at h ⊢
    split at h
    · obtain rfl := Option.some.inj h
      rename_i hmemory
      rw [if_pos hmemory]
      refine ⟨⟨_, ((table.observers.find? observer).getD {}).uris ++ [uri]⟩, ?_, rfl, by simp⟩
      simp [OrderedMap.find?_assign]
    · cases h
  · simp only [hvalue] at h ⊢
    obtain rfl := Option.some.inj h
    generalize ((table.observers.find? observer).getD {}).uris = uris
    refine ⟨⟨some old, if uri ∈ uris then uris else uris ++ [uri]⟩, ?_, rfl, ?_⟩
    · simp [OrderedMap.find?_assign]
    · dsimp only
      split
      · assumption
      · simp

theorem find?_deleteObserver_of_ne (hne : observer ≠ observer') :
    (table.deleteObserver uri observer').observers.find? observer =
      table.observers.find? observer := by
  unfold deleteObserver
  split
  · rfl
  · dsimp only
    split
    · simp [OrderedMap.find?_erase, hne]
    · simp [OrderedMap.find?_assign, hne]

/-- A deletion takes out one uri of one observer. -/
theorem keeps_deleteObserver : (table.deleteObserver uri' observer').Keeps observer uri obs ↔
    table.Keeps observer uri obs ∧ ¬ (observer = observer' ∧ uri = uri') := by
  by_cases ho : observer = observer'
  · subst ho
    unfold deleteObserver Keeps
    rcases hfind : table.observers.find? observer with _ | value
    · simp [hfind]
    · by_cases hnil : value.uris.filter (uri' ≠ ·) = []
      · have hall : ∀ u ∈ value.uris, uri' = u := by simpa using hnil
        simp only [hnil, if_true, OrderedMap.find?_erase, Std.LawfulEqCmp.compare_eq_iff_eq]
        grind
      · simp only [hnil, if_false, OrderedMap.find?_assign, Std.LawfulEqCmp.compare_eq_iff_eq,
          if_true, Option.some.injEq, exists_eq_left', List.mem_filter, decide_eq_true_eq]
        grind
  · simp [Keeps, find?_deleteObserver_of_ne ho, ho]

end ObserverTable

/-! ## Registrations -/

namespace HelperCall

def dataObserver : HelperCall → Option ℕ
  | .registerObserverExtProvider _ _ dataObserver _ | .unregisterObserverExtProvider _ _ dataObserver
  | .tryRegisterObserverExt _ _ dataObserver _ _ | .tryUnregisterObserverExt _ _ dataObserver _ =>
    dataObserver

def uri : HelperCall → StdString
  | .registerObserverExtProvider _ uri _ _ | .unregisterObserverExtProvider _ uri _
  | .tryRegisterObserverExt _ uri _ _ _ | .tryUnregisterObserverExt _ uri _ _ => uri

def channel : HelperCall → Channel
  | .registerObserverExtProvider helper _ _ _ | .unregisterObserverExtProvider helper _ _ =>
    .generalCtl helper
  | .tryRegisterObserverExt _ _ _ _ _ | .tryUnregisterObserverExt _ _ _ _ => .obsMgrClient

/-- The call is to register, not to unregister. -/
def registers : HelperCall → Bool
  | .registerObserverExtProvider _ _ _ _ | .tryRegisterObserverExt _ _ _ _ _ => true
  | .unregisterObserverExtProvider _ _ _ | .tryUnregisterObserverExt _ _ _ _ => false

def isDescendants : HelperCall → Bool
  | .registerObserverExtProvider _ _ _ isDescendants
  | .tryRegisterObserverExt _ _ _ isDescendants _ => isDescendants
  | .unregisterObserverExtProvider _ _ _ | .tryUnregisterObserverExt _ _ _ _ => false

def isSystem : HelperCall → Bool
  | .registerObserverExtProvider helper _ _ _ | .unregisterObserverExtProvider helper _ _ =>
    helper.isSystem
  | .tryRegisterObserverExt _ _ _ _ isSystem | .tryUnregisterObserverExt _ _ _ isSystem => isSystem

end HelperCall

/-- An acknowledged registration, with the object the service got. -/
structure Registration where
  channel : Channel
  observer : ℕ
  uri : StdString
  obs : ObserverImpl
deriving DecidableEq, Repr

/-- A call with what it sent and returned. -/
structure HelperExchange where
  call : HelperCall
  request : Option ServiceRequest
  ret : Int32

/-- The registrations after a call : one more if it registered, without its own if it unregistered. -/
def book (registrations : List Registration) (exchange : HelperExchange) : List Registration :=
  match exchange.call.dataObserver, exchange.request with
  | some observer, some (.registerObserver channel uri obs _ _) =>
    if exchange.ret = 0 then registrations ++ [⟨channel, observer, uri, obs⟩] else registrations
  | some observer, some (.unregisterObserver channel uri _ _) =>
    if exchange.ret = 0 then
      registrations.filter fun r => ¬ (r.channel = channel ∧ r.observer = observer ∧ r.uri = uri)
    else registrations
  | _, _ => registrations

/-- The registrations that were acknowledged and not yet successfully unregistered. -/
def outstanding (log : List HelperExchange) : List Registration :=
  log.foldl book []

/-- One call, in its surroundings. -/
def ObserverTable.step (table : ObserverTable) (input : Surroundings × HelperCall) :
    ObserverTable × List HelperExchange :=
  let result := table.call input.1 input.2
  (result.table, [⟨input.2, result.request, result.ret⟩])

/-- The table and the exchanges after a list of calls of any helpers. -/
def runHelpers (calls : List (Surroundings × HelperCall)) : ObserverTable × List HelperExchange :=
  runCalls ObserverTable.step {} calls

/-- The call is about the observer and the uri of the registration. -/
def HelperCall.Concerns (call : HelperCall) (r : Registration) : Prop :=
  call.dataObserver = some r.observer ∧ call.uri = r.uri

instance (call : HelperCall) : DecidablePred call.Concerns := fun r => by
  unfold HelperCall.Concerns
  infer_instance

/-- Every registration is in the table with its object, and a call to unregister it gets through to
its service with this object. -/
structure Usable (table : ObserverTable) (registrations : List Registration) : Prop where
  present : ∀ r ∈ registrations, table.Keeps r.observer r.uri r.obs
  reaches : ∀ r ∈ registrations, ∀ around call, call.registers = false → call.Concerns r →
    call.channel = r.channel → around.client = true →
    (table.call around call).request =
      some (.unregisterObserver r.channel r.uri r.obs call.isSystem)

/-- A call that fails to register does not concern a registration, and one that unregisters does not
concern one at another channel. -/
def Undisturbed (registrations : List Registration) (input : Surroundings × HelperCall) : Prop :=
  input.1.client = true → ∀ r ∈ registrations, input.2.Concerns r →
    if input.2.registers then input.1.answer = 0
    else input.1.answer = 0 → input.2.channel = r.channel

instance (registrations : List Registration) : DecidablePred (Undisturbed registrations) :=
  fun input => by
    unfold Undisturbed
    infer_instance

/-! ## One call -/

section Step

variable {table : ObserverTable} {around : Surroundings} {call : HelperCall}
  {registrations : List Registration} {r : Registration}

/-- What a call can do : it does not get through to its service, or it registers or unregisters with
the object of its observer. -/
inductive HelperMove (table : ObserverTable) (around : Surroundings) (call : HelperCall) :
    HelperResult → Prop
  | refused {table' : ObserverTable} {ret : Int32} (hkept : ∀ observer uri obs,
      table.Keeps observer uri obs → table'.Keeps observer uri obs)
      (hwhy : around.client = true → ∀ observer, call.dataObserver = some observer →
        (table.getObserver call.uri observer around.memory).2 = none ∨
          table.findObserver call.uri observer = false) :
      HelperMove table around call ⟨table', none, ret⟩
  | registered {observer : ℕ} {obs : ObserverImpl} {table' : ObserverTable}
      (hobserver : call.dataObserver = some observer) (hregisters : call.registers = true)
      (hclient : around.client = true)
      (hget : table.getObserver call.uri observer around.memory = (table', some obs)) :
      HelperMove table around call
        ⟨if around.answer ≠ 0 then table'.deleteObserver call.uri observer else table',
          some (.registerObserver call.channel call.uri obs call.isDescendants call.isSystem),
          around.answer⟩
  | unregistered {observer : ℕ} {obs : ObserverImpl} {table' : ObserverTable}
      (hobserver : call.dataObserver = some observer) (hregisters : call.registers = false)
      (hclient : around.client = true)
      (hget : table.getObserver call.uri observer around.memory = (table', some obs)) :
      HelperMove table around call
        ⟨if around.answer ≠ 0 then table' else table'.deleteObserver call.uri observer,
          some (.unregisterObserver call.channel call.uri obs call.isSystem), around.answer⟩

theorem HelperMove.refused_get {observer : ℕ} {obs : Option ObserverImpl} {table' : ObserverTable}
    {ret : Int32} (hobserver : call.dataObserver = some observer)
    (hget : table.getObserver call.uri observer around.memory = (table', obs))
    (hwhy : around.client = true → obs = none) :
    HelperMove table around call ⟨table', none, ret⟩ := by
  refine .refused (fun observer' uri obs' h => ?_) fun hclient observer' hobserver' => .inl ?_
  · have hkept : (table.getObserver call.uri observer around.memory).1.Keeps observer' uri obs' :=
      h.getObserver
    rwa [hget] at hkept
  · obtain rfl := Option.some.inj (hobserver.symm.trans hobserver')
    rw [hget]
    exact hwhy hclient

theorem HelperMove.refused_same {ret : Int32}
    (hwhy : around.client = true → ∀ observer, call.dataObserver = some observer →
      table.findObserver call.uri observer = false) :
    HelperMove table around call ⟨table, none, ret⟩ :=
  .refused (fun _ _ _ h => h) fun hclient observer hobserver => .inr (hwhy hclient observer hobserver)

theorem call_cases (table : ObserverTable) (around : Surroundings) (call : HelperCall) :
    HelperMove table around call (table.call around call) := by
  cases call with
  | registerObserverExtProvider helper uri dataObserver isDescendants =>
    rcases dataObserver with _ | observer
    · exact .refused_same (by simp [HelperCall.dataObserver])
    · simp only [ObserverTable.call, ObserverTable.registerObserverExtProvider]
      rcases hget : table.getObserver uri observer around.memory with ⟨table', _ | obs⟩
      · exact .refused_get rfl hget fun _ => rfl
      · dsimp only
        by_cases hclient : around.client = true
        · rw [if_pos hclient]
          exact .registered rfl rfl hclient hget
        · rw [if_neg hclient]
          exact .refused_get rfl hget fun h => absurd h hclient
  | unregisterObserverExtProvider helper uri dataObserver =>
    rcases dataObserver with _ | observer
    · exact .refused_same (by simp [HelperCall.dataObserver])
    · simp only [ObserverTable.call, ObserverTable.unregisterObserverExtProvider]
      by_cases hfind : table.findObserver uri observer = true
      · rw [if_pos hfind]
        rcases hget : table.getObserver uri observer around.memory with ⟨table', _ | obs⟩
        · exact .refused_get rfl hget fun _ => rfl
        · dsimp only
          by_cases hclient : around.client = true
          · rw [if_pos hclient]
            exact .unregistered rfl rfl hclient hget
          · rw [if_neg hclient]
            exact .refused_get rfl hget fun h => absurd h hclient
      · rw [if_neg hfind]
        exact .refused_same (by simpa [HelperCall.dataObserver, HelperCall.uri] using fun _ => hfind)
  | tryRegisterObserverExt helper uri dataObserver isDescendants isSystem =>
    rcases dataObserver with _ | observer
    · exact .refused_same (by simp [HelperCall.dataObserver])
    · simp only [ObserverTable.call, ObserverTable.tryRegisterObserverExtInner]
      by_cases hclient : around.client = true
      · rw [if_pos hclient]
        rcases hget : table.getObserver uri observer around.memory with ⟨table', _ | obs⟩
        · exact .refused_get rfl hget fun _ => rfl
        · exact .registered rfl rfl hclient hget
      · rw [if_neg hclient]
        exact .refused_same fun h => absurd h hclient
  | tryUnregisterObserverExt helper uri dataObserver isSystem =>
    rcases dataObserver with _ | observer
    · exact .refused_same (by simp [HelperCall.dataObserver])
    · simp only [ObserverTable.call, ObserverTable.tryUnregisterObserverExtInner]
      by_cases hclient : around.client = true
      · rw [if_pos hclient]
        by_cases hfind : table.findObserver uri observer = true
        · rw [if_pos hfind]
          rcases hget : table.getObserver uri observer around.memory with ⟨table', _ | obs⟩
          · exact .refused_get rfl hget fun _ => rfl
          · exact .unregistered rfl rfl hclient hget
        · rw [if_neg hfind]
          exact .refused_same (by simpa [HelperCall.dataObserver, HelperCall.uri] using fun _ => hfind)
      · rw [if_neg hclient]
        exact .refused_same fun h => absurd h hclient

/-- All registrations are in the table. -/
def Present (table : ObserverTable) (registrations : List Registration) : Prop :=
  ∀ r ∈ registrations, table.Keeps r.observer r.uri r.obs

/-- An unregistration of what is in the table gets through to the service with the same object. -/
theorem request_of_keeps (h : table.Keeps r.observer r.uri r.obs) (hregisters : call.registers = false)
    (hconcerns : call.Concerns r) (hchannel : call.channel = r.channel)
    (hclient : around.client = true) :
    (table.call around call).request =
      some (.unregisterObserver r.channel r.uri r.obs call.isSystem) := by
  obtain ⟨hobserver, huri⟩ := hconcerns
  have hcases := call_cases table around call
  generalize table.call around call = result at hcases ⊢
  cases hcases with
  | refused _ hwhy => exact absurd (huri ▸ hwhy hclient r.observer hobserver) h.not_refused
  | registered _ hregisters' =>
    rw [hregisters] at hregisters'
    cases hregisters'
  | unregistered hobserver' _ _ hget =>
    obtain rfl := Option.some.inj (hobserver'.symm.trans hobserver)
    have hobs : (table.getObserver call.uri r.observer around.memory).2 = some r.obs :=
      h.getObserver_snd
    rw [hget] at hobs
    obtain rfl := Option.some.inj hobs
    rw [hchannel, huri]

theorem usable_iff_present : Usable table registrations ↔ Present table registrations :=
  ⟨Usable.present, fun h => ⟨h, fun r hr _ _ hregisters hconcerns hchannel hclient =>
    request_of_keeps (h r hr) hregisters hconcerns hchannel hclient⟩⟩

theorem present_deleteObserver {observer : ℕ} {uri : StdString}
    (h : Present table registrations) :
    Present (table.deleteObserver uri observer) registrations ↔
      ∀ r ∈ registrations, ¬ (r.observer = observer ∧ r.uri = uri) :=
  forall₂_congr fun r hr => ObserverTable.keeps_deleteObserver.trans (and_iff_right (h r hr))

/-- After a call all registrations are in the table exactly if the call disturbs none. -/
theorem present_step (h : Present table registrations) (input : Surroundings × HelperCall) :
    Present (table.step input).1 ((table.step input).2.foldl book registrations) ↔
      Undisturbed registrations input := by
  obtain ⟨around, call⟩ := input
  simp only [ObserverTable.step, List.foldl_cons, List.foldl_nil]
  have hcases := call_cases table around call
  generalize table.call around call = result at hcases ⊢
  have hgot : ∀ {observer obs table'},
      table.getObserver call.uri observer around.memory = (table', some obs) →
      Present table' registrations := by
    intro observer obs table' hget r hr
    have hkept : (table.getObserver call.uri observer around.memory).1.Keeps r.observer r.uri r.obs :=
      (h r hr).getObserver
    rwa [hget] at hkept
  cases hcases with
  | refused hkept hwhy =>
    have hbook : ∀ ret, book registrations ⟨call, none, ret⟩ = registrations := by
      intro ret
      unfold book
      split <;> simp_all
    refine iff_of_true ?_ ?_
    · rw [hbook]
      exact fun r hr => hkept _ _ _ (h r hr)
    · rintro hclient r hr ⟨hobserver, huri⟩
      dsimp only at hobserver huri
      exact absurd (huri ▸ hwhy hclient r.observer hobserver) (h r hr).not_refused
  | @registered observer obs table' hobserver hregisters hclient hget =>
    by_cases hanswer : around.answer = 0
    · refine iff_of_true ?_ ?_
      · simp only [book, hobserver, hanswer, if_true, ne_eq, not_true, if_false]
        intro r hr
        rcases List.mem_append.mp hr with hr | hr
        · exact hgot hget r hr
        · obtain rfl := List.mem_singleton.mp hr
          have hkept : (table.getObserver call.uri observer around.memory).1.Keeps observer
              call.uri obs := ObserverTable.keeps_getObserver (by rw [hget])
          rwa [hget] at hkept
      · intro _ _ _ _
        rw [if_pos hregisters]
        exact hanswer
    · simp only [book, hobserver, hanswer, if_false, ne_eq, not_false_eq_true, if_true]
      rw [present_deleteObserver (hgot hget)]
      simp [Undisturbed, HelperCall.Concerns, hclient, hregisters, hanswer, hobserver, eq_comm]
  | @unregistered observer obs table' hobserver hregisters hclient hget =>
    by_cases hanswer : around.answer = 0
    · simp only [book, hobserver, hanswer, if_true, ne_eq, not_true, if_false]
      rw [present_deleteObserver fun r hr => hgot hget r (List.mem_of_mem_filter hr)]
      simp [Undisturbed, HelperCall.Concerns, hclient, hregisters, hanswer, hobserver]
      grind
    · refine iff_of_true ?_ ?_
      · simp only [book, hobserver, hanswer, if_false, ne_eq, not_false_eq_true, if_true]
        exact hgot hget
      · intro _ _ _ _
        rw [hregisters]
        exact fun h => absurd h hanswer

end Step

/-! ## Runs -/

/-- An acknowledged registration that was not yet successfully unregistered is in the table, and an
unregistration of it gets through to the service with the object that was registered, at all times of
a run, exactly if no call fails to register a registered observer and uri and none unregisters them
where they are registered at another channel. -/
theorem observers_stay_usable (calls : List (Surroundings × HelperCall)) :
    (∀ before, before <+: calls → Usable (runHelpers before).1 (outstanding (runHelpers before).2)) ↔
      Throughout (fun before call => Undisturbed (outstanding (runHelpers before).2) call) calls := by
  simp only [usable_iff_present]
  induction calls using List.reverseRecOn with
  | nil =>
    refine iff_of_true ?_ throughout_nil
    intro before hbefore
    obtain rfl := List.prefix_nil.mp hbefore
    exact fun r hr => absurd hr (List.not_mem_nil)
  | append_singleton calls call ih =>
    simp only [List.prefix_concat_iff, forall_eq_or_imp, throughout_concat, ← ih]
    rw [and_comm]
    refine and_congr_right fun h => ?_
    have hstep := present_step (h calls List.prefix_rfl) call
    unfold runHelpers outstanding at hstep ⊢
    rw [runCalls_concat]
    simpa [advance, List.foldl_append] using hstep

/-- An observer is registered at a uri, and once more, when the provider is gone. -/
def failedRepetition : List (Surroundings × HelperCall) :=
  [({}, .registerObserverExtProvider ⟨1, false⟩ [47] (some 7) false),
    ({ answer := eHelperDied }, .registerObserverExtProvider ⟨1, false⟩ [47] (some 7) false)]

/-- A repeated registration that fails takes out the entry of the one that was acknowledged. -/
theorem failed_repetition_removes_entry : ¬ ∀ calls,
    Usable (runHelpers calls).1 (outstanding (runHelpers calls).2) := by
  intro h
  obtain ⟨value, hfind, -⟩ := (h failedRepetition).present
    ⟨.generalCtl ⟨1, false⟩, 7, [47], ⟨0, 7⟩⟩ (by decide +kernel)
  have hnone : (runHelpers failedRepetition).1.observers.find? 7 = none :=
    Option.isNone_iff_eq_none.mp (by decide +kernel)
  exact absurd (hnone.symm.trans hfind) (by simp)

end DataShare.Cpp
