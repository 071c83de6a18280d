import DataShare.OrderedMap
import DataShare.RustConnection

/-!
# Observers of the Rust connection across reconnections

`register_observer_ext_provider` registers an observer at the provider and stores it in the
connection. When a reconnect succeeds, `re_register_observer_ext_provider` takes the stored
observers out and passes each to `DataObsMgrClient::register_observer_ext`, which is the data
observer manager and not the provider that was reconnected ; what it accepts is stored again. So the
provider never learns of an observer again, and one that is unregistered meanwhile comes back
(`observer_not_registered_again`).

The machine is that of the connection (`RustConnection`), with the observers, the raw pointer of the
remote object and the user's calls added. For one observer and URI, `Untaken` says that no
connection is accepted while it is stored, and that no re-registration takes it. Then what is stored
is what was acknowledged (`Stored`), and nothing that a user relies on is left behind by a reconnect
(`observers_survive_reconnections`).
-/

namespace DataShare

namespace Rust

namespace ReRegistration

/-! ## The stored observers -/

/-- An observer id and a URI. -/
abbrev Pair := ℕ × String

structure ObserverParam where
  uri : String
  isDescendants : Bool
  deriving DecidableEq

/-- `observer_exts_provider`, in the order of the ids. -/
abbrev ObserverExts := OrderedMap ℕ (List ObserverParam)

/-- `update_observer_exts_provider_map`. -/
def updateObserverExtsProviderMap (observers : ObserverExts) (uri : String) (observerId : ℕ)
    (isDescendants : Bool) : ObserverExts :=
  observers.upsert observerId fun params => params.getD [] ++ [⟨uri, isDescendants⟩]

/-- `delete_observer_exts_provider_map`. -/
def deleteObserverExtsProviderMap (observers : ObserverExts) (uri : String) (observerId : ℕ) :
    ObserverExts :=
  match observers.find? observerId with
  | none => observers
  | some params =>
    let params := params.filter fun param => param.uri ≠ uri
    if params.isEmpty then observers.erase observerId else observers.assign observerId params

/-- What a re-registration goes through. -/
def entriesOf (observers : ObserverExts) : List (ℕ × ObserverParam) :=
  observers.entries.flatMap fun entry => entry.2.map fun param => (entry.1, param)

/-- The `is_descendants` flags that are stored for the pair. -/
def storedFlags (pair : Pair) (observers : ObserverExts) : List Bool :=
  (((observers.find? pair.1).getD []).filter fun param => param.uri = pair.2).map (·.isDescendants)

@[simp] theorem storedFlags_empty (pair : Pair) : storedFlags pair .empty = [] :=
  rfl

theorem storedFlags_update (pair : Pair) (observers : ObserverExts) (uri : String) (observerId : ℕ)
    (isDescendants : Bool) :
    storedFlags pair (updateObserverExtsProviderMap observers uri observerId isDescendants) =
      storedFlags pair observers ++ if (observerId, uri) = pair then [isDescendants] else [] := by
  obtain ⟨id, u⟩ := pair
  unfold storedFlags updateObserverExtsProviderMap
  rw [OrderedMap.find?_upsert]
  dsimp only
  by_cases hid : id = observerId
  · subst hid
    rw [if_pos Std.ReflCmp.compare_self, Option.getD_some, List.filter_append, List.map_append]
    by_cases hu : uri = u <;> simp [hu]
  · have hne : compare id observerId ≠ .eq := fun h => hid (Std.LawfulEqOrd.eq_of_compare h)
    rw [if_neg hne, if_neg (by simp [Ne.symm hid]), List.append_nil]

theorem getD_find?_delete (id observerId : ℕ) (observers : ObserverExts) (uri : String) :
    ((deleteObserverExtsProviderMap observers uri observerId).find? id).getD [] =
      if id = observerId then ((observers.find? id).getD []).filter fun param => param.uri ≠ uri
      else (observers.find? id).getD [] := by
  unfold deleteObserverExtsProviderMap
  split
  · next hnone =>
    split
    · next h => rw [h, hnone]; rfl
    · rfl
  · next params hparams =>
    by_cases hid : id = observerId
    · subst hid
      dsimp only
      rw [if_pos rfl, hparams, Option.getD_some]
      split
      · next hempty =>
        rw [OrderedMap.find?_erase, if_pos Std.ReflCmp.compare_self]
        exact (List.isEmpty_iff.mp hempty).symm
      · rw [OrderedMap.find?_assign, if_pos Std.ReflCmp.compare_self, Option.getD_some]
    · have hne : compare id observerId ≠ .eq := fun h => hid (Std.LawfulEqOrd.eq_of_compare h)
      dsimp only
      rw [if_neg hid]
      split
      · rw [OrderedMap.find?_erase, if_neg hne]
      · rw [OrderedMap.find?_assign, if_neg hne]

theorem storedFlags_delete (pair : Pair) (observers : ObserverExts) (uri : String) (observerId : ℕ) :
    storedFlags pair (deleteObserverExtsProviderMap observers uri observerId) =
      if (observerId, uri) = pair then [] else storedFlags pair observers := by
  obtain ⟨id, u⟩ := pair
  unfold storedFlags
  rw [getD_find?_delete]
  dsimp only
  by_cases hid : id = observerId
  · subst hid
    rw [if_pos rfl, List.filter_filter]
    by_cases hu : uri = u
    · subst hu
      simp
    · rw [if_neg (by simpa using hu)]
      congr 1
      refine List.filter_congr fun param _ => ?_
      by_cases hparam : param.uri = u <;> simp [hparam, Ne.symm hu]
  · rw [if_neg hid, if_neg (by simp [Ne.symm hid])]

/-- A pair without flags is in no entry. -/
theorem not_mem_entriesOf {pair : Pair} {observers : ObserverExts} (h : storedFlags pair observers = []) :
    ∀ entry ∈ entriesOf observers, (entry.1, entry.2.uri) ≠ pair := by
  rintro ⟨id, param⟩ hentry rfl
  obtain ⟨⟨o, params⟩, hparams, hmem⟩ := List.mem_flatMap.mp hentry
  obtain ⟨param', hparam, heq⟩ := List.mem_map.mp hmem
  obtain ⟨rfl, rfl⟩ := Prod.mk.inj heq
  unfold storedFlags at h
  dsimp only at h hparam
  rw [OrderedMap.mem_entries_iff.mp hparams, Option.getD_some, List.map_eq_nil_iff,
    List.filter_eq_nil_iff] at h
  exact h param' hparam (decide_eq_true rfl)

/-! ## The machine -/

/-- The connection with its observers. -/
structure ObserverWorld where
  base : World
  observerExtsProvider : ObserverExts
  proxyRemoteRaw : Option ℕ

/-- A user's call. -/
inductive Use
  | registerObserverExtProvider (pair : Pair) (isDescendants : Bool)
  | unregisterObserverExtProvider (pair : Pair)
  deriving DecidableEq

def Use.pair : Use → Pair
  | .registerObserverExtProvider pair _ | .unregisterObserverExtProvider pair => pair

/-- Where a call or callback stands. -/
inductive ObserverThread
  | connection (thread : Thread)
  | storeRemote (n : ℕ)
  | clearRemote (thread : Thread)
  | storeProxy (n : ℕ)
  | loadInvalid
  | loadReconnect
  | takeObservers
  | reRegister (entries : List (ℕ × ObserverParam))
  | storeBack (entry : ℕ × ObserverParam) (entries : List (ℕ × ObserverParam))
  | readRemote (use : Use)
  | callProvider (n : ℕ) (use : Use)
  | record (use : Use)
  | answer (use : Use)
  deriving DecidableEq

/-- Who an observer is registered at. -/
inductive Receiver
  | provider (n : ℕ)
  | dataObsMgr
  deriving DecidableEq

/-- What the user is told, and what a callback does about the observers. -/
inductive ObserverMessage
  | connection (message : Message)
  | registered (pair : Pair) (isDescendants : Bool)
  | unregistered (pair : Pair)
  | reRegistered (receiver : Receiver) (pair : Pair) (isDescendants : Bool)
  deriving DecidableEq

abbrev ObserverMove := MachineMove ObserverWorld ObserverThread ObserverMessage

/-- A thread that the connection starts : `on_connect_ffi` stores the raw pointer first. -/
def ObserverThread.of : Thread → ObserverThread
  | .storeProxy n => .storeRemote n
  | thread => .connection thread

/-- Where a thread of the connection goes on : the raw pointer is cleared after the proxy is, and
before the handle is disconnected. -/
def ObserverThread.goOn : Thread → Thread → ObserverThread
  | .clearProxy, thread => .clearRemote thread
  | .checkProxy, .disconnectHandle => .clearRemote .disconnectHandle
  | _, thread => .connection thread

namespace ObserverWorld

def become (world : ObserverWorld) (thread : ObserverThread)
    (sent : List ObserverMessage) : ObserverMove :=
  ⟨world, thread, [], sent⟩

/-- Other observers are stored. -/
def store (world : ObserverWorld) (observers : ObserverExts) : ObserverWorld :=
  { world with observerExtsProvider := observers }

/-- A step of the connection itself. -/
def delegate (world : ObserverWorld) (thread : Thread) (reply : Bool) : ObserverMove :=
  let move := world.base.step thread reply
  ⟨{ world with base := move.shared }, .goOn thread move.thread, move.started.map .of,
    move.sent.map .connection⟩

/-- The next step. `reply` is what the ability manager, the provider or the data observer manager says
to it ; a provider that is gone says no. -/
def next (world : ObserverWorld) : ObserverThread → Bool → ObserverMove
  | .connection thread, reply => world.delegate thread reply
  | .storeRemote n, _ => { world with proxyRemoteRaw := some n }.become (.storeProxy n) []
  | .clearRemote thread, _ => { world with proxyRemoteRaw := none }.become (.connection thread) []
  | .storeProxy n, reply =>
    { world with base := (world.base.step (.storeProxy n) reply).shared }.become .loadInvalid []
  | .loadInvalid, _ =>
    if world.base.connection.isInvalid then world.become (.connection .checkProxy) []
    else world.become .loadReconnect []
  | .loadReconnect, _ =>
    if world.base.connection.isReconnect then world.become .takeObservers []
    else world.become (.connection .finished) []
  | .takeObservers, _ =>
    (world.store .empty).become (.reRegister (entriesOf world.observerExtsProvider)) []
  | .reRegister [], _ => world.become (.connection .clearReconnect) []
  | .reRegister (entry :: entries), reply =>
    world.become (if reply then .storeBack entry entries else .reRegister entries)
      [.reRegistered .dataObsMgr (entry.1, entry.2.uri) entry.2.isDescendants]
  | .storeBack entry entries, _ =>
    (world.store (updateObserverExtsProviderMap world.observerExtsProvider entry.2.uri entry.1
      entry.2.isDescendants)).become (.reRegister entries) []
  | .readRemote use, _ =>
    world.become (world.proxyRemoteRaw.elim (.connection .finished) (.callProvider · use)) []
  | .callProvider n use, reply =>
    world.become (if n ∈ world.base.established ∧ reply = true then .record use
      else .connection .finished) []
  | .record (.registerObserverExtProvider pair isDescendants), _ =>
    (world.store (updateObserverExtsProviderMap world.observerExtsProvider pair.2 pair.1
      isDescendants)).become (.answer (.registerObserverExtProvider pair isDescendants)) []
  | .record (.unregisterObserverExtProvider pair), _ =>
    (world.store (deleteObserverExtsProviderMap world.observerExtsProvider pair.2 pair.1)).become
      (.answer (.unregisterObserverExtProvider pair)) []
  | .answer (.registerObserverExtProvider pair isDescendants), _ =>
    world.become (.connection .finished) [.registered pair isDescendants]
  | .answer (.unregisterObserverExtProvider pair), _ =>
    world.become (.connection .finished) [.unregistered pair]

end ObserverWorld

/-- An event of the connection, or a user's call. -/
inductive ObserverOutside
  | connection (event : Outside)
  | use (use : Use)
  deriving DecidableEq

def ObserverWorld.outside (world : ObserverWorld) : ObserverOutside → ObserverWorld × List ObserverThread
  | .connection event =>
    ({ world with base := (world.base.outside event).1 }, (world.base.outside event).2.map .of)
  | .use use => (world, [.readRemote use])

def observerMachine :
    Machine ObserverWorld ObserverThread ObserverOutside Bool ObserverMessage where
  outside := ObserverWorld.outside
  next := ObserverWorld.next

abbrev ObserverPool := Pool ObserverWorld ObserverThread

abbrev ObserverEvent := MachineEvent ObserverOutside Bool

/-- A new connection. -/
def initial : ObserverPool :=
  ⟨⟨⟨.new, 0, [], []⟩, .empty, none⟩, []⟩

/-- The connection and the messages after `events`. -/
def run (events : List ObserverEvent) : ObserverPool × List ObserverMessage :=
  observerMachine.run initial events

/-! ## What a user may expect -/

section Pair

variable (pair : Pair)

/-- The message answers a user's call about the pair. -/
def ObserverMessage.answers : ObserverMessage → Bool
  | .registered p _ | .unregistered p => p = pair
  | _ => false

/-- The flags of the registrations since the last unregistration, after one message more. -/
def acknowledges (before : List Bool) : ObserverMessage → List Bool
  | .registered p isDescendants => if p = pair then before ++ [isDescendants] else before
  | .unregistered p => if p = pair then [] else before
  | _ => before

/-- The flags of the pair's registrations that returned 0 since its last unregistration that did. -/
def acknowledged (log : List ObserverMessage) : List Bool :=
  log.foldl (acknowledges pair) []

/-- The pair survives reconnections. Whenever a connection is accepted, by when its callback returns
each flag of the pair that was acknowledged has been registered at its provider, once, unless the
connection was made invalid or a call about the pair answered meanwhile ; and the pair is registered
nowhere unless that is acknowledged. -/
structure SurvivesReconnections (events : List ObserverEvent) : Prop where
  again : ∀ before n callback after,
    events = before ++ .outside (.connection (.connectDone n true)) :: (callback ++ after) →
    n ∈ (run before).1.shared.base.connecting →
    let returned := observerMachine.run (run before).1
      (.outside (.connection (.connectDone n true)) :: callback)
    returned.1.threads[(run before).1.threads.length]? = some (.connection .finished) →
    returned.1.shared.base.connection.isInvalid = false →
    (∀ message ∈ returned.2, message.answers pair = false) → ∀ flag,
      returned.2.count (.reRegistered (.provider n) pair flag) =
        (acknowledged pair (run before).2).count flag
  only : ∀ before receiver flag after, (run events).2 =
      before ++ (.reRegistered receiver pair flag : ObserverMessage) :: after →
    flag ∈ acknowledged pair before

/-- A user's call about the pair is under way. -/
def ObserverThread.uses : ObserverThread → Bool
  | .callProvider _ use | .record use | .answer use => use.pair = pair
  | _ => false

/-- No user's call about the pair is under way. -/
def Unused (pool : ObserverPool) : Prop :=
  ∀ thread ∈ pool.threads, thread.uses pair = false

/-- Nothing of the pair is stored, and no user's call about it is under way. -/
def Absent (pool : ObserverPool) : Prop :=
  storedFlags pair pool.shared.observerExtsProvider = [] ∧ Unused pair pool

/-- The pair is absent when a connection is accepted and when a re-registration takes the observers,
and the user's calls about it do not overlap. -/
def Untaken (pool : ObserverPool) : ObserverEvent → Prop
  | .outside (.connection (.connectDone n true)) =>
    n ∈ pool.shared.base.connecting → Absent pair pool
  | .outside _ => True
  | .advance i _ =>
    match pool.threads[i]? with
    | some .takeObservers => Absent pair pool
    | some (.readRemote use) => use.pair = pair → Unused pair pool
    | _ => True

instance : DecidableRel (Untaken pair) := fun pool event => by
  unfold Untaken Absent Unused
  split
  · infer_instance
  · infer_instance
  · split <;> infer_instance

/-- What is stored while a user's call about the pair is under way. -/
def ObserverThread.Stores (stored acknowledged : List Bool) : ObserverThread → Prop
  | .answer (.registerObserverExtProvider _ isDescendants) =>
    stored = acknowledged ++ [isDescendants]
  | .answer (.unregisterObserverExtProvider _) => stored = []
  | _ => stored = acknowledged

/-- A re-registration has the pair. -/
def ObserverThread.reRegisters : ObserverThread → Bool
  | .reRegister entries => entries.any fun entry => (entry.1, entry.2.uri) = pair
  | .storeBack entry entries => (entry :: entries).any fun entry => (entry.1, entry.2.uri) = pair
  | _ => false

/-- What is stored of the pair is what was acknowledged, as far as a user's call about it has got, and
no re-registration has it. -/
structure Stored (pool : ObserverPool) (log : List ObserverMessage) : Prop where
  flags : OneWorker (ObserverThread.uses pair)
    (storedFlags pair pool.shared.observerExtsProvider = acknowledged pair log)
    (ObserverThread.Stores (storedFlags pair pool.shared.observerExtsProvider)
      (acknowledged pair log)) pool.threads
  untaken : ∀ thread ∈ pool.threads, thread.reRegisters pair = false

/-- The message is not about a re-registration of the pair. -/
def ObserverMessage.Bypasses : ObserverMessage → Prop
  | .reRegistered _ p _ => p ≠ pair
  | _ => True

end Pair

/-! ## Steps -/

section Steps

variable {pair : Pair} {pool : ObserverPool} {log : List ObserverMessage} {i : ℕ}
  {old moved : ObserverThread} {world : ObserverWorld} {started : List ObserverThread}
  {sent : List ObserverMessage} {reply : Bool}

theorem acknowledged_append (log sent : List ObserverMessage) :
    acknowledged pair (log ++ sent) = sent.foldl (acknowledges pair) (acknowledged pair log) := by
  unfold acknowledged
  rw [List.foldl_append]

theorem acknowledged_append_of_not_answers (h : ∀ message ∈ sent, message.answers pair = false) :
    acknowledged pair (log ++ sent) = acknowledged pair log := by
  rw [acknowledged_append]
  refine List.foldlRecOn sent (acknowledges pair) (motive := (· = acknowledged pair log)) rfl ?_
  rintro flags rfl message hmessage
  have := h message hmessage
  cases message <;> simp_all [ObserverMessage.answers, acknowledges]

/-- A step that leaves the pair alone. -/
structure LeavesPair (pair : Pair) (shared : ObserverWorld) (old : ObserverThread)
    (move : ObserverMove) : Prop where
  flags : storedFlags pair move.shared.observerExtsProvider =
    storedFlags pair shared.observerExtsProvider
  old : old.uses pair = false
  uses : ∀ thread ∈ move.thread :: move.started, thread.uses pair = false
  reRegisters : ∀ thread ∈ move.thread :: move.started, thread.reRegisters pair = false
  sent : ∀ message ∈ move.sent, message.answers pair = false

/-- No re-registration has the pair after a step that starts none of it. -/
theorem forall_not_reRegisters (h : ∀ thread ∈ pool.threads, thread.reRegisters pair = false)
    (hmoved : ∀ thread ∈ moved :: started, thread.reRegisters pair = false) :
    ∀ thread ∈ pool.threads.set i moved ++ started, thread.reRegisters pair = false :=
  fun thread hthread => (Machine.mem_or_of_mem_set_append hthread).elim (h thread) (hmoved thread)

theorem Stored.of_leaves {move : ObserverMove} (h : Stored pair pool log)
    (hi : pool.threads[i]? = some old) (hleaves : LeavesPair pair pool.shared old move) :
    Stored pair ⟨move.shared, pool.threads.set i move.thread ++ move.started⟩ (log ++ move.sent) where
  flags := by
    rw [hleaves.flags, acknowledged_append_of_not_answers hleaves.sent]
    refine h.flags.advance hi (fun huses => ?_) (fun _ hidle _ => .nobody hleaves.uses hidle)
      fun _ worker _ _ hstores => ⟨hstores, hleaves.uses⟩
    rw [hleaves.old] at huses
    exact Bool.noConfusion huses
  untaken := forall_not_reRegisters h.untaken hleaves.reRegisters

theorem of_thread (thread : Thread) :
    (ObserverThread.of thread).uses pair = false ∧
      (ObserverThread.of thread).reRegisters pair = false := by
  cases thread <;> exact ⟨rfl, rfl⟩

theorem goOn_thread (old thread : Thread) : (ObserverThread.goOn old thread).uses pair = false ∧
    (ObserverThread.goOn old thread).reRegisters pair = false := by
  unfold ObserverThread.goOn
  split <;> exact ⟨rfl, rfl⟩

theorem leavesPair_delegate (world : ObserverWorld) (thread : Thread) (reply : Bool) :
    LeavesPair pair world (.connection thread) (world.delegate thread reply) where
  flags := rfl
  old := rfl
  uses := by
    refine List.forall_mem_cons.mpr ⟨(goOn_thread thread _).1, fun t ht => ?_⟩
    obtain ⟨t, -, rfl⟩ := List.mem_map.mp ht
    exact (of_thread t).1
  reRegisters := by
    refine List.forall_mem_cons.mpr ⟨(goOn_thread thread _).2, fun t ht => ?_⟩
    obtain ⟨t, -, rfl⟩ := List.mem_map.mp ht
    exact (of_thread t).2
  sent := by
    intro message hmessage
    obtain ⟨m, -, rfl⟩ := List.mem_map.mp hmessage
    rfl

/-- A step that moves its thread and leaves the observers. -/
theorem leavesPair_become {shared : ObserverWorld} (hflags : storedFlags pair world.observerExtsProvider =
      storedFlags pair shared.observerExtsProvider)
    (hold : old.uses pair = false) (huses : moved.uses pair = false)
    (hregisters : moved.reRegisters pair = false)
    (hsent : ∀ message ∈ sent, message.answers pair = false) :
    LeavesPair pair shared old (world.become moved sent) :=
  ⟨hflags, hold, List.forall_mem_singleton.mpr huses, List.forall_mem_singleton.mpr hregisters, hsent⟩

/-- A call is begun when there is no other. -/
theorem Stored.of_begin {use : Use} {n : ℕ} (h : Stored pair pool log)
    (hi : pool.threads[i]? = some (.readRemote use)) (huse : use.pair = pair)
    (hunused : Unused pair pool) :
    Stored pair ⟨pool.shared, pool.threads.set i (.callProvider n use) ++ []⟩ (log ++ []) where
  flags := by
    rw [List.append_nil log]
    refine h.flags.advance hi (fun huses => Bool.noConfusion huses) (fun _ hidle _ => ?_)
      fun _ worker hmem huses _ => ?_
    · exact .single (decide_eq_true huse) hidle
    · rw [hunused worker hmem] at huses
      exact Bool.noConfusion huses
  untaken := forall_not_reRegisters h.untaken (List.forall_mem_singleton.mpr rfl)

/-- The call about the pair goes on. -/
theorem Stored.of_uses {move : ObserverMove} (h : Stored pair pool log)
    (hi : pool.threads[i]? = some old) (hold : old.uses pair = true)
    (hmoved : old.Stores (storedFlags pair pool.shared.observerExtsProvider) (acknowledged pair log) →
      OneWorker (ObserverThread.uses pair)
        (storedFlags pair move.shared.observerExtsProvider = acknowledged pair (log ++ move.sent))
        (ObserverThread.Stores (storedFlags pair move.shared.observerExtsProvider)
          (acknowledged pair (log ++ move.sent))) (move.thread :: move.started))
    (hregisters : ∀ thread ∈ move.thread :: move.started, thread.reRegisters pair = false) :
    Stored pair ⟨move.shared, pool.threads.set i move.thread ++ move.started⟩ (log ++ move.sent) where
  flags := by
    refine h.flags.advance hi (fun _ hstores => hmoved hstores) (fun huses => ?_) fun huses => ?_
    · rw [hold] at huses
      exact Bool.noConfusion huses
    · rw [hold] at huses
      exact Bool.noConfusion huses
  untaken := forall_not_reRegisters h.untaken hregisters

theorem stored_record {use : Use} (h : Stored pair pool log)
    (hi : pool.threads[i]? = some (.record use)) :
    Stored pair ⟨(pool.shared.next (.record use) reply).shared,
        pool.threads.set i (pool.shared.next (.record use) reply).thread ++
          (pool.shared.next (.record use) reply).started⟩
      (log ++ (pool.shared.next (.record use) reply).sent) := by
  by_cases huse : use.pair = pair
  · refine h.of_uses hi (decide_eq_true huse) (fun hstores => ?_) ?_
    · cases use with
      | registerObserverExtProvider p isDescendants =>
        refine .single (decide_eq_true huse) ?_
        have hlog : log ++ (pool.shared.next (.record (.registerObserverExtProvider p isDescendants))
            reply).sent = log := List.append_nil log
        rw [hlog]
        obtain rfl : p = pair := huse
        refine (storedFlags_update p _ p.2 p.1 isDescendants).trans ?_
        rw [if_pos rfl]
        exact congrArg (· ++ [isDescendants]) hstores
      | unregisterObserverExtProvider p =>
        refine .single (decide_eq_true huse) ?_
        obtain rfl : p = pair := huse
        exact (storedFlags_delete p _ p.2 p.1).trans (if_pos rfl)
    · cases use <;> exact List.forall_mem_singleton.mpr rfl
  · refine h.of_leaves hi ?_
    cases use with
    | registerObserverExtProvider p isDescendants =>
      refine leavesPair_become ?_ (decide_eq_false huse) (decide_eq_false huse) rfl (by simp)
      have hne : ¬ (p.1, p.2) = pair := huse
      exact (storedFlags_update pair _ p.2 p.1 isDescendants).trans
        (by rw [if_neg hne, List.append_nil])
    | unregisterObserverExtProvider p =>
      refine leavesPair_become ?_ (decide_eq_false huse) (decide_eq_false huse) rfl (by simp)
      exact (storedFlags_delete pair _ p.2 p.1).trans (if_neg huse)

theorem stored_answer {use : Use} (h : Stored pair pool log)
    (hi : pool.threads[i]? = some (.answer use)) :
    Stored pair ⟨(pool.shared.next (.answer use) reply).shared,
        pool.threads.set i (pool.shared.next (.answer use) reply).thread ++
          (pool.shared.next (.answer use) reply).started⟩
      (log ++ (pool.shared.next (.answer use) reply).sent) := by
  by_cases huse : use.pair = pair
  · refine h.of_uses hi (decide_eq_true huse) (fun hstores => ?_) ?_
    · cases use with
      | registerObserverExtProvider p isDescendants =>
        refine .nobody (List.forall_mem_singleton.mpr rfl) ?_
        rw [acknowledged_append]
        exact hstores.trans (if_pos huse).symm
      | unregisterObserverExtProvider p =>
        refine .nobody (List.forall_mem_singleton.mpr rfl) ?_
        rw [acknowledged_append]
        exact hstores.trans (if_pos huse).symm
    · cases use <;> exact List.forall_mem_singleton.mpr rfl
  · refine h.of_leaves hi ?_
    cases use with
    | registerObserverExtProvider p isDescendants =>
      exact leavesPair_become rfl (decide_eq_false huse) rfl rfl
        (List.forall_mem_singleton.mpr (decide_eq_false huse))
    | unregisterObserverExtProvider p =>
      exact leavesPair_become rfl (decide_eq_false huse) rfl rfl
        (List.forall_mem_singleton.mpr (decide_eq_false huse))

/-- Every step keeps what is stored of the pair. -/
theorem stored_next (h : Stored pair pool log) (hi : pool.threads[i]? = some old)
    (huntaken : Untaken pair pool (.advance i reply)) :
    Stored pair ⟨(pool.shared.next old reply).shared,
        pool.threads.set i (pool.shared.next old reply).thread ++ (pool.shared.next old reply).started⟩
      (log ++ (pool.shared.next old reply).sent) := by
  cases old with
  | connection thread => exact h.of_leaves hi (leavesPair_delegate _ thread reply)
  | storeRemote | clearRemote | storeProxy =>
    exact h.of_leaves hi (leavesPair_become rfl rfl rfl rfl (by simp))
  | loadInvalid | loadReconnect =>
    refine h.of_leaves hi ?_
    simp only [ObserverWorld.next]
    split <;> exact leavesPair_become rfl rfl rfl rfl (by simp)
  | takeObservers =>
    simp only [Untaken, hi] at huntaken
    refine h.of_leaves hi (leavesPair_become huntaken.1.symm rfl rfl ?_ (by simp))
    refine List.any_eq_false.mpr fun entry hentry => ?_
    simpa using not_mem_entriesOf huntaken.1 entry hentry
  | reRegister entries =>
    have huntaken := h.untaken _ (List.mem_of_getElem? hi)
    cases entries with
    | nil => exact h.of_leaves hi (leavesPair_become rfl rfl rfl rfl (by simp))
    | cons entry entries =>
      refine h.of_leaves hi (leavesPair_become rfl rfl ?_ ?_ (List.forall_mem_singleton.mpr rfl))
      · split <;> rfl
      · split
        · exact huntaken
        · exact (Bool.or_eq_false_iff.mp huntaken).2
  | storeBack entry entries =>
    have huntaken := Bool.or_eq_false_iff.mp (h.untaken _ (List.mem_of_getElem? hi))
    refine h.of_leaves hi (leavesPair_become ?_ rfl rfl huntaken.2 (by simp))
    refine (storedFlags_update pair _ entry.2.uri entry.1 entry.2.isDescendants).trans ?_
    rw [if_neg (of_decide_eq_false huntaken.1), List.append_nil]
  | readRemote use =>
    simp only [Untaken, hi] at huntaken
    simp only [ObserverWorld.next]
    cases hremote : pool.shared.proxyRemoteRaw with
    | none => exact h.of_leaves hi (leavesPair_become rfl rfl rfl rfl (by simp))
    | some n =>
      by_cases huse : use.pair = pair
      · exact h.of_begin hi huse (huntaken huse)
      · exact h.of_leaves hi (leavesPair_become rfl rfl (decide_eq_false huse) rfl (by simp))
  | callProvider n use =>
    by_cases huse : use.pair = pair
    · refine h.of_uses hi (decide_eq_true huse) (fun hstores => ?_) ?_
      · have hlog : log ++ (pool.shared.next (.callProvider n use) reply).sent = log :=
          List.append_nil log
        rw [hlog]
        simp only [ObserverWorld.next, ObserverWorld.become]
        split
        · exact .single (decide_eq_true huse) hstores
        · exact .nobody (List.forall_mem_singleton.mpr rfl) hstores
      · simp only [ObserverWorld.next, ObserverWorld.become]
        split <;> exact List.forall_mem_singleton.mpr rfl
    · refine h.of_leaves hi (leavesPair_become rfl (decide_eq_false huse) ?_ ?_ (by simp))
      · split
        · exact decide_eq_false huse
        · rfl
      · split <;> rfl
  | record use => exact stored_record h hi
  | answer use => exact stored_answer h hi

theorem stored_outside (h : Stored pair pool log) (event : ObserverOutside) :
    Stored pair ⟨(pool.shared.outside event).1, pool.threads ++ (pool.shared.outside event).2⟩ log := by
  have hstarted : ∀ thread ∈ (pool.shared.outside event).2,
      thread.uses pair = false ∧ thread.reRegisters pair = false := by
    cases event with
    | connection event =>
      intro thread hthread
      obtain ⟨t, -, rfl⟩ := List.mem_map.mp hthread
      exact of_thread t
    | use use => exact List.forall_mem_singleton.mpr ⟨rfl, rfl⟩
  have hobservers : (pool.shared.outside event).1.observerExtsProvider =
      pool.shared.observerExtsProvider := by
    cases event <;> rfl
  constructor
  · rw [hobservers]
    exact h.flags.append fun thread hthread => (hstarted thread hthread).1
  · intro thread hthread
    exact (List.mem_append.mp hthread).elim (h.untaken thread) fun hmem => (hstarted thread hmem).2

/-- What a step says bypasses the pair. -/
theorem bypasses_next (h : Stored pair pool log) (hi : pool.threads[i]? = some old) :
    ∀ message ∈ (pool.shared.next old reply).sent, message.Bypasses pair := by
  cases old with
  | connection thread =>
    intro message hmessage
    obtain ⟨m, -, rfl⟩ := List.mem_map.mp hmessage
    trivial
  | reRegister entries =>
    have huntaken := h.untaken _ (List.mem_of_getElem? hi)
    cases entries with
    | nil => simp [ObserverWorld.next, ObserverWorld.become]
    | cons entry entries =>
      exact List.forall_mem_singleton.mpr (of_decide_eq_false (Bool.or_eq_false_iff.mp huntaken).1)
  | answer use => cases use <;> exact List.forall_mem_singleton.mpr trivial
  | record use => cases use <;> simp [ObserverWorld.next, ObserverWorld.become]
  | loadInvalid | loadReconnect =>
    simp only [ObserverWorld.next]
    split <;> simp [ObserverWorld.become]
  | _ => simp [ObserverWorld.next, ObserverWorld.become]

end Steps

/-! ## Runs -/

section Runs

variable {pair : Pair} {events : List ObserverEvent}

theorem stored_run (h : AllowedRun observerMachine.step (Untaken pair) initial events) :
    Stored pair (run events).1 (run events).2 ∧
      ∀ message ∈ (run events).2, message.Bypasses pair := by
  refine h.invariant
    (P := fun pool log => Stored pair pool log ∧ ∀ message ∈ log, message.Bypasses pair)
    ⟨⟨.nobody (by simp [initial]) rfl, by simp [initial]⟩, by simp⟩ ?_
  intro pool log event huntaken hstored
  refine Machine.step_invariant
    (P := fun pool log => Stored pair pool log ∧ ∀ message ∈ log, message.Bypasses pair)
    hstored ?_ ?_
  · exact fun e _ => ⟨stored_outside hstored.1 e, hstored.2⟩
  · rintro i reply thread rfl hi
    refine ⟨stored_next hstored.1 hi huntaken, fun message hmessage => ?_⟩
    rcases List.mem_append.mp hmessage with hbefore | hsent
    · exact hstored.2 message hbefore
    · exact bypasses_next hstored.1 hi message hsent

/-- The pair is not registered again. -/
theorem not_reRegistered (h : AllowedRun observerMachine.step (Untaken pair) initial events)
    (receiver : Receiver) (flag : Bool) : .reRegistered receiver pair flag ∉ (run events).2 :=
  fun hmem => (stored_run h).2 _ hmem rfl

/-- Nothing of the pair is acknowledged when a connection is accepted. -/
theorem acknowledged_eq_nil_of_accepted {n : ℕ}
    (h : AllowedRun observerMachine.step (Untaken pair) initial events)
    (hn : n ∈ (run events).1.shared.base.connecting)
    (huntaken : Untaken pair (run events).1 (.outside (.connection (.connectDone n true)))) :
    acknowledged pair (run events).2 = [] := by
  obtain ⟨hnone, hunused⟩ := huntaken hn
  exact ((stored_run h).1.flags.idle_of_none hunused).symm.trans hnone

end Runs

/-- A pair that is absent at every reconnection survives reconnections. -/
theorem observers_survive_reconnections {pair : Pair} {events : List ObserverEvent}
    (h : AllowedRun observerMachine.step (Untaken pair) initial events) :
    SurvivesReconnections pair events := by
  refine ⟨?_, fun before receiver flag after heq => ?_⟩
  · rintro before n callback after rfl hn returned - - - flag
    have hnil : acknowledged pair (run before).2 = [] :=
      acknowledged_eq_nil_of_accepted h.of_append.1 hn (h before _ _ rfl)
    rw [hnil, List.count_nil, List.count_eq_zero]
    intro hmem
    rw [← List.cons_append, ← List.append_assoc] at h
    refine not_reRegistered h.of_append.1 (.provider n) flag ?_
    unfold run Machine.run
    rw [runCalls_append]
    exact List.mem_append_right _ hmem
  · refine absurd ?_ (not_reRegistered h receiver flag)
    rw [heq]
    exact List.mem_append_right _ List.mem_cons_self

/-- `n` steps of the `i`-th thread, each with a good reply. -/
def steps (i n : ℕ) : List ObserverEvent :=
  List.replicate n (.advance i true)

/-- The first connection, by two threads. -/
def connected : List ObserverEvent :=
  .outside (.connection (.user .getDataShareProxy)) :: steps 0 3 ++
    .outside (.connection (.connectDone 0 true)) :: steps 1 4

/-- The connection is lost and a reconnect is made, in the `i`-th thread. -/
def lost (i : ℕ) : List ObserverEvent :=
  .outside (.connection (.lost 0)) :: steps i 5

/-- The reconnect succeeds, and its callback is the `i`-th thread. -/
def reconnected (i n : ℕ) : List ObserverEvent :=
  .outside (.connection (.connectDone 1 true)) :: steps i n

/-- An observer is registered and unregistered before the connection is lost, and registered once more
afterwards. -/
theorem unregistered_observer_survives_reconnection :
    SurvivesReconnections (1, "uri") (connected ++
      .outside (.use (.registerObserverExtProvider (1, "uri") true)) :: steps 2 4 ++
      .outside (.use (.unregisterObserverExtProvider (1, "uri"))) :: steps 3 4 ++
      lost 4 ++ reconnected 5 8 ++
      .outside (.use (.registerObserverExtProvider (1, "uri") false)) :: steps 6 4) :=
  observers_survive_reconnections (throughout_iff_getElem.mpr (by decide +kernel))

/-- A registered observer is registered again at the data observer manager, and not at the provider
that was reconnected. -/
theorem observer_not_registered_again :
    ¬ SurvivesReconnections (1, "uri") (connected ++
      .outside (.use (.registerObserverExtProvider (1, "uri") true)) :: steps 2 4 ++
      lost 3 ++ reconnected 4 10) := by
  intro h
  have hagain := h.again (connected ++
      .outside (.use (.registerObserverExtProvider (1, "uri") true)) :: steps 2 4 ++ lost 3) 1
    (steps 4 10) [] (by simp [reconnected]) (by decide +kernel) (by decide +kernel)
    (by decide +kernel) (by decide +kernel) true
  exact absurd hagain (by decide +kernel)

end ReRegistration

end Rust

end DataShare
