import DataShare.CppBuffer
import DataShare.ThreadMachine

/-!
# The C++ connection to a system ability

`DataShareSAConnection` keeps the proxy of a provider that a system ability hosts. `GetDataShareProxy`
holds the mutex while it connects : a task of the pool asks the service for the interface of the
ability, loads the ability and asks it for the proxy, and the caller waits for the task's result for a
limited time. The proxy is stored after a death recipient has been added to it, and its notice clears
the proxy and connects again.

Assumptions on the IPC library :

* recipients : `AddDeathRecipient` of a proxy whose process is gone fails ;
* notices : a recipient that has been added is told once of the exit of its process, and never before ;
* requests : a request to a process that is gone fails ;
* numbers : the proxy of a later process is another one.

`Guarded` is the invariant of all interleavings : each proxy that is stored, or is about to be, has
exactly one recipient or notice. So a proxy that is handed out belongs to a provider that runs or
whose notice is still to be handled, and a notice never clears the proxy of a provider that
runs (`proxies_attended`). A proxy whose notice has been handled is never handed out again
(`gone_for_good`).
-/

namespace DataShare

namespace Cpp

structure ConnectionInterfaceInfo where
  code : UInt32
  descriptor : List UInt16
  deriving DecidableEq

/-- A proxy is known by the process of the provider it calls. -/
structure DataShareSAConnection where
  uri : StdString
  saId : Int32
  waitTime : UInt32
  interfaceInfo : ConnectionInterfaceInfo
  dataShareProxy : Option ℕ
  deriving DecidableEq

structure ConnectResult where
  isFinish : Bool
  errorCode : Int32
  interfaceInfo : ConnectionInterfaceInfo
  proxy : Option ℕ
  deriving DecidableEq

namespace DataShareSAConnection

def invalidSaId : Int32 := 0

def invalidInterfaceCode : UInt32 := 0xFFFFFFFF

def eProviderNotConnected : Int32 := 1066

def eTimeoutError : Int32 := 1072

/-- `ConnectionInterfaceInfo()`. -/
def noInterfaceInfo : ConnectionInterfaceInfo :=
  ⟨invalidInterfaceCode, []⟩

def new (uri : StdString) (saId waitTime : Int32) : DataShareSAConnection where
  uri := uri
  saId := saId
  waitTime := if waitTime < 0 then 0 else waitTime.toUInt32
  interfaceInfo := noInterfaceInfo
  dataShareProxy := none

/-! ## Threads -/

/-- What the threads share, and the provider : its process, and the death recipients that have been
added to proxies of that process. A task leaves its result in the `BlockData` of its number. -/
structure World where
  connection : DataShareSAConnection
  locked : Bool
  tasks : ℕ
  results : List (ℕ × ConnectResult)
  process : ℕ
  recipients : List ℕ
  deriving DecidableEq

/-- The next step of a thread. -/
inductive Thread where
  /-- `OnRemoteDied`, for the proxy of a process. -/
  | clear (process : ℕ)
  /-- `GetDataShareProxy`. The mutex is held from the second of them on. -/
  | lock
  | getValue (task : ℕ)
  | linkToDeath (proxy : Option ℕ) (interfaceInfo : ConnectionInterfaceInfo)
  | store (proxy : ℕ) (interfaceInfo : ConnectionInterfaceInfo)
  /-- `GetConnectResult`, in a task of the pool. -/
  | getInterfaceInfo (task : ℕ) (interfaceInfo : ConnectionInterfaceInfo)
  | checkAndLoad (task : ℕ) (interfaceInfo : ConnectionInterfaceInfo)
  | sendRequest (task : ℕ) (interfaceInfo : ConnectionInterfaceInfo) (remoteObject : ℕ)
  | setValue (task : ℕ) (result : ConnectResult)
  | finished
  deriving DecidableEq

/-- What the service, the ability, the clock or the IPC answers. -/
inductive Reply where
  | refuse
  | accept
  | interfaceInfo (errorCode : Int32) (info : ConnectionInterfaceInfo)
  deriving DecidableEq

/-- `GetDataShareProxy` has returned. -/
structure Message where
  proxy : Option ℕ
  deriving DecidableEq

abbrev SAMove := MachineMove World Thread Message

namespace World

/-- A step that changes nothing. -/
def pass (world : World) (thread : Thread) : SAMove :=
  ⟨world, thread, [], []⟩

/-- `GetDataShareProxy` gives up the mutex and returns. -/
def unlocked (world : World) (proxy : Option ℕ) : SAMove :=
  ⟨{ world with locked := false }, .finished, [], [⟨proxy⟩]⟩

/-- What the caller finds in the `BlockData` when the task has set it, or the time is over. -/
def getValue (world : World) (task : ℕ) (reply : Reply) : Option ConnectResult :=
  match world.results.lookup task with
  | some result => some result
  | none => if reply = .refuse then some ⟨false, eTimeoutError, noInterfaceInfo, none⟩ else none

/-- The next step of a thread. `LinkToDeath` fails if the IPC refuses the recipient, as it does for a
process that is gone. -/
def next (world : World) (thread : Thread) (reply : Reply) : SAMove :=
  let c := world.connection
  match thread with
  | .clear p =>
    if world.locked then world.pass (.clear p)
    else ⟨{ world with connection := { c with dataShareProxy := none } }, .lock, [], []⟩
  | .lock =>
    if world.locked then world.pass .lock
    else if c.dataShareProxy.isSome then world.unlocked c.dataShareProxy
    else if c.saId = invalidSaId then world.unlocked none
    else
      ⟨{ world with locked := true, tasks := world.tasks + 1 }, .getValue world.tasks,
        [.getInterfaceInfo world.tasks c.interfaceInfo], []⟩
  | .getValue task =>
    match world.getValue task reply with
    | none => world.pass (.getValue task)
    | some res =>
      if res.isFinish = false then world.unlocked none
      else if res.errorCode ≠ 0 then world.unlocked none
      else world.pass (.linkToDeath res.proxy res.interfaceInfo)
  | .linkToDeath none _ => world.unlocked none
  | .linkToDeath (some p) info =>
    if p = world.process ∧ reply ≠ .refuse then
      ⟨{ world with recipients := p :: world.recipients }, .store p info, [], []⟩
    else world.unlocked none
  | .store p info =>
    ({ world with connection := { c with dataShareProxy := some p, interfaceInfo := info } } :
      World).unlocked (some p)
  | .getInterfaceInfo task info =>
    if info.code ≠ invalidInterfaceCode then world.pass (.checkAndLoad task info)
    else
      match reply with
      | .interfaceInfo errorCode res =>
        if errorCode ≠ 0 then world.pass (.setValue task ⟨true, errorCode, info, none⟩)
        else world.pass (.checkAndLoad task res)
      | _ => world.pass (.setValue task ⟨true, -1, info, none⟩)
  | .checkAndLoad task info =>
    if reply = .refuse then
      world.pass (.setValue task ⟨true, eProviderNotConnected, info, none⟩)
    else world.pass (.sendRequest task info world.process)
  | .sendRequest task info remoteObject =>
    if remoteObject = world.process ∧ reply ≠ .refuse then
      world.pass (.setValue task ⟨true, 0, info, some remoteObject⟩)
    else world.pass (.setValue task ⟨true, eProviderNotConnected, info, none⟩)
  | .setValue task result =>
    ⟨{ world with results := (task, result) :: world.results }, .finished, [], []⟩
  | .finished => world.pass .finished

end World

/-- What happens outside : somebody asks for the proxy, or the provider's process exits, and its
recipients are told. The next process has the next number. -/
inductive Outside where
  | getDataShareProxy
  | exited
  deriving DecidableEq

def World.outside (world : World) : Outside → World × List Thread
  | .getDataShareProxy => (world, [.lock])
  | .exited =>
    ({ world with process := world.process + 1, recipients := [] }, world.recipients.map .clear)

def saMachine : Machine World Thread Outside Reply Message :=
  ⟨World.outside, World.next⟩

abbrev SAEvent := MachineEvent Outside Reply

abbrev SAPool := Pool World Thread

/-- A connection nobody has used. -/
def World.initial (uri : StdString) (saId waitTime : Int32) : World where
  connection := .new uri saId waitTime
  locked := false
  tasks := 0
  results := []
  process := 0
  recipients := []

/-- The connection and the messages after `events`. -/
def runSA (uri : StdString) (saId waitTime : Int32) (events : List SAEvent) :
    SAPool × List Message :=
  saMachine.run ⟨World.initial uri saId waitTime, []⟩ events

/-! ## Recipients and notices -/

/-- The thread holds the mutex. -/
def Thread.holds : Thread → Bool
  | .getValue _ | .linkToDeath _ _ | .store _ _ => true
  | _ => false

/-- The process whose notice the thread handles. -/
def Thread.clears : Thread → Option ℕ
  | .clear p => some p
  | _ => none

/-- The proxy that the thread stores next. -/
def Thread.stores : Thread → Option ℕ
  | .store p _ => some p
  | _ => none

/-- The proxies that are stored, or are next. -/
def kept (world : World) (threads : List Thread) : List ℕ :=
  world.connection.dataShareProxy.toList ++ threads.filterMap Thread.stores

/-- The proxies that a recipient watches over, or whose notice is to be handled. -/
def watched (world : World) (threads : List Thread) : List ℕ :=
  world.recipients ++ threads.filterMap Thread.clears

/-- The mutex has one holder, which finds no proxy stored. Each proxy that is kept is watched once, by
a recipient while its process runs and by the notice after that. -/
structure Guarded (world : World) (threads : List Thread) : Prop where
  alone : OneWorker Thread.holds (world.locked = false)
    (fun _ => world.locked = true ∧ world.connection.dataShareProxy = none) threads
  paired : (watched world threads).Perm (kept world threads)
  present : ∀ p ∈ world.recipients, p = world.process
  past : ∀ p ∈ threads.filterMap Thread.clears, p < world.process

variable {world : World} {threads rest started : List Thread} {thread moved : Thread} {i : ℕ}
  {reply : Reply}

theorem guarded_perm {threads' : List Thread} (hperm : threads'.Perm threads)
    (h : Guarded world threads) : Guarded world threads' where
  alone := h.alone.of_perm hperm
  paired := ((hperm.filterMap _).append_left _).trans
    (h.paired.trans ((hperm.filterMap _).append_left _).symm)
  present := h.present
  past p hp := h.past p ((hperm.filterMap _).mem_iff.mp hp)

theorem filterMap_cons_toList (f : Thread → Option ℕ) (thread : Thread) (rest : List Thread) :
    (thread :: rest).filterMap f = (f thread).toList ++ rest.filterMap f := by
  rw [List.filterMap_cons]
  cases f thread <;> rfl

theorem filterMap_stores_eq_nil (h : ∀ t ∈ rest, t.holds = false) :
    rest.filterMap Thread.stores = [] := by
  refine List.filterMap_eq_nil_iff.mpr fun t ht => ?_
  have := h t ht
  cases t <;> simp_all [Thread.holds, Thread.stores]

/-- Without a holder, what is kept is what is stored. -/
theorem kept_of_not_locked (h : Guarded world threads) (hlocked : world.locked = false) :
    kept world threads = world.connection.dataShareProxy.toList := by
  rcases h.alone with ⟨hnone, -⟩ | ⟨_, _, _, _, _, hbusy⟩
  · rw [kept, filterMap_stores_eq_nil hnone, List.append_nil]
  · simp [hlocked] at hbusy

/-- Beside a holder nothing else is kept. -/
theorem kept_of_holds (h : Guarded world (thread :: rest)) (hholds : thread.holds = true) :
    kept world (thread :: rest) = thread.stores.toList ∧ kept world rest = [] := by
  have hrest := filterMap_stores_eq_nil (h.alone.others (.refl _) hholds)
  have hstored := (h.alone.busy_of_mem List.mem_cons_self hholds).2
  constructor
  · rw [kept, hstored, filterMap_cons_toList, hrest, List.append_nil]
    rfl
  · rw [kept, hstored, hrest]
    rfl

/-- A step that leaves the proxies and their watchers alone. -/
theorem paired_of_plain {world' : World} (h : Guarded world (thread :: rest))
    (hproxy : world'.connection.dataShareProxy = world.connection.dataShareProxy)
    (hrecipients : world'.recipients = world.recipients) (hprocess : world'.process = world.process)
    (hclears : moved.clears = thread.clears) (hstores : moved.stores = thread.stores)
    (hstarted : ∀ t ∈ started, t.clears = none ∧ t.stores = none) :
    (watched world' (moved :: rest ++ started)).Perm (kept world' (moved :: rest ++ started)) ∧
      (∀ p ∈ world'.recipients, p = world'.process) ∧
      ∀ p ∈ (moved :: rest ++ started).filterMap Thread.clears, p < world'.process := by
  have hnone : started.filterMap Thread.clears = [] ∧ started.filterMap Thread.stores = [] :=
    ⟨List.filterMap_eq_nil_iff.mpr fun t ht => (hstarted t ht).1,
      List.filterMap_eq_nil_iff.mpr fun t ht => (hstarted t ht).2⟩
  have hpaired := h.paired
  have hpast := h.past
  unfold watched kept at hpaired ⊢
  rw [filterMap_cons_toList] at hpaired hpast
  rw [filterMap_cons_toList] at hpaired
  rw [List.filterMap_append, List.filterMap_append, hnone.1, hnone.2, List.append_nil,
    List.append_nil, filterMap_cons_toList, filterMap_cons_toList, hproxy, hrecipients, hprocess,
    hclears, hstores]
  exact ⟨hpaired, h.present, hpast⟩

/-! ## Steps -/

/-- What a step of a thread does to the mutex, the proxies and their watchers. -/
inductive Moves (world : World) : Thread → SAMove → Prop where
  | plain {thread : Thread} {move : SAMove}
      (hproxy : move.shared.connection.dataShareProxy = world.connection.dataShareProxy)
      (hlocked : move.shared.locked = world.locked)
      (hrecipients : move.shared.recipients = world.recipients)
      (hprocess : move.shared.process = world.process)
      (hholds : move.thread.holds = thread.holds) (hclears : move.thread.clears = thread.clears)
      (hstores : move.thread.stores = thread.stores)
      (hstarted : move.started = [])
      (hsent : ∀ p, ⟨some p⟩ ∈ move.sent → world.connection.dataShareProxy = some p ∧
        world.locked = false) : Moves world thread move
  | clear {p : ℕ} (hlocked : world.locked = false) : Moves world (.clear p)
      ⟨{ world with connection := { world.connection with dataShareProxy := none } }, .lock, [], []⟩
  | acquire (hlocked : world.locked = false) (hproxy : world.connection.dataShareProxy = none)
      {task : ℕ} {info : ConnectionInterfaceInfo} : Moves world .lock
      ⟨{ world with locked := true, tasks := world.tasks + 1 }, .getValue task,
        [.getInterfaceInfo task info], []⟩
  | giveUp {thread : Thread} (hholds : thread.holds = true) (hstores : thread.stores = none) :
      Moves world thread (world.unlocked none)
  | link {info : ConnectionInterfaceInfo} : Moves world (.linkToDeath (some world.process) info)
      ⟨{ world with recipients := world.process :: world.recipients }, .store world.process info,
        [], []⟩
  | store {p : ℕ} {info : ConnectionInterfaceInfo} {connection : DataShareSAConnection}
      (hproxy : connection.dataShareProxy = some p) : Moves world (.store p info)
      (({ world with connection := connection } : World).unlocked (some p))

theorem moves_pass {thread moved : Thread} (hholds : moved.holds = thread.holds)
    (hclears : moved.clears = thread.clears) (hstores : moved.stores = thread.stores) :
    Moves world thread (world.pass moved) :=
  .plain rfl rfl rfl rfl hholds hclears hstores rfl (by simp [World.pass])

theorem moves_next (world : World) (thread : Thread) (reply : Reply) :
    Moves world thread (world.next thread reply) := by
  cases thread with
  | clear p =>
    rw [World.next]
    split
    · exact moves_pass rfl rfl rfl
    · exact .clear (by simpa using ‹¬world.locked = true›)
  | lock =>
    rw [World.next]
    split
    · exact moves_pass rfl rfl rfl
    · have hlocked : world.locked = false := by simpa using ‹¬world.locked = true›
      split
      · refine .plain rfl hlocked.symm rfl rfl rfl rfl rfl rfl fun p hp => ⟨?_, hlocked⟩
        simpa [World.unlocked, eq_comm] using hp
      · split
        · exact .plain rfl hlocked.symm rfl rfl rfl rfl rfl rfl (by simp [World.unlocked])
        · exact .acquire hlocked (by simpa using ‹¬world.connection.dataShareProxy.isSome = true›)
  | getValue task =>
    rw [World.next]
    split
    · exact moves_pass rfl rfl rfl
    · split
      · exact .giveUp rfl rfl
      · split
        · exact .giveUp rfl rfl
        · exact moves_pass rfl rfl rfl
  | linkToDeath proxy info =>
    rcases proxy with _ | p
    · exact .giveUp rfl rfl
    · rw [World.next]
      split
      case isTrue h =>
        obtain ⟨rfl, -⟩ := h
        exact .link
      case isFalse => exact .giveUp rfl rfl
  | store p info => exact .store rfl
  | getInterfaceInfo task info =>
    cases reply with
    | interfaceInfo errorCode res =>
      simp only [World.next]
      split
      · exact moves_pass rfl rfl rfl
      · split <;> exact moves_pass rfl rfl rfl
    | _ =>
      simp only [World.next]
      split <;> exact moves_pass rfl rfl rfl
  | checkAndLoad task info =>
    rw [World.next]
    split <;> exact moves_pass rfl rfl rfl
  | sendRequest task info remoteObject =>
    rw [World.next]
    split <;> exact moves_pass rfl rfl rfl
  | setValue task result => exact .plain rfl rfl rfl rfl rfl rfl rfl rfl (by simp [World.next])
  | finished => exact moves_pass rfl rfl rfl

/-- The mutex has one holder at most after the step. -/
theorem Moves.alone {move : SAMove} (hmove : Moves world thread move) (h : Guarded world threads)
    (hi : threads[i]? = some thread) :
    OneWorker Thread.holds (move.shared.locked = false)
      (fun _ => move.shared.locked = true ∧ move.shared.connection.dataShareProxy = none)
      (threads.set i move.thread ++ move.started) := by
  refine OneWorker.advance h.alone hi ?_ ?_ ?_
  · intro hholds hbusy
    cases hmove with
    | plain hproxy hlocked _ _ hholds' _ _ hstarted =>
      rw [hstarted, hproxy, hlocked]
      exact .single (hholds'.trans hholds) hbusy
    | giveUp => exact .nobody (by simp [World.unlocked, Thread.holds]) rfl
    | link => exact .single rfl hbusy
    | store => exact .nobody (by simp [World.unlocked, Thread.holds]) rfl
    | _ => simp [Thread.holds] at hholds
  · intro hholds hidle _
    cases hmove with
    | plain hproxy hlocked _ _ hholds' _ _ hstarted =>
      rw [hstarted, hlocked]
      exact .nobody (by simp [hholds', hholds]) hidle
    | clear => exact .nobody (by simp [Thread.holds]) hidle
    | @acquire _ hproxy task =>
      have hworker : OneWorker Thread.holds (true = false)
          (fun _ => true = true ∧ world.connection.dataShareProxy = none)
          [Thread.getValue task] := .single rfl ⟨rfl, hproxy⟩
      exact hworker.append (by simp [Thread.holds])
    | giveUp hholds' => simp [hholds] at hholds'
    | _ => simp [Thread.holds] at hholds
  · intro hholds worker _ _ hbusy
    cases hmove with
    | plain hproxy hlocked _ _ hholds' _ _ hstarted =>
      rw [hstarted, hproxy, hlocked]
      exact ⟨hbusy, by simp [hholds', hholds]⟩
    | clear hlocked => simp [hlocked] at hbusy
    | acquire hlocked => simp [hlocked] at hbusy
    | giveUp hholds' => simp [hholds] at hholds'
    | _ => simp [Thread.holds] at hholds

/-- What is kept and what is watched after the step. -/
theorem Moves.paired {move : SAMove} (hmove : Moves world thread move)
    (h : Guarded world (thread :: rest)) :
    (watched move.shared (move.thread :: rest ++ move.started)).Perm
        (kept move.shared (move.thread :: rest ++ move.started)) ∧
      (∀ p ∈ move.shared.recipients, p = move.shared.process) ∧
      ∀ p ∈ (move.thread :: rest ++ move.started).filterMap Thread.clears,
        p < move.shared.process := by
  cases hmove with
  | plain hproxy hlocked hrecipients hprocess hholds hclears hstores hstarted =>
    exact paired_of_plain h hproxy hrecipients hprocess hclears hstores (by simp [hstarted])
  | @clear p hlocked =>
    -- nobody holds the mutex, so the proxy that is stored is the one of the notice
    have hkept := kept_of_not_locked h hlocked
    have hpaired := h.paired
    rw [hkept, watched, filterMap_cons_toList] at hpaired
    have hlength := hpaired.length_eq
    have hone : world.connection.dataShareProxy.toList.length ≤ 1 := by
      cases world.connection.dataShareProxy <;> simp
    simp only [Thread.clears, Option.toList_some, List.length_append, List.length_singleton]
      at hlength
    have hrecipients : world.recipients = [] := List.eq_nil_of_length_eq_zero (by omega)
    have hclears : rest.filterMap Thread.clears = [] := List.eq_nil_of_length_eq_zero (by omega)
    have hstores : rest.filterMap Thread.stores = [] := by
      have := hkept
      rw [kept, filterMap_cons_toList] at this
      simpa [Thread.stores] using this
    simp [watched, kept, filterMap_cons_toList, Thread.clears, Thread.stores, hrecipients, hclears,
      hstores]
  | acquire hlocked hproxy =>
    exact paired_of_plain h rfl rfl rfl rfl rfl (by simp [Thread.clears, Thread.stores])
  | giveUp hholds hstores =>
    refine paired_of_plain h rfl rfl rfl ?_ hstores.symm (by simp [World.unlocked])
    cases thread <;> simp_all [Thread.holds, World.unlocked, Thread.clears]
  | link =>
    obtain ⟨hkept, hrest⟩ := kept_of_holds h rfl
    have hpaired := h.paired
    rw [hkept, watched, filterMap_cons_toList] at hpaired
    obtain ⟨hrecipients, hclears⟩ := List.append_eq_nil_iff.mp (List.perm_nil.mp hpaired)
    have hclears' : rest.filterMap Thread.clears = [] := (List.append_eq_nil_iff.mp hclears).2
    have hstored := (h.alone.busy_of_mem List.mem_cons_self rfl).2
    have hstores : rest.filterMap Thread.stores = [] := by
      rw [kept, hstored] at hrest
      exact hrest
    simp [watched, kept, filterMap_cons_toList, hrecipients, hclears', hstored, hstores,
      Thread.clears, Thread.stores]
  | @store p info connection hproxy =>
    obtain ⟨hkept, hrest⟩ := kept_of_holds h rfl
    have hpaired := h.paired
    have hpresent := h.present
    have hpast := h.past
    have hstored := (h.alone.busy_of_mem List.mem_cons_self rfl).2
    have hstores : rest.filterMap Thread.stores = [] := by
      rw [kept, hstored] at hrest
      exact hrest
    rw [hkept, watched, filterMap_cons_toList] at hpaired
    rw [filterMap_cons_toList] at hpast
    refine ⟨?_, hpresent, ?_⟩
    · simpa [watched, kept, filterMap_cons_toList, World.unlocked, Thread.clears, Thread.stores,
        hstores, hproxy] using hpaired
    · simpa [filterMap_cons_toList, World.unlocked, Thread.clears] using hpast

theorem Guarded.advance (h : Guarded world threads) (hi : threads[i]? = some thread)
    (reply : Reply) :
    Guarded (world.next thread reply).shared
      (threads.set i (world.next thread reply).thread ++ (world.next thread reply).started) := by
  have hmove := moves_next world thread reply
  have halone := hmove.alone h hi
  obtain ⟨rest, hold, hmoved⟩ := Protocol.exists_perm_set hi
  have hperm := (hmoved (world.next thread reply).thread).append_right
    (world.next thread reply).started
  obtain ⟨hpaired, hpresent, hpast⟩ := hmove.paired (guarded_perm hold.symm h)
  exact guarded_perm hperm ⟨halone.of_perm hperm.symm, hpaired, hpresent, hpast⟩

/-- The recipients are told when the process exits. -/
theorem Guarded.outside (h : Guarded world threads) (event : Outside) :
    Guarded (world.outside event).1 (threads ++ (world.outside event).2) := by
  cases event with
  | getDataShareProxy =>
    refine ⟨h.alone.append (by simp [World.outside, Thread.holds]), ?_, h.present, ?_⟩
    · have hclears : [Thread.lock].filterMap Thread.clears = [] := rfl
      have hstores : [Thread.lock].filterMap Thread.stores = [] := rfl
      simpa [watched, kept, World.outside, hclears, hstores] using h.paired
    · simpa [World.outside, Thread.clears] using h.past
  | exited =>
    have hclears : (world.recipients.map Thread.clear).filterMap Thread.clears =
        world.recipients := by
      rw [List.filterMap_map]
      exact List.filterMap_some
    have hstores : (world.recipients.map Thread.clear).filterMap Thread.stores = [] := by
      simp [List.filterMap_map, Function.comp_def, Thread.stores]
    refine ⟨h.alone.append (by simp [World.outside, Thread.holds]), ?_, by simp [World.outside], ?_⟩
    · have hpaired := List.perm_append_comm.trans h.paired
      simpa [watched, kept, World.outside, hclears, hstores] using hpaired
    · intro p hp
      rw [List.filterMap_append] at hp
      rcases List.mem_append.mp hp with hp | hp
      · exact Nat.lt_succ_of_lt (h.past p hp)
      · rw [World.outside, hclears] at hp
        exact Nat.lt_succ_of_le (h.present p hp).le

theorem guarded_initial (uri : StdString) (saId waitTime : Int32) :
    Guarded (World.initial uri saId waitTime) [] where
  alone := .nobody (by simp) rfl
  paired := .refl _
  present := by simp [World.initial]
  past := by simp

theorem keeps_guarded :
    saMachine.Keeps fun pool => Guarded pool.shared pool.threads where
  outside event h := h.outside event
  next reply h hi := h.advance hi reply

theorem guarded_runSA (uri : StdString) (saId waitTime : Int32) (events : List SAEvent) :
    Guarded (runSA uri saId waitTime events).1.shared (runSA uri saId waitTime events).1.threads :=
  keeps_guarded.run (guarded_initial uri saId waitTime) events

/-! ## Whole runs -/

/-- The provider of the proxy runs and has a recipient, or it is gone and its notice is to be
handled. -/
def Attended (pool : SAPool) (p : ℕ) : Prop :=
  (p = pool.shared.process ∧ p ∈ pool.shared.recipients) ∨
    (p < pool.shared.process ∧ .clear p ∈ pool.threads)

variable {pool : SAPool} {p : ℕ}

theorem clear_mem_of_clears (h : p ∈ threads.filterMap Thread.clears) : .clear p ∈ threads := by
  obtain ⟨t, ht, hclears⟩ := List.mem_filterMap.mp h
  cases t with
  | clear q =>
    obtain rfl : q = p := Option.some_inj.mp hclears
    exact ht
  | _ => simp [Thread.clears] at hclears

theorem Guarded.attended (h : Guarded pool.shared pool.threads)
    (hp : p ∈ kept pool.shared pool.threads) : Attended pool p := by
  rcases List.mem_append.mp (h.paired.mem_iff.mpr hp) with hp | hp
  · exact .inl ⟨h.present p hp, hp⟩
  · exact .inr ⟨h.past p hp, clear_mem_of_clears hp⟩

theorem mem_kept_of_stored (h : pool.shared.connection.dataShareProxy = some p) :
    p ∈ kept pool.shared pool.threads := by
  rw [kept, h]
  exact List.mem_cons_self

/-- A proxy that a step hands out is kept. -/
theorem Moves.mem_kept_of_sent {move : SAMove} (hmove : Moves pool.shared thread move)
    (hthread : thread ∈ pool.threads) (hsent : ⟨some p⟩ ∈ move.sent) :
    p ∈ kept pool.shared pool.threads := by
  cases hmove with
  | plain _ _ _ _ _ _ _ _ hreturns => exact mem_kept_of_stored (hreturns p hsent).1
  | @store q info connection hproxy =>
    obtain rfl : p = q := by simpa [World.unlocked] using hsent
    exact List.mem_append_right _ (List.mem_filterMap.mpr ⟨_, hthread, rfl⟩)
  | _ => simp [World.unlocked] at hsent

theorem Guarded.attended_of_sent (h : Guarded pool.shared pool.threads) {event : SAEvent}
    (hsent : ⟨some p⟩ ∈ (saMachine.step pool event).2) : Attended pool p := by
  rcases event with e | ⟨i, reply⟩
  · simp [Machine.step] at hsent
  · rcases hi : pool.threads[i]? with _ | thread
    · simp [Machine.step_advance_of_none hi] at hsent
    · rw [Machine.step_advance_of_some hi] at hsent
      exact h.attended ((moves_next pool.shared thread reply).mem_kept_of_sent
        (List.mem_of_getElem? hi) hsent)

/-- Only the notice of its provider takes a proxy out. -/
theorem Guarded.past_of_lost (h : Guarded pool.shared pool.threads) {event : SAEvent}
    (hstored : pool.shared.connection.dataShareProxy = some p)
    (hlost : (saMachine.step pool event).1.shared.connection.dataShareProxy ≠ some p) :
    p < pool.shared.process := by
  rcases event with e | ⟨i, reply⟩
  · cases e <;> exact absurd hstored hlost
  · rcases hi : pool.threads[i]? with _ | thread
    · rw [Machine.step_advance_of_none hi] at hlost
      exact absurd hstored hlost
    · rw [Machine.step_advance_of_some hi] at hlost
      change (pool.shared.next thread reply).shared.connection.dataShareProxy ≠ some p at hlost
      have hmem := List.mem_of_getElem? hi
      revert hlost
      generalize pool.shared.next thread reply = move, moves_next pool.shared thread reply = hmove
      intro hlost
      cases hmove with
      | plain hproxy => exact absurd (hproxy.trans hstored) hlost
      | @clear q hlocked =>
        have hq : q ∈ watched pool.shared pool.threads :=
          List.mem_append_right _ (List.mem_filterMap.mpr ⟨_, hmem, rfl⟩)
        have hkept := h.paired.mem_iff.mp hq
        rw [kept_of_not_locked h hlocked, hstored] at hkept
        obtain rfl : q = p := by simpa using hkept
        exact h.past q (List.mem_filterMap.mpr ⟨_, hmem, rfl⟩)
      | store =>
        have := (h.alone.busy_of_mem hmem rfl).2
        simp [hstored] at this
      | _ => exact absurd hstored hlost

/-- What callers may rely on in a state of the connection. -/
structure Attends (pool : SAPool) : Prop where
  stored : ∀ p, pool.shared.connection.dataShareProxy = some p → Attended pool p
  returned : ∀ (event : SAEvent) (p : ℕ), ⟨some p⟩ ∈ (saMachine.step pool event).2 → Attended pool p
  lost : ∀ (event : SAEvent) (p : ℕ), pool.shared.connection.dataShareProxy = some p →
    (saMachine.step pool event).1.shared.connection.dataShareProxy ≠ some p →
    p < pool.shared.process
  once : (watched pool.shared pool.threads).length ≤ 1
  alone : (pool.threads.countP Thread.holds) ≤ 1

theorem Guarded.countP_holds_le (h : Guarded world threads) : threads.countP Thread.holds ≤ 1 := by
  rcases h.alone with ⟨hnone, -⟩ | ⟨worker, rest, hperm, -, hrest, -⟩
  · rw [List.countP_eq_zero.mpr (by simpa using hnone)]
    exact Nat.zero_le 1
  · rw [hperm.countP_eq, List.countP_cons, List.countP_eq_zero.mpr (by simpa using hrest)]
    split <;> omega

theorem length_filterMap_stores_le (threads : List Thread) :
    (threads.filterMap Thread.stores).length ≤ threads.countP Thread.holds := by
  induction threads with
  | nil => exact le_rfl
  | cons thread rest ih =>
    rw [filterMap_cons_toList, List.length_append, List.countP_cons]
    cases thread <;> simp [Thread.stores, Thread.holds] <;> omega

theorem Guarded.length_watched_le (h : Guarded world threads) :
    (watched world threads).length ≤ 1 := by
  rw [h.paired.length_eq]
  rcases hlocked : world.locked with _ | _
  · rw [kept_of_not_locked h hlocked]
    cases world.connection.dataShareProxy <;> simp
  · rcases h.alone with ⟨-, hidle⟩ | ⟨_, _, _, _, _, -, hstored⟩
    · simp [hlocked] at hidle
    · have hle := (length_filterMap_stores_le threads).trans h.countP_holds_le
      simpa [kept, hstored] using hle

/-- In every interleaving, a proxy that is stored or handed out belongs to a provider that runs, or
whose death notice is still to be handled ; a stored proxy is given up only if its provider is gone ;
there is at most one recipient or notice, and at most one caller connects. -/
theorem proxies_attended (uri : StdString) (saId waitTime : Int32) (events : List SAEvent) :
    Attends (runSA uri saId waitTime events).1 := by
  have h := guarded_runSA uri saId waitTime events
  exact {
    stored := fun p hp => h.attended (mem_kept_of_stored hp)
    returned := fun event p hsent => h.attended_of_sent hsent
    lost := fun event p hstored hlost => h.past_of_lost hstored hlost
    once := h.length_watched_le
    alone := h.countP_holds_le }

/-- The notices of a proxy have been handled. -/
structure Handled (p : ℕ) (pool : SAPool) : Prop where
  guarded : Guarded pool.shared pool.threads
  past : p < pool.shared.process
  handled : .clear p ∉ pool.threads

theorem Handled.not_attended (h : Handled p pool) : ¬ Attended pool p := by
  rintro (⟨rfl, -⟩ | ⟨-, hmem⟩)
  · exact absurd h.past (lt_irrefl _)
  · exact h.handled hmem

/-- A thread that does not handle the notice of a proxy does not come to it. -/
theorem Moves.not_clear {move : SAMove} (hmove : Moves world thread move)
    (hthread : thread ≠ .clear p) : .clear p ∉ move.thread :: move.started := by
  cases hmove with
  | plain _ _ _ _ _ hclears _ hstarted =>
    intro hmem
    rw [hstarted, List.mem_singleton] at hmem
    rw [← hmem] at hclears
    cases thread with
    | clear q =>
      obtain rfl : p = q := Option.some_inj.mp hclears
      exact hthread rfl
    | _ => simp [Thread.clears] at hclears
  | _ => simp [World.unlocked]

theorem keeps_handled (p : ℕ) : saMachine.Keeps (Handled p) where
  outside := by
    rintro pool event ⟨hguarded, hpast, hhandled⟩
    refine ⟨hguarded.outside event, ?_, ?_⟩
    · cases event with
      | getDataShareProxy => exact hpast
      | exited => exact Nat.lt_succ_of_lt hpast
    · intro hmem
      rcases List.mem_append.mp hmem with hmem | hmem
      · exact hhandled hmem
      · cases event with
        | getDataShareProxy => simp [saMachine, World.outside] at hmem
        | exited =>
          obtain ⟨q, hq, heq⟩ := List.mem_map.mp hmem
          obtain rfl : q = p := Thread.clear.inj heq
          exact absurd (hguarded.present q hq) hpast.ne
  next := by
    rintro pool i thread reply ⟨hguarded, hpast, hhandled⟩ hi
    have hmove := moves_next pool.shared thread reply
    have hmem := List.mem_of_getElem? hi
    refine ⟨hguarded.advance hi reply, ?_, ?_⟩
    · have hprocess : (pool.shared.next thread reply).shared.process = pool.shared.process := by
        generalize pool.shared.next thread reply = move at hmove
        cases hmove with
        | plain _ _ _ hprocess => exact hprocess
        | _ => rfl
      exact hpast.trans_eq hprocess.symm
    · have hnot := hmove.not_clear (p := p) fun heq => hhandled (heq ▸ hmem)
      exact fun hin => (Machine.mem_or_of_mem_set_append hin).elim hhandled hnot

/-- Once the provider is gone and its notice has been handled, whatever happens next its proxy is not
stored and not handed out. -/
theorem gone_for_good (uri : StdString) (saId waitTime : Int32) (events more : List SAEvent) (p : ℕ)
    (hpast : p < (runSA uri saId waitTime events).1.shared.process)
    (hhandled : .clear p ∉ (runSA uri saId waitTime events).1.threads) :
    ⟨some p⟩ ∉ (saMachine.run (runSA uri saId waitTime events).1 more).2 ∧
      (saMachine.run (runSA uri saId waitTime events).1 more).1.shared.connection.dataShareProxy ≠
        some p := by
  have hinit : Handled p (runSA uri saId waitTime events).1 :=
    ⟨guarded_runSA uri saId waitTime events, hpast, hhandled⟩
  generalize (runSA uri saId waitTime events).1 = pool at hinit
  constructor
  · induction more using List.reverseRecOn with
    | nil => simp [Machine.run]
    | append_singleton more event ih =>
      have hbefore := (keeps_handled p).run hinit more
      rw [Machine.run, runCalls_concat]
      intro hmem
      rcases List.mem_append.mp hmem with hmem | hmem
      · exact ih hmem
      · exact hbefore.not_attended (hbefore.guarded.attended_of_sent hmem)
  · intro hstored
    have hafter := (keeps_handled p).run hinit more
    exact hafter.not_attended (hafter.guarded.attended (mem_kept_of_stored hstored))

/-- A call connects. -/
def connects (caller task : ℕ) : List SAEvent :=
  [.advance caller .accept, .advance task (.interfaceInfo 0 ⟨7, []⟩), .advance task .accept,
    .advance task .accept, .advance task .accept, .advance caller .accept, .advance caller .accept,
    .advance caller .accept]

/-- A call connects, the provider exits, and the notice is handled. -/
def firstProvider : List SAEvent :=
  ([.outside .getDataShareProxy] : List SAEvent) ++ connects 0 1 ++
    ([.outside .exited, .advance 2 .accept] : List SAEvent)

/-- The first proxy was handed out once, and the second call gets the next one. -/
theorem gone_for_good_reconnects :
    (runSA [] 1 2 firstProvider).2 = [⟨some 0⟩] ∧
    (saMachine.run (runSA [] 1 2 firstProvider).1 (connects 2 3)).2 = [⟨some 1⟩] ∧
    ⟨some 0⟩ ∉ (saMachine.run (runSA [] 1 2 firstProvider).1 (connects 2 3)).2 :=
  ⟨by decide +kernel, by decide +kernel,
    (gone_for_good [] 1 2 firstProvider (connects 2 3) 0 (by decide +kernel)
      (by decide +kernel)).1⟩

end DataShareSAConnection

end Cpp

end DataShare
