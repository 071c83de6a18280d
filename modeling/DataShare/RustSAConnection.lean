import DataShare.ThreadMachine

/-!
# The Rust connection to a system ability

`datashare_sa_connection.rs` keeps the proxy in a slot with a mutex of its own, which is not held while
`connect_to_provider` connects. It adds a death recipient whose closure clears the slot, stores the
handle of the recipient, and then the proxy. Whether the recipient was accepted is not looked at, and
a notice that comes before the proxy is stored clears a slot that is still empty.

If recipients are added and removed one after the other, each is accepted, and the provider does not
exit between the recipient and the store (`Orderly`), every stored proxy has a recipient or a notice
(`attended_of_orderly`). Otherwise the proxy of a provider that is gone may stay in the slot with
neither (`Stuck`), and from then on every call returns it (`stuck_for_good`). What the drop of a
handle does to its recipient is a parameter.
-/

namespace DataShare

namespace Rust

structure InterfaceInfo where
  code : UInt32
  descriptor : String
  deriving DecidableEq

/-- A proxy is known by the process of the provider it calls, and a handle by its recipient. -/
structure DataShareSAConnection where
  uri : String
  saId : Int32
  waitTime : Int32
  interfaceInfo : InterfaceInfo
  proxy : Option ℕ
  deathHandle : Option ℕ
  deriving DecidableEq

namespace DataShareSAConnection

def invalidInterfaceCode : UInt32 := 0xFFFFFFFF

def new (uri : String) (saId waitTime : Int32) : DataShareSAConnection where
  uri := uri
  saId := saId
  waitTime := if waitTime < 0 then 0 else waitTime
  interfaceInfo := ⟨invalidInterfaceCode, ""⟩
  proxy := none
  deathHandle := none

/-! ## Threads -/

/-- What the threads share, and the provider : its process, and the recipients of its proxies. -/
structure World where
  connection : DataShareSAConnection
  process : ℕ
  recipients : List ℕ
  nextRecipient : ℕ
  deriving DecidableEq

/-- The next step of a thread. -/
inductive Thread where
  | getOrConnect
  /-- `ensure_interface_info` -/
  | loadInterfaceInfo
  | getConnectionInterfaceInfo
  | storeInterfaceInfo (info : InterfaceInfo)
  /-- `connect_to_provider` -/
  | checkAndLoad (info : InterfaceInfo)
  | sendRequest (info : InterfaceInfo) (remote : ℕ)
  | addDeathRecipient (proxyRemote : ℕ)
  | storeHandle (proxyRemote : ℕ) (handle : Option ℕ)
  | storeProxy (proxyRemote : ℕ)
  /-- The closure of a recipient. -/
  | notice
  | onRemoteDied
  | dropHandle
  | finished
  deriving DecidableEq

/-- What the service, the ability or the IPC answers. -/
inductive Reply where
  | refuse
  | accept
  | interfaceInfo (errCode : Int32) (info : InterfaceInfo)
  deriving DecidableEq

/-- `get_or_connect` has returned. -/
structure Message where
  proxy : Option ℕ
  deriving DecidableEq

abbrev SAMove := MachineMove World Thread Message

namespace World

def pass (world : World) (thread : Thread) : SAMove :=
  ⟨world, thread, [], []⟩

def returned (world : World) (proxy : Option ℕ) : SAMove :=
  ⟨world, .finished, [], [⟨proxy⟩]⟩

/-- Put a handle in the place of the one that is there, which is dropped. -/
def replaceHandle (unregisters : Bool) (world : World) (handle : Option ℕ) : World where
  __ := world
  connection := { world.connection with deathHandle := handle }
  recipients :=
    if unregisters then world.recipients.filter fun r => some r ≠ world.connection.deathHandle
    else world.recipients

/-- The next step of a thread. The IPC refuses a recipient for a process that is gone. -/
def next (unregisters : Bool) (world : World) (thread : Thread) (reply : Reply) : SAMove :=
  let c := world.connection
  match thread with
  | .getOrConnect =>
    if c.proxy.isSome then world.returned c.proxy else world.pass .loadInterfaceInfo
  | .loadInterfaceInfo =>
    if c.interfaceInfo.code ≠ invalidInterfaceCode then world.pass (.checkAndLoad c.interfaceInfo)
    else world.pass .getConnectionInterfaceInfo
  | .getConnectionInterfaceInfo =>
    match reply with
    | .interfaceInfo errCode info =>
      if errCode ≠ 0 ∨ info.code = invalidInterfaceCode then world.returned none
      else world.pass (.storeInterfaceInfo info)
    | _ => world.returned none
  | .storeInterfaceInfo info =>
    ⟨{ world with connection := { c with interfaceInfo := info } }, .checkAndLoad info, [], []⟩
  | .checkAndLoad info =>
    if reply = .refuse then world.returned none else world.pass (.sendRequest info world.process)
  | .sendRequest _ remote =>
    if remote = world.process ∧ reply ≠ .refuse then world.pass (.addDeathRecipient remote)
    else world.returned none
  | .addDeathRecipient p =>
    if p = world.process ∧ reply ≠ .refuse then
      ⟨{ world with
          recipients := world.nextRecipient :: world.recipients
          nextRecipient := world.nextRecipient + 1 },
        .storeHandle p (some world.nextRecipient), [], []⟩
    else world.pass (.storeHandle p none)
  | .storeHandle p handle => ⟨world.replaceHandle unregisters handle, .storeProxy p, [], []⟩
  | .storeProxy p =>
    ({ world with connection := { c with proxy := some p } } : World).returned (some p)
  | .notice => ⟨{ world with connection := { c with proxy := none } }, .finished, [], []⟩
  | .onRemoteDied => ⟨{ world with connection := { c with proxy := none } }, .dropHandle, [], []⟩
  | .dropHandle => ⟨world.replaceHandle unregisters none, .finished, [], []⟩
  | .finished => world.pass .finished

end World

/-- What happens outside : somebody asks for the proxy, or tells of a death, or the provider's process
exits, and its recipients are told. -/
inductive Outside where
  | getOrConnect
  | onRemoteDied
  | exited
  deriving DecidableEq

def World.outside (world : World) : Outside → World × List Thread
  | .getOrConnect => (world, [.getOrConnect])
  | .onRemoteDied => (world, [.onRemoteDied])
  | .exited =>
    ({ world with process := world.process + 1, recipients := [] },
      world.recipients.map fun _ => .notice)

def saMachine (unregisters : Bool) : Machine World Thread Outside Reply Message :=
  ⟨World.outside, World.next unregisters⟩

abbrev SAEvent := MachineEvent Outside Reply

abbrev SAPool := Pool World Thread

/-- A connection nobody has used. -/
def World.initial (uri : String) (saId waitTime : Int32) : World where
  connection := .new uri saId waitTime
  process := 0
  recipients := []
  nextRecipient := 0

/-- The connection and the messages after `events`. -/
def runSA (unregisters : Bool) (uri : String) (saId waitTime : Int32) (events : List SAEvent) :
    SAPool × List Message :=
  (saMachine unregisters).run ⟨World.initial uri saId waitTime, []⟩ events

/-! ## Orderly runs -/

/-- The thread has added a recipient and has yet to store its proxy, or has yet to drop the handle. -/
def Thread.works : Thread → Bool
  | .storeHandle _ _ | .storeProxy _ | .dropHandle => true
  | _ => false

/-- A recipient is accepted, and it is added, or the slot is cleared for a removal, when no other thread
works on the registration. -/
def Thread.InOrder (pool : SAPool) (reply : Reply) : Thread → Prop
  | .addDeathRecipient p => p = pool.shared.process ∧ reply ≠ .refuse ∧
      ∀ thread ∈ pool.threads, thread.works = false
  | .onRemoteDied => ∀ thread ∈ pool.threads, thread.works = false
  | _ => True

/-- Recipients are added and removed one after the other, the provider accepts each, and it does not
exit before the proxy is stored. -/
def Orderly (pool : SAPool) : SAEvent → Prop
  | .outside event => event = .exited → ∀ thread ∈ pool.threads, thread.works = false
  | .advance i reply => ∀ thread ∈ pool.threads[i]?, thread.InOrder pool reply

instance (pool : SAPool) (reply : Reply) (thread : Thread) :
    Decidable (thread.InOrder pool reply) := by
  cases thread <;> unfold Thread.InOrder <;> infer_instance

instance : DecidableRel Orderly := fun _ event => by
  cases event <;> unfold Orderly <;> infer_instance

/-- The provider of the proxy runs and has a recipient, or it is gone and a notice is to be handled. -/
def Attended (pool : SAPool) (p : ℕ) : Prop :=
  (p = pool.shared.process ∧ pool.shared.recipients ≠ []) ∨
    (p < pool.shared.process ∧ .notice ∈ pool.threads)

/-- What the one thread that changes the registration has reached. -/
def Thread.Expects (world : World) : Thread → Prop
  | .storeHandle p handle => p = world.process ∧
      ∃ r ∈ world.recipients, handle = some r ∧ world.connection.deathHandle ≠ some r
  | .storeProxy p => p = world.process ∧ world.recipients ≠ []
  | .dropHandle => world.connection.proxy = none
  | _ => True

structure Registered (pool : SAPool) : Prop where
  alone : OneWorker Thread.works True (Thread.Expects pool.shared) pool.threads
  attended : ∀ p, pool.shared.connection.proxy = some p → Attended pool p
  fresh : ∀ r, pool.shared.connection.deathHandle = some r → r < pool.shared.nextRecipient
  numbered : ∀ r ∈ pool.shared.recipients, r < pool.shared.nextRecipient

variable {unregisters : Bool} {world : World} {pool : SAPool} {thread : Thread} {i p : ℕ}
  {reply : Reply} {log : List Message}

/-- Whether a step changes the registration or the slot. -/
def Thread.plain : Thread → Bool
  | .addDeathRecipient _ | .storeHandle _ _ | .storeProxy _ | .notice | .onRemoteDied | .dropHandle =>
    false
  | _ => true

/-- What the other steps leave alone. -/
structure Leaves (world : World) (move : SAMove) : Prop where
  proxy : move.shared.connection.proxy = world.connection.proxy
  deathHandle : move.shared.connection.deathHandle = world.connection.deathHandle
  process : move.shared.process = world.process
  recipients : move.shared.recipients = world.recipients
  nextRecipient : move.shared.nextRecipient = world.nextRecipient
  works : move.thread.works = false
  started : move.started = []

theorem leaves_pass {moved : Thread} (h : moved.works = false) : Leaves world (world.pass moved) :=
  ⟨rfl, rfl, rfl, rfl, rfl, h, rfl⟩

theorem leaves_returned (proxy : Option ℕ) : Leaves world (world.returned proxy) :=
  ⟨rfl, rfl, rfl, rfl, rfl, rfl, rfl⟩

theorem leaves_next (unregisters : Bool) (world : World) (reply : Reply)
    (h : thread.plain = true) : Leaves world (world.next unregisters thread reply) := by
  cases thread with
  | getOrConnect =>
    rw [World.next]
    split
    · exact leaves_returned _
    · exact leaves_pass rfl
  | loadInterfaceInfo =>
    rw [World.next]
    split <;> exact leaves_pass rfl
  | getConnectionInterfaceInfo =>
    cases reply with
    | interfaceInfo errCode info =>
      rw [World.next]
      split
      · exact leaves_returned _
      · exact leaves_pass rfl
    | _ => exact leaves_returned _
  | storeInterfaceInfo info => exact ⟨rfl, rfl, rfl, rfl, rfl, rfl, rfl⟩
  | checkAndLoad info =>
    rw [World.next]
    split
    · exact leaves_returned _
    · exact leaves_pass rfl
  | sendRequest info remote =>
    rw [World.next]
    split
    · exact leaves_pass rfl
    · exact leaves_returned _
  | finished => exact leaves_pass rfl
  | _ => simp [Thread.plain] at h

theorem Leaves.expects {move : SAMove} (h : Leaves world move) {worker : Thread}
    (hworker : worker.Expects world) : worker.Expects move.shared := by
  obtain ⟨hproxy, hhandle, hprocess, hrecipients, -, -, -⟩ := h
  cases worker with
  | storeHandle | storeProxy | dropHandle =>
    simpa only [Thread.Expects, hproxy, hhandle, hprocess, hrecipients] using hworker
  | _ => exact trivial

/-- A notice stays until it is handled. -/
theorem notice_mem_set {threads started : List Thread} {moved : Thread}
    (hi : threads[i]? = some thread) (hthread : thread ≠ .notice) (hmem : .notice ∈ threads) :
    .notice ∈ threads.set i moved ++ started := by
  rcases Protocol.mem_set_of_mem moved hi hmem with heq | hmem
  · exact absurd heq.symm hthread
  · exact List.mem_append_left _ hmem

theorem attended_of_moved {world' : World} {threads threads' : List Thread}
    (h : Attended ⟨world, threads⟩ p) (hprocess : world'.process = world.process)
    (hrecipients : world.recipients ≠ [] → world'.recipients ≠ [])
    (hnotice : .notice ∈ threads → .notice ∈ threads') : Attended ⟨world', threads'⟩ p := by
  rcases h with ⟨rfl, h⟩ | ⟨hp, h⟩
  · exact .inl ⟨hprocess.symm, hrecipients h⟩
  · exact .inr ⟨Nat.lt_of_lt_of_eq hp hprocess.symm, hnotice h⟩

theorem mem_replaceHandle {r : ℕ} {handle : Option ℕ} (hr : r ∈ world.recipients)
    (hne : world.connection.deathHandle ≠ some r) :
    r ∈ (world.replaceHandle unregisters handle).recipients := by
  rw [World.replaceHandle]
  dsimp only
  split
  · exact List.mem_filter.mpr ⟨hr, by simpa using fun heq => hne heq.symm⟩
  · exact hr

/-! ## Steps of orderly runs -/

theorem Registered.alone_next (h : Registered pool) (hi : pool.threads[i]? = some thread)
    (horderly : thread.InOrder pool reply) :
    OneWorker Thread.works True
      (Thread.Expects (pool.shared.next unregisters thread reply).shared)
      (pool.threads.set i (pool.shared.next unregisters thread reply).thread ++
        (pool.shared.next unregisters thread reply).started) := by
  refine OneWorker.advance h.alone hi ?_ ?_ ?_
  · intro hworks hexpects
    cases thread with
    | storeHandle p handle =>
      obtain ⟨rfl, r, hr, rfl, hne⟩ := hexpects
      exact .single rfl ⟨rfl, List.ne_nil_of_mem (mem_replaceHandle hr hne)⟩
    | storeProxy p => exact .nobody (by simp [World.next, World.returned, Thread.works]) trivial
    | dropHandle => exact .nobody (by simp [World.next, Thread.works]) trivial
    | _ => simp [Thread.works] at hworks
  · intro hworks _ hnone
    rcases hplain : thread.plain with _ | _
    · cases thread with
      | addDeathRecipient p =>
        obtain ⟨rfl, hreply, -⟩ := horderly
        rw [World.next, if_pos ⟨rfl, hreply⟩]
        refine .single rfl ⟨rfl, _, List.mem_cons_self, rfl, fun heq => ?_⟩
        exact absurd (h.fresh _ heq) (Nat.lt_irrefl _)
      | notice => exact .nobody (by simp [World.next, Thread.works]) trivial
      | onRemoteDied => exact .single rfl rfl
      | storeHandle | storeProxy | dropHandle => simp [Thread.works] at hworks
      | _ => simp [Thread.plain] at hplain
    · have hleaves := leaves_next unregisters pool.shared reply hplain
      rw [hleaves.started]
      exact .nobody (by simp [hleaves.works]) trivial
  · intro hworks worker hmem hworker hexpects
    rcases hplain : thread.plain with _ | _
    · cases thread with
      | addDeathRecipient p => simp [horderly.2.2 worker hmem] at hworker
      | notice =>
        refine ⟨?_, by simp [World.next, Thread.works]⟩
        cases worker with
        | dropHandle => rfl
        | _ => exact hexpects
      | onRemoteDied => simp [horderly worker hmem] at hworker
      | storeHandle | storeProxy | dropHandle => simp [Thread.works] at hworks
      | _ => simp [Thread.plain] at hplain
    · have hleaves := leaves_next unregisters pool.shared reply hplain
      rw [hleaves.started]
      exact ⟨hleaves.expects hexpects, by simp [hleaves.works]⟩

theorem Registered.attended_next (h : Registered pool) (hi : pool.threads[i]? = some thread)
    (horderly : thread.InOrder pool reply)
    (hp : (pool.shared.next unregisters thread reply).shared.connection.proxy = some p) :
    Attended ⟨(pool.shared.next unregisters thread reply).shared,
      pool.threads.set i (pool.shared.next unregisters thread reply).thread ++
        (pool.shared.next unregisters thread reply).started⟩ p := by
  have hmem := List.mem_of_getElem? hi
  rcases hplain : thread.plain with _ | _
  · cases thread with
    | addDeathRecipient q =>
      obtain ⟨rfl, hreply, -⟩ := horderly
      rw [World.next, if_pos ⟨rfl, hreply⟩] at hp ⊢
      exact attended_of_moved (h.attended p hp) rfl (by simp) (notice_mem_set hi (by simp))
    | storeHandle q handle =>
      obtain ⟨-, r, hr, -, hne⟩ := h.alone.busy_of_mem hmem rfl
      refine attended_of_moved (h.attended p hp) rfl (fun _ => ?_) (notice_mem_set hi (by simp))
      exact List.ne_nil_of_mem (mem_replaceHandle hr hne)
    | storeProxy q =>
      obtain ⟨rfl, hrecipients⟩ := h.alone.busy_of_mem hmem rfl
      obtain rfl : pool.shared.process = p := Option.some_inj.mp hp
      exact .inl ⟨rfl, hrecipients⟩
    | notice => simp [World.next] at hp
    | onRemoteDied => simp [World.next] at hp
    | dropHandle =>
      have hnone := h.alone.busy_of_mem hmem rfl
      simp only [World.next, World.replaceHandle] at hp
      exact absurd (hp.symm.trans hnone) (by simp)
    | _ => simp [Thread.plain] at hplain
  · have hleaves := leaves_next unregisters pool.shared reply hplain
    rw [hleaves.proxy] at hp
    refine attended_of_moved (h.attended p hp) hleaves.process (fun hne => ?_)
      (notice_mem_set hi ?_)
    · rwa [hleaves.recipients]
    · rintro rfl
      simp [Thread.plain] at hplain

theorem replaceHandle_recipients_subset {r : ℕ} {handle : Option ℕ}
    (h : r ∈ (world.replaceHandle unregisters handle).recipients) : r ∈ world.recipients := by
  rw [World.replaceHandle] at h
  dsimp only at h
  split at h
  · exact (List.mem_filter.mp h).1
  · exact h

/-- The numbers of recipients are used once. -/
theorem Registered.numbered_next (h : Registered pool) (hi : pool.threads[i]? = some thread)
    (horderly : thread.InOrder pool reply) {r : ℕ}
    (hr : (pool.shared.next unregisters thread reply).shared.connection.deathHandle = some r ∨
      r ∈ (pool.shared.next unregisters thread reply).shared.recipients) :
    r < (pool.shared.next unregisters thread reply).shared.nextRecipient := by
  have hmem := List.mem_of_getElem? hi
  rcases hplain : thread.plain with _ | _
  · cases thread with
    | addDeathRecipient q =>
      obtain ⟨rfl, hreply, -⟩ := horderly
      rw [World.next, if_pos ⟨rfl, hreply⟩] at hr ⊢
      rcases hr with hr | hr
      · exact Nat.lt_succ_of_lt (h.fresh r hr)
      · rcases List.mem_cons.mp hr with rfl | hr
        · exact Nat.lt_succ_self _
        · exact Nat.lt_succ_of_lt (h.numbered r hr)
    | storeHandle q handle =>
      obtain ⟨-, r', hr', rfl, -⟩ := h.alone.busy_of_mem hmem rfl
      rcases hr with hr | hr
      · obtain rfl : r' = r := Option.some_inj.mp hr
        exact h.numbered r' hr'
      · exact h.numbered r (replaceHandle_recipients_subset hr)
    | dropHandle =>
      rcases hr with hr | hr
      · simp [World.next, World.replaceHandle] at hr
      · exact h.numbered r (replaceHandle_recipients_subset hr)
    | storeProxy | notice | onRemoteDied => exact hr.elim (h.fresh r) (h.numbered r)
    | _ => simp [Thread.plain] at hplain
  · have hleaves := leaves_next unregisters pool.shared reply hplain
    rw [hleaves.deathHandle, hleaves.recipients] at hr
    rw [hleaves.nextRecipient]
    exact hr.elim (h.fresh r) (h.numbered r)

theorem Registered.outside (h : Registered pool) {event : Outside}
    (horderly : event = .exited → ∀ thread ∈ pool.threads, thread.works = false) :
    Registered ⟨(pool.shared.outside event).1, pool.threads ++ (pool.shared.outside event).2⟩ := by
  have hkept : ∀ started : List Thread, ∀ p, pool.shared.connection.proxy = some p →
      Attended ⟨pool.shared, pool.threads ++ started⟩ p := fun started p hp =>
    attended_of_moved (h.attended p hp) rfl id (List.mem_append_left started)
  cases event with
  | getOrConnect =>
    exact ⟨h.alone.append (by simp [World.outside, Thread.works]), hkept _, h.fresh, h.numbered⟩
  | onRemoteDied =>
    exact ⟨h.alone.append (by simp [World.outside, Thread.works]), hkept _, h.fresh, h.numbered⟩
  | exited =>
    refine ⟨.nobody ?_ trivial, fun p hp => .inr ?_, h.fresh, by simp [World.outside]⟩
    · intro thread hthread
      rcases List.mem_append.mp hthread with hthread | hthread
      · exact horderly rfl thread hthread
      · obtain ⟨_, -, rfl⟩ := List.mem_map.mp hthread
        rfl
    · rcases h.attended p hp with ⟨rfl, hrecipients⟩ | ⟨hlt, hnotice⟩
      · refine ⟨Nat.lt_succ_self _, List.mem_append_right _ ?_⟩
        obtain ⟨r, hr⟩ := List.exists_mem_of_ne_nil _ hrecipients
        exact List.mem_map.mpr ⟨r, hr, rfl⟩
      · exact ⟨Nat.lt_succ_of_lt hlt, List.mem_append_left _ hnotice⟩

theorem Registered.step (h : Registered pool) {event : SAEvent} (horderly : Orderly pool event) :
    Registered ((saMachine unregisters).step pool event).1 := by
  rcases event with e | ⟨i, reply⟩
  · exact h.outside horderly
  · rcases hi : pool.threads[i]? with _ | thread
    · rwa [Machine.step_advance_of_none hi]
    · rw [Machine.step_advance_of_some hi]
      have hin := horderly thread hi
      exact ⟨h.alone_next hi hin, fun p hp => h.attended_next hi hin hp,
        fun r hr => h.numbered_next hi hin (.inl hr), fun r hr => h.numbered_next hi hin (.inr hr)⟩

/-- The steps of a call that connects, each of which is answered. -/
def connects (caller : ℕ) : List SAEvent :=
  [.advance caller .accept, .advance caller .accept, .advance caller (.interfaceInfo 0 ⟨7, ""⟩),
    .advance caller .accept, .advance caller .accept, .advance caller .accept,
    .advance caller .accept, .advance caller .accept, .advance caller .accept]

/-- The provider of the proxy in the slot is gone, and nothing is on its way that clears the slot. -/
def Stuck (p : ℕ) (pool : SAPool) : Prop :=
  pool.shared.connection.proxy = some p ∧ p < pool.shared.process ∧ pool.shared.recipients = [] ∧
    ∀ thread ∈ pool.threads, thread = .getOrConnect ∨ thread = .finished

instance : Decidable (Stuck p pool) := by
  unfold Stuck
  infer_instance

theorem Stuck.step (h : Stuck p pool) {event : SAEvent} (hevent : event ≠ .outside .onRemoteDied) :
    Stuck p ((saMachine unregisters).step pool event).1 ∧
      ∀ message ∈ ((saMachine unregisters).step pool event).2, message = ⟨some p⟩ := by
  obtain ⟨hproxy, hpast, hrecipients, hthreads⟩ := h
  rcases event with e | ⟨i, reply⟩
  · refine ⟨?_, by simp [Machine.step]⟩
    cases e with
    | getOrConnect =>
      refine ⟨hproxy, hpast, hrecipients, fun thread hthread => ?_⟩
      rcases List.mem_append.mp hthread with hthread | hthread
      · exact hthreads thread hthread
      · exact .inl (List.mem_singleton.mp hthread)
    | onRemoteDied => exact absurd rfl hevent
    | exited =>
      refine ⟨hproxy, Nat.lt_succ_of_lt hpast, rfl, fun thread hthread => ?_⟩
      rcases List.mem_append.mp hthread with hthread | hthread
      · exact hthreads thread hthread
      · simp [saMachine, World.outside, hrecipients] at hthread
  · rcases hi : pool.threads[i]? with _ | thread
    · rw [Machine.step_advance_of_none hi]
      exact ⟨⟨hproxy, hpast, hrecipients, hthreads⟩, by simp⟩
    · -- a call that asks for the proxy finds the slot full
      have hmove : (saMachine unregisters).next pool.shared thread reply =
            ⟨pool.shared, .finished, [], []⟩ ∨
          (saMachine unregisters).next pool.shared thread reply =
            ⟨pool.shared, .finished, [], [⟨some p⟩]⟩ := by
        rcases hthreads thread (List.mem_of_getElem? hi) with rfl | rfl
        · right
          simp [saMachine, World.next, hproxy, World.returned]
        · exact .inl rfl
      rw [Machine.step_advance_of_some hi]
      have hset : ∀ other ∈ pool.threads.set i .finished ++ [],
          other = .getOrConnect ∨ other = .finished := by
        intro other hother
        rw [List.append_nil] at hother
        exact (List.mem_or_eq_of_mem_set hother).elim (hthreads other) .inr
      rcases hmove with hmove | hmove
      · rw [hmove]
        exact ⟨⟨hproxy, hpast, hrecipients, hset⟩, by simp⟩
      · rw [hmove]
        exact ⟨⟨hproxy, hpast, hrecipients, hset⟩, by simp⟩

/-- A proxy that is stuck stays, and every call gets it, until somebody tells of a death. -/
theorem stuck_for_good (unregisters : Bool) (pool : SAPool) (p : ℕ) (more : List SAEvent)
    (h : Stuck p pool) (hmore : .outside .onRemoteDied ∉ more) :
    Stuck p ((saMachine unregisters).run pool more).1 ∧
      ∀ message ∈ ((saMachine unregisters).run pool more).2, message = ⟨some p⟩ := by
  induction more using List.reverseRecOn with
  | nil => exact ⟨h, by simp [Machine.run]⟩
  | append_singleton more event ih =>
    obtain ⟨hstuck, hlog⟩ := ih fun hmem => hmore (List.mem_append_left _ hmem)
    have hevent : event ≠ .outside .onRemoteDied :=
      fun heq => hmore (heq ▸ List.mem_append_right _ (List.mem_singleton_self event))
    obtain ⟨hafter, hsent⟩ := Stuck.step hstuck hevent
    rw [Machine.run, runCalls_concat]
    refine ⟨hafter, fun message hmem => ?_⟩
    rcases List.mem_append.mp hmem with hmem | hmem
    · exact hlog message hmem
    · exact hsent message hmem

/-- A single call, and a provider that exits after it has accepted the recipient. -/
def race : List SAEvent :=
  ([.outside .getOrConnect] : List SAEvent) ++ (connects 0).take 7 ++
    ([.outside .exited, .advance 1 .accept] : List SAEvent) ++ (connects 0).drop 7

/-- A later call gets the proxy of the process that is gone. -/
theorem stuck_for_good_race :
    (runSA false "" 1 2 race).1.shared.process = 1 ∧
    Stuck 0 ((saMachine false).run (runSA false "" 1 2 race).1
      ([.outside .getOrConnect, .advance 2 .accept] : List SAEvent)).1 ∧
    ((saMachine false).run (runSA false "" 1 2 race).1
      ([.outside .getOrConnect, .advance 2 .accept] : List SAEvent)).2 = [⟨some 0⟩] :=
  ⟨by decide +kernel,
    (stuck_for_good false (runSA false "" 1 2 race).1 0 _ (by decide +kernel)
      (by decide +kernel)).1, by decide +kernel⟩

end DataShareSAConnection

end Rust

end DataShare
