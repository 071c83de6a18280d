import DataShare.ThreadMachine
import Mathlib.Data.Int.Notation

/-!
# The Rust connection to a provider

`DataShareConnection` of the Rust consumer. Its `disconnect` and `set_connect_invalid` leave the URI
in place, and `on_ability_disconnect_done` reconnects without a look at `is_invalid` : the
disconnect that the user asked for is answered by the callback that reconnects
(`disconnect_reconnects`).

A call of the user closes the connection for good if nothing of it is under way that could connect
(`Closable`) : from then on every thread is calm (`Thread.isCalm`), and what is still to be
disconnected is the one connection of the stored handle (`Closing`, `stays_closed`). The observers
that a reconnect registers again, and the raw pointer of the remote object, have no part in this and
are left out.
-/

namespace DataShare

namespace Rust

/-! ## The connection -/

structure ConnectionInfo where
  count : ℤ := 0
  deriving DecidableEq

/-- A connection of the ability manager is known by its number, which also stands for its handle. -/
structure DataShareConnection where
  proxy : Option ℕ
  isInvalid : Bool
  isReconnect : Bool
  reconnects : ConnectionInfo
  connectionHandle : Option ℕ
  deriving DecidableEq

def DataShareConnection.new : DataShareConnection where
  proxy := none
  isInvalid := false
  isReconnect := false
  reconnects := {}
  connectionHandle := none

/-- `MAX_RECONNECT`. -/
def maxReconnect : ℤ := 6

/-- The connection, and what the ability manager has of it. -/
structure World where
  connection : DataShareConnection
  next : ℕ
  connecting : List ℕ
  established : List ℕ
  deriving DecidableEq

/-- The next step of a thread. -/
inductive Thread where
  /-- `on_ability_connect_done` -/
  | storeProxy (remoteObject : ℕ)
  | loadInvalid
  | loadReconnect
  | clearReconnect
  | resetReconnects
  /-- `disconnect` -/
  | checkProxy
  | disconnectHandle
  /-- `on_ability_disconnect_done`, `reconnect_ext_ability`, `delay_connect_ext_ability` -/
  | clearProxy
  | reconnect
  | connectNow
  | delayConnect
  | delayed
  | storeHandle (handle : ℕ)
  /-- `get_data_share_proxy` -/
  | getProxy
  | connectExt
  | storeHandleAndWait (handle : ℕ)
  | awaitProxy
  | finished
  deriving DecidableEq

/-- `DataShareConnectionConnectExt` is called. -/
inductive Message where
  | connectExt (automatic : Bool)
  deriving DecidableEq

abbrev ConnectionMove := MachineMove World Thread Message

namespace World

def become (world : World) (connection : DataShareConnection) (thread : Thread) : ConnectionMove :=
  ⟨{ world with connection := connection }, thread, [], []⟩

/-- `DataShareConnectionConnectExt`, with the thread that goes on with the handle. -/
def connect (world : World) (automatic reply : Bool) (connected : ℕ → Thread) (refused : Thread) :
    ConnectionMove :=
  if reply then
    ⟨{ world with next := world.next + 1, connecting := world.next :: world.connecting },
      connected world.next, [], [.connectExt automatic]⟩
  else
    ⟨world, refused, [], [.connectExt automatic]⟩

/-- `DataShareConnectionDisconnect`, answered by `on_disconnect_ffi`. -/
def disconnect (world : World) (handle : ℕ) : World × List Thread :=
  if handle ∈ world.established then
    ({ world with established := world.established.erase handle }, [.clearProxy])
  else
    (world, [])

/-- The next step of a thread. `reply` says whether the ability manager accepts the connect. -/
def step (world : World) (thread : Thread) (reply : Bool) : ConnectionMove :=
  let c := world.connection
  match thread with
  | .storeProxy remoteObject => world.become { c with proxy := some remoteObject } .loadInvalid
  | .loadInvalid => world.become c (if c.isInvalid then .checkProxy else .loadReconnect)
  | .loadReconnect => world.become c (if c.isReconnect then .clearReconnect else .finished)
  | .clearReconnect => world.become { c with isReconnect := false } .resetReconnects
  | .resetReconnects => world.become { c with reconnects := {} } .finished
  | .checkProxy => world.become c (if c.proxy = none then .finished else .disconnectHandle)
  | .disconnectHandle =>
    let after := c.connectionHandle.elim (world, []) world.disconnect
    ⟨{ after.1 with connection := { c with connectionHandle := none } }, .finished, after.2, []⟩
  | .clearProxy => world.become { c with proxy := none } .reconnect
  | .reconnect =>
    if c.reconnects.count = 0 then
      world.become { c with reconnects := ⟨1⟩, isReconnect := true } .connectNow
    else
      world.become c .delayConnect
  | .connectNow => world.connect true reply .storeHandle .finished
  | .delayConnect =>
    if c.reconnects.count ≥ maxReconnect then
      world.become c .finished
    else
      ⟨{ world with connection :=
          { c with reconnects := ⟨c.reconnects.count + 1⟩, isReconnect := true } },
        .finished, [.delayed], []⟩
  | .delayed => world.connect true reply .storeHandle .finished
  | .storeHandle handle => world.become { c with connectionHandle := some handle } .finished
  | .getProxy => world.become c (if c.proxy = none then .connectExt else .finished)
  | .connectExt => world.connect false reply .storeHandleAndWait .awaitProxy
  | .storeHandleAndWait handle =>
    world.become { c with connectionHandle := some handle } .awaitProxy
  | .awaitProxy => world.become c .finished
  | .finished => world.become c .finished

end World

/-! ## Events -/

inductive UserCall where
  | getDataShareProxy
  | disconnect
  | setConnectInvalid
  deriving DecidableEq

/-- A user calls, the ability manager answers a connect, or a connection is lost. -/
inductive Outside where
  | user (call : UserCall)
  | connectDone (connection : ℕ) (accepted : Bool)
  | lost (connection : ℕ)
  deriving DecidableEq

def World.outside (world : World) : Outside → World × List Thread
  | .user .getDataShareProxy => (world, [.getProxy])
  | .user .disconnect => (world, [.checkProxy])
  | .user .setConnectInvalid => ({ world with connection.isInvalid := true }, [])
  | .connectDone n accepted =>
    if n ∈ world.connecting then
      if accepted then
        ({ world with
            connecting := world.connecting.erase n
            established := n :: world.established }, [.storeProxy n])
      else
        ({ world with connecting := world.connecting.erase n }, [])
    else (world, [])
  | .lost n => world.disconnect n

def connectionMachine : Machine World Thread Outside Bool Message :=
  ⟨World.outside, World.step⟩

abbrev ConnectionEvent := MachineEvent Outside Bool

abbrev ConnectionPool := Pool World Thread

/-- The connection and its threads after `events`, from a new one. -/
def connectionAfter (events : List ConnectionEvent) : ConnectionPool :=
  (connectionMachine.run ⟨⟨.new, 0, [], []⟩, []⟩ events).1

/-! ## What a user may expect of closing -/

/-- No callback and no reconnect is under way. -/
def Quiet (pool : ConnectionPool) : Prop :=
  pool.shared.connecting = [] ∧
    ∀ thread ∈ pool.threads, thread = .finished ∨ thread = .awaitProxy ∨ thread = .getProxy ∨
      thread = .connectExt

instance : DecidablePred Quiet := fun pool => by
  unfold Quiet
  infer_instance

/-- After the call nothing connects by itself, and once all is handled nothing is connected. -/
structure StaysClosed (pool : ConnectionPool) (call : UserCall) (after : List ConnectionEvent) :
    Prop where
  noReconnect : .connectExt true ∉
    (connectionMachine.run pool (.outside (.user call) :: after)).2
  down : Quiet (connectionMachine.run pool (.outside (.user call) :: after)).1 →
    (connectionMachine.run pool (.outside (.user call) :: after)).1.shared.established = []

/-- A thread from which no connect comes any more. -/
def Thread.isCalm (connection : DataShareConnection) : Thread → Bool
  | .finished | .awaitProxy | .checkProxy | .disconnectHandle => true
  | .clearProxy | .reconnect | .delayConnect => connection.reconnects.count ≥ maxReconnect
  | .storeProxy _ | .loadInvalid => connection.isInvalid
  | _ => false

/-- The connection is known by its handle and can be disconnected : it stands and the user
disconnects, or it is still to come and its callback will find the connection invalid. -/
def Target (pool : ConnectionPool) (call : UserCall) : Prop :=
  maxReconnect ≤ pool.shared.connection.reconnects.count ∧
    (∀ thread ∈ pool.threads, thread = .finished ∨ thread = .awaitProxy) ∧
    match pool.shared.connection.connectionHandle, call with
    | some n, .disconnect => pool.shared.connecting = [] ∧ pool.shared.established = [n] ∧
        pool.shared.connection.proxy ≠ none
    | some n, .setConnectInvalid => pool.shared.connecting = [n] ∧ pool.shared.established = []
    | _, _ => False

/-- The state in which a call of the user closes the connection for good : nothing is connected or
being connected and every thread is calm, or there is one connection to disconnect and the budget of
reconnects is used up. -/
def Closable (pool : ConnectionPool) (call : UserCall) : Prop :=
  (pool.shared.connecting = [] ∧ pool.shared.established = [] ∧ call ≠ .getDataShareProxy ∧
      ∀ thread ∈ pool.threads,
        thread.isCalm (pool.shared.outside (.user call)).1.connection = true) ∨
    Target pool call

instance (pool : ConnectionPool) (call : UserCall) : Decidable (Closable pool call) := by
  unfold Closable Target
  have : ∀ handle, Decidable (match handle, call with
    | some n, .disconnect => pool.shared.connecting = [] ∧ pool.shared.established = [n] ∧
        pool.shared.connection.proxy ≠ none
    | some n, .setConnectInvalid => pool.shared.connecting = [n] ∧ pool.shared.established = []
    | _, _ => False) := fun handle => by
      cases handle <;> cases call <;> dsimp only <;> infer_instance
  infer_instance

/-! ## After the call -/

/-- The thread is going to disconnect the connection of the stored handle. -/
def Thread.pursues (connection : DataShareConnection) : Thread → Bool
  | .storeProxy _ => connection.isInvalid
  | .loadInvalid => connection.isInvalid && connection.proxy.isSome
  | .checkProxy => connection.proxy.isSome
  | .disconnectHandle => true
  | _ => false

/-- Connection `n` is still to be disconnected. While it is not up nothing else is under way. -/
structure Pursued (pool : ConnectionPool) (n : ℕ) : Prop where
  budget : maxReconnect ≤ pool.shared.connection.reconnects.count
  handle : pool.shared.connection.connectionHandle = some n
  kept : .clearProxy ∉ pool.threads
  pursuer : (pool.shared.connecting = [n] ∧ pool.shared.established = [] ∧
      pool.shared.connection.isInvalid = true ∧
      ∀ thread ∈ pool.threads, thread = .finished ∨ thread = .awaitProxy) ∨
    (pool.shared.connecting = [] ∧ pool.shared.established = [n] ∧
      ∃ thread ∈ pool.threads, thread.pursues pool.shared.connection = true)

/-- The connection is down, or the one that is left is pursued, and no thread connects. -/
structure Closing (pool : ConnectionPool) : Prop where
  calm : ∀ thread ∈ pool.threads, thread.isCalm pool.shared.connection = true
  down : (pool.shared.connecting = [] ∧ pool.shared.established = []) ∨ ∃ n, Pursued pool n

section Step

variable {pool : ConnectionPool} {i n : ℕ} {old moved : Thread} {reply : Bool}

/-- The threads stay calm when one of them moves. -/
theorem forall_calm {connection : DataShareConnection} {started : List Thread}
    (h : ∀ thread ∈ pool.threads, thread.isCalm pool.shared.connection = true)
    (hstays : ∀ thread : Thread, thread.isCalm pool.shared.connection = true →
      thread.isCalm connection = true)
    (hmoved : ∀ thread ∈ moved :: started, thread.isCalm connection = true) :
    ∀ thread ∈ pool.threads.set i moved ++ started, thread.isCalm connection = true := by
  intro thread hthread
  exact (Machine.mem_or_of_mem_set_append hthread).elim
    (fun hold => hstays thread (h thread hold)) (hmoved thread)

/-- A step that only moves its thread, or stores a proxy, keeps what is closing. -/
theorem Closing.of_move {proxy : Option ℕ} (h : Closing pool) (hi : pool.threads[i]? = some old)
    (hproxy : pool.shared.connection.proxy.isSome = true → proxy.isSome = true)
    (hmoved : moved.isCalm pool.shared.connection = true) (hkept : moved ≠ .clearProxy)
    (hpursues : old.pursues pool.shared.connection = true →
      moved.pursues { pool.shared.connection with proxy := proxy } = true)
    (hidle : old = .finished ∨ old = .awaitProxy → moved = .finished) :
    Closing ⟨{ pool.shared with connection.proxy := proxy }, pool.threads.set i moved ++ []⟩ := by
  have holdmem := List.mem_of_getElem? hi
  have hcalm : ∀ thread : Thread,
      thread.isCalm { pool.shared.connection with proxy := proxy } =
        thread.isCalm pool.shared.connection := by
    intro thread
    cases thread <;> rfl
  refine ⟨forall_calm h.calm (fun thread hthread => (hcalm thread).trans hthread) ?_, ?_⟩
  · simpa [hcalm] using hmoved
  · refine h.down.imp id ?_
    rintro ⟨n, hn⟩
    refine ⟨n, hn.budget, hn.handle, ?_, ?_⟩
    · rw [List.append_nil]
      intro hmem
      rcases List.mem_or_eq_of_mem_set hmem with hmem | heq
      · exact hn.kept hmem
      · exact hkept heq.symm
    · rw [List.append_nil]
      refine hn.pursuer.imp ?_ ?_
      · rintro ⟨hconnecting, hestablished, hinvalid, hthreads⟩
        refine ⟨hconnecting, hestablished, hinvalid, fun thread hthread => ?_⟩
        rcases List.mem_or_eq_of_mem_set hthread with hmem | rfl
        · exact hthreads thread hmem
        · exact .inl (hidle (hthreads old holdmem))
      · rintro ⟨hconnecting, hestablished, thread, hthread, hthreadpursues⟩
        refine ⟨hconnecting, hestablished, ?_⟩
        rcases Protocol.mem_set_of_mem moved hi hthread with rfl | hstays
        · exact ⟨moved, List.mem_set (List.getElem?_eq_some_iff.mp hi).1 moved,
            hpursues hthreadpursues⟩
        · refine ⟨thread, hstays, ?_⟩
          cases thread with
          | loadInvalid =>
            simp only [Thread.pursues, Bool.and_eq_true] at hthreadpursues ⊢
            exact ⟨hthreadpursues.1, hproxy hthreadpursues.2⟩
          | checkProxy => exact hproxy hthreadpursues
          | _ => exact hthreadpursues

/-- The disconnect of the stored handle takes down what is left. -/
theorem Closing.disconnectHandle (h : Closing pool) (hi : pool.threads[i]? = some .disconnectHandle) :
    Closing ⟨(pool.shared.step .disconnectHandle reply).shared,
      pool.threads.set i (pool.shared.step .disconnectHandle reply).thread ++
        (pool.shared.step .disconnectHandle reply).started⟩ := by
  have hcalm : ∀ thread : Thread,
      thread.isCalm { pool.shared.connection with connectionHandle := none } =
        thread.isCalm pool.shared.connection := by
    intro thread
    cases thread <;> rfl
  rcases h.down with ⟨hconnecting, hestablished⟩ | ⟨n, hn⟩
  · have hnothing : pool.shared.connection.connectionHandle.elim (pool.shared, ([] : List Thread))
        pool.shared.disconnect = (pool.shared, []) := by
      cases pool.shared.connection.connectionHandle with
      | none => rfl
      | some handle => simp [World.disconnect, hestablished]
    simp only [World.step, hnothing]
    refine ⟨forall_calm h.calm (fun thread hthread => (hcalm thread).trans hthread) ?_, .inl ?_⟩
    · simp [Thread.isCalm]
    · exact ⟨hconnecting, hestablished⟩
  · rcases hn.pursuer with ⟨-, -, -, hthreads⟩ | ⟨hconnecting, hestablished, -⟩
    · simpa using hthreads _ (List.mem_of_getElem? hi)
    · simp only [World.step, hn.handle, Option.elim_some, World.disconnect, hestablished,
        List.mem_singleton, if_true, List.erase_cons_head]
      refine ⟨forall_calm h.calm (fun thread hthread => (hcalm thread).trans hthread) ?_, .inl ?_⟩
      · simp [Thread.isCalm, hn.budget]
      · exact ⟨hconnecting, rfl⟩

/-- The loss of what is left. -/
theorem Closing.lost (h : Closing pool) (n : ℕ) :
    Closing ⟨(pool.shared.disconnect n).1, pool.threads ++ (pool.shared.disconnect n).2⟩ := by
  unfold World.disconnect
  split
  case isFalse => simpa using h
  case isTrue hmem =>
    rcases h.down with ⟨-, hestablished⟩ | ⟨m, hm⟩
    · simp [hestablished] at hmem
    · rcases hm.pursuer with ⟨-, hestablished, -⟩ | ⟨hconnecting, hestablished, -⟩
      · simp [hestablished] at hmem
      · obtain rfl : n = m := by simpa [hestablished] using hmem
        refine ⟨?_, .inl ⟨hconnecting, by simp [hestablished]⟩⟩
        intro thread hthread
        rcases List.mem_append.mp hthread with hthread | hthread
        · exact h.calm thread hthread
        · obtain rfl := List.mem_singleton.mp hthread
          simpa [Thread.isCalm] using hm.budget

/-- The connection that was still to come is answered. -/
theorem Closing.connectDone (h : Closing pool) (n : ℕ) (accepted : Bool) :
    Closing ⟨(pool.shared.outside (.connectDone n accepted)).1,
      pool.threads ++ (pool.shared.outside (.connectDone n accepted)).2⟩ := by
  simp only [World.outside]
  split
  case isFalse => simpa using h
  case isTrue hmem =>
    rcases h.down with ⟨hconnecting, -⟩ | ⟨m, hm⟩
    · simp [hconnecting] at hmem
    · rcases hm.pursuer with ⟨hconnecting, hestablished, hinvalid, hthreads⟩ | ⟨hconnecting, -⟩
      · obtain rfl : n = m := by simpa [hconnecting] using hmem
        cases accepted with
        | false => exact ⟨by simpa using h.calm, .inl ⟨by simp [hconnecting], hestablished⟩⟩
        | true =>
          refine ⟨?_, .inr ⟨n, hm.budget, hm.handle, ?_, .inr ⟨by simp [hconnecting],
            by simp [hestablished], .storeProxy n, by simp, hinvalid⟩⟩⟩
          · intro thread hthread
            rcases List.mem_append.mp hthread with hthread | hthread
            · exact h.calm thread hthread
            · obtain rfl := List.mem_singleton.mp hthread
              exact hinvalid
          · simpa using hm.kept
      · simp [hconnecting] at hmem

/-- A calm thread makes its step. -/
theorem Closing.advance (h : Closing pool) (hi : pool.threads[i]? = some old) (reply : Bool) :
    Closing ⟨(pool.shared.step old reply).shared,
        pool.threads.set i (pool.shared.step old reply).thread ++
          (pool.shared.step old reply).started⟩ ∧
      (pool.shared.step old reply).sent = [] := by
  have hmem := List.mem_of_getElem? hi
  have hcalm := h.calm old hmem
  cases old with
  | finished | awaitProxy =>
    exact ⟨h.of_move hi id rfl (by simp [World.step, World.become]) (by simp [Thread.pursues])
      fun _ => rfl, rfl⟩
  | checkProxy =>
    refine ⟨?_, rfl⟩
    simp only [World.step, World.become]
    rcases hproxy : pool.shared.connection.proxy with _ | proxy
    · rw [if_pos rfl]
      exact h.of_move hi id rfl (by simp) (by simp [Thread.pursues, hproxy]) (by simp)
    · rw [if_neg (by simp)]
      exact h.of_move hi id rfl (by simp) (fun _ => rfl) (by simp)
  | disconnectHandle => exact ⟨h.disconnectHandle hi, rfl⟩
  | storeProxy remoteObject =>
    refine ⟨?_, rfl⟩
    simp only [World.step, World.become]
    refine h.of_move hi (fun _ => rfl) hcalm (by simp) (fun hinvalid => ?_) (by simp)
    simpa [Thread.pursues] using hinvalid
  | loadInvalid =>
    have hinvalid : pool.shared.connection.isInvalid = true := hcalm
    refine ⟨?_, rfl⟩
    simp only [World.step, World.become, hinvalid, if_true]
    exact h.of_move hi id rfl (by simp) (by simp [Thread.pursues]) (by simp)
  | clearProxy =>
    refine ⟨?_, rfl⟩
    rcases h.down with hdown | ⟨n, hn⟩
    · refine ⟨forall_calm h.calm (fun thread hthread => ?_) ?_, .inl hdown⟩
      · cases thread <;> exact hthread
      · simpa [World.step, World.become, Thread.isCalm] using hcalm
    · exact absurd hmem hn.kept
  | reconnect =>
    have hbudget : maxReconnect ≤ pool.shared.connection.reconnects.count := by
      simpa [Thread.isCalm] using hcalm
    have hne : pool.shared.connection.reconnects.count ≠ 0 := by
      unfold maxReconnect at hbudget
      omega
    refine ⟨?_, by simp [World.step, hne, World.become]⟩
    simp only [World.step, hne, if_false, World.become]
    exact h.of_move hi id hcalm (by simp) (by simp [Thread.pursues]) (by simp)
  | delayConnect =>
    have hbudget : pool.shared.connection.reconnects.count ≥ maxReconnect := by
      simpa [Thread.isCalm] using hcalm
    refine ⟨?_, by simp [World.step, hbudget, World.become]⟩
    simp only [World.step, hbudget, if_true, World.become]
    exact h.of_move hi id rfl (by simp) (by simp [Thread.pursues]) (by simp)
  | _ => simp [Thread.isCalm] at hcalm

/-- Whatever happens but a call of the user, the connection goes on closing, and no connect is
issued. -/
theorem Closing.step {event : ConnectionEvent} (h : Closing pool)
    (huser : ∀ call, event ≠ .outside (.user call)) :
    Closing (connectionMachine.step pool event).1 ∧ (connectionMachine.step pool event).2 = [] := by
  rcases event with e | ⟨i, reply⟩
  · refine ⟨?_, rfl⟩
    cases e with
    | user call => exact absurd rfl (huser call)
    | connectDone n accepted => exact h.connectDone n accepted
    | lost n => exact h.lost n
  · rcases hi : pool.threads[i]? with _ | thread
    · rw [Machine.step_advance_of_none hi]
      exact ⟨h, rfl⟩
    · rw [Machine.step_advance_of_some hi]
      exact h.advance hi reply

theorem Closing.run {events : List ConnectionEvent} (h : Closing pool)
    (huser : ∀ call, .outside (.user call) ∉ events) :
    Closing (connectionMachine.run pool events).1 ∧ (connectionMachine.run pool events).2 = [] := by
  induction events using List.reverseRecOn with
  | nil => exact ⟨h, rfl⟩
  | append_singleton events event ih =>
    obtain ⟨hclosing, hsent⟩ := ih fun call hmem => huser call (List.mem_append_left _ hmem)
    have hlast : ∀ call, event ≠ .outside (.user call) :=
      fun call heq => huser call (heq ▸ List.mem_append_right _ (List.mem_singleton_self _))
    obtain ⟨hclosing', hsent'⟩ := hclosing.step hlast
    unfold Machine.run at hclosing' hsent hsent' ⊢
    rw [runCalls_concat, DataShare.advance]
    exact ⟨hclosing', by rw [hsent, hsent']; rfl⟩

/-- In a closable state the call of the user begins to close the connection. -/
theorem Closable.closing {call : UserCall} (h : Closable pool call) :
    Closing (connectionMachine.step pool (.outside (.user call))).1 := by
  rcases h with ⟨hconnecting, hestablished, hcall, hcalm⟩ | ⟨hbudget, hthreads, htarget⟩
  · cases call with
    | getDataShareProxy => exact absurd rfl hcall
    | disconnect =>
      refine ⟨fun thread hthread => ?_, .inl ⟨hconnecting, hestablished⟩⟩
      rcases List.mem_append.mp hthread with hthread | hthread
      · exact hcalm thread hthread
      · obtain rfl := List.mem_singleton.mp hthread
        rfl
    | setConnectInvalid =>
      refine ⟨fun thread hthread => ?_, .inl ⟨hconnecting, hestablished⟩⟩
      exact hcalm thread (by simpa [Machine.step, connectionMachine, World.outside] using hthread)
  · have hidle : ∀ (connection : DataShareConnection) (thread : Thread), thread ∈ pool.threads →
        thread.isCalm connection = true := by
      intro connection thread hthread
      rcases hthreads thread hthread with rfl | rfl <;> rfl
    have hkept : .clearProxy ∉ pool.threads := fun hmem => by simpa using hthreads _ hmem
    rcases hhandle : pool.shared.connection.connectionHandle with _ | n
    · simp [hhandle] at htarget
    · cases call with
      | getDataShareProxy => simp [hhandle] at htarget
      | disconnect =>
        rw [hhandle] at htarget
        obtain ⟨hconnecting, hestablished, hproxy⟩ := htarget
        refine ⟨fun thread hthread => ?_, .inr ⟨n, hbudget, hhandle, ?_, .inr ⟨hconnecting,
          hestablished, .checkProxy, List.mem_append_right _ (List.mem_singleton_self _), ?_⟩⟩⟩
        · rcases List.mem_append.mp hthread with hthread | hthread
          · exact hidle _ thread hthread
          · obtain rfl := List.mem_singleton.mp hthread
            rfl
        · simpa [Machine.step, connectionMachine, World.outside] using hkept
        · exact Option.isSome_iff_ne_none.mpr hproxy
      | setConnectInvalid =>
        rw [hhandle] at htarget
        obtain ⟨hconnecting, hestablished⟩ := htarget
        have hsame : ∀ thread ∈ pool.threads ++ [], thread = .finished ∨ thread = .awaitProxy := by
          simpa using hthreads
        exact ⟨fun thread hthread => hidle _ thread (by simpa [Machine.step, connectionMachine,
            World.outside] using hthread),
          .inr ⟨n, hbudget, hhandle, fun hmem => by simpa using hsame _ hmem,
            .inl ⟨hconnecting, hestablished, rfl, hsame⟩⟩⟩

/-- Once nothing is pending, what was closing is down. -/
theorem Closing.established_eq_nil (h : Closing pool) (hquiet : Quiet pool) :
    pool.shared.established = [] := by
  rcases h.down with ⟨-, hestablished⟩ | ⟨n, hn⟩
  · exact hestablished
  · rcases hn.pursuer with ⟨hconnecting, -⟩ | ⟨-, -, thread, hthread, hpursues⟩
    · simp [hquiet.1] at hconnecting
    · rcases hquiet.2 thread hthread with rfl | rfl | rfl | rfl <;> simp [Thread.pursues] at hpursues

end Step

/-! ## Runs -/

/-- A call of `disconnect` or `set_connect_invalid` in a closable state closes the connection until
the user asks for the proxy again. -/
theorem stays_closed (before after : List ConnectionEvent) (call : UserCall)
    (hclosable : Closable (connectionAfter before) call)
    (hafter : ∀ call, .outside (.user call) ∉ after) :
    StaysClosed (connectionAfter before) call after := by
  obtain ⟨hclosing, hsent⟩ := hclosable.closing.run hafter
  have hrun : connectionMachine.run (connectionAfter before) (.outside (.user call) :: after) =
      ((connectionMachine.run (connectionMachine.step (connectionAfter before)
          (.outside (.user call))).1 after).1, []) := by
    unfold Machine.run at hsent ⊢
    rw [runCalls_cons, hsent]
    rfl
  refine ⟨?_, ?_⟩
  · rw [hrun]
    simp
  · rw [hrun]
    exact fun hquiet => hclosing.established_eq_nil hquiet

def steps (i n : ℕ) : List ConnectionEvent :=
  List.replicate n (.advance i true)

/-- A user connects. -/
def firstConnect : List ConnectionEvent :=
  ([.outside (.user .getDataShareProxy)] : List ConnectionEvent) ++ steps 0 3 ++
    ([.outside (.connectDone 0 true)] : List ConnectionEvent) ++ steps 1 3 ++ steps 0 1

/-- The disconnect of the user, its callback, and the connect this callback makes. -/
def reconnectedAfterDisconnect : List ConnectionEvent :=
  steps 2 2 ++ steps 3 4 ++ ([.outside (.connectDone 1 true)] : List ConnectionEvent) ++
    steps 4 5

/-- The user disconnects, and the connection is up again. -/
theorem disconnect_reconnects :
    Quiet (connectionMachine.run (connectionAfter firstConnect)
        (.outside (.user .disconnect) :: reconnectedAfterDisconnect)).1 ∧
      ¬ StaysClosed (connectionAfter firstConnect) .disconnect reconnectedAfterDisconnect := by
  have hquiet : Quiet (connectionMachine.run (connectionAfter firstConnect)
      (.outside (.user .disconnect) :: reconnectedAfterDisconnect)).1 := by
    decide +kernel
  refine ⟨hquiet, fun h => ?_⟩
  have := h.down hquiet
  revert this
  decide +kernel

/-- Seven users connect at once. Six of the connections are lost, the last one comes up before the
losses go on to reconnect, and all reconnects are refused. -/
def budgetUsedUp : List ConnectionEvent :=
  List.replicate 7 (.outside (.user .getDataShareProxy) : ConnectionEvent) ++
    (List.range 7).flatMap (fun k => steps k 4) ++
    (List.range 6).flatMap
      (fun k => (.outside (.connectDone k true) : ConnectionEvent) :: steps (7 + k) 3) ++
    (List.range 6).flatMap (fun k => (.outside (.lost k) : ConnectionEvent) :: steps (13 + k) 1) ++
    ((.outside (.connectDone 6 true) : ConnectionEvent) :: steps 19 3) ++
    (steps 13 1 ++ ([.advance 13 false] : List ConnectionEvent)) ++
    (List.range 5).flatMap (fun k => steps (14 + k) 2) ++
    (List.range 5).map (fun k => (.advance (20 + k) false : ConnectionEvent))

/-- A connection that the user disconnects when the budget is used up. -/
theorem stays_closed_without_budget :
    StaysClosed (connectionAfter budgetUsedUp) .disconnect (steps 25 2 ++ steps 26 3) :=
  stays_closed budgetUsedUp _ _ (by decide +kernel) (by simp [steps])

end Rust

end DataShare
