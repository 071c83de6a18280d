import DataShare.CppConnection

/-!
# The release of a connection

The deleter of a connection marks it invalid and disconnects it. `DisconnectDataShareExtAbility`
asks the ability manager to disconnect only if a proxy is stored, for a connection whose
`OnAbilityConnectDone` is still to come is disconnected by that callback itself. But a late
`OnAbilityDisconnectDone` takes away the proxy of a newer connection, and then nobody disconnects it
(`late_notice_keeps_connection`).

`NoLateNotice` excludes that : the loss of a connection is handled while every connection that
stands is still expected by its own callback (`Thread.expects`). Then a connection that no callback
expects has its proxy stored (`Guarded`), and after the release no connection stands without a
callback that disconnects it, and no callback reconnects (`stays_down_after_release`).
-/

namespace DataShare

namespace Cpp

/-- The callback of connection `n`, before it stores the proxy, or on its way to disconnect. -/
def Thread.expects (n : ℕ) (isInvalid : Bool) : Thread → Bool
  | .storeProxy m (some _) => m = n
  | .loadInvalid m => isInvalid && m = n
  | .disconnect m => m = n
  | _ => false

/-- A callback has yet to store the proxy of connection `n`, or is going to disconnect it. -/
def Expected (pool : ConnectionPool) (n : ℕ) : Prop :=
  ∃ thread ∈ pool.threads, thread.expects n pool.shared.connection.isInvalid = true

/-- The loss of a connection is handled before the proxy of a newer one is stored. -/
def NoLateNotice (pool : ConnectionPool) : ConnectionEvent → Prop
  | .outside _ => True
  | .advance i _ => pool.threads[i]? = some .clearProxy →
      ∀ n ∈ pool.shared.ams.established, Expected pool n

instance : DecidableRel NoLateNotice := fun _ event => by
  rcases event with _ | _ <;> unfold NoLateNotice Expected <;> infer_instance

/-- A step of a callback or of a delayed task is still to come. -/
def Thread.isPending : Thread → Bool
  | .findProxy _ _ | .connect _ _ | .awaitProxy _ | .call _ _ | .record _ => false
  | .setInvalid | .clearUri | .disconnectReleased | .finished => false
  | _ => true

/-- No callback and no task is pending. -/
def Quiet (pool : ConnectionPool) : Prop :=
  pool.shared.ams.connecting = [] ∧ ∀ thread ∈ pool.threads, thread.isPending = false

instance : DecidablePred Quiet := fun pool => by
  unfold Quiet
  infer_instance

/-- The connection is down for good : what stands is disconnected by its own callback, and the callback
of a disconnect does not reconnect. -/
structure StaysDown (pool : ConnectionPool) : Prop where
  down : Quiet pool → pool.shared.ams.established = []
  closing : ∀ n ∈ pool.shared.ams.established, pool.shared.connection.isInvalid = true ∧
    Expected pool n
  noReconnect : ∀ reply, (pool.shared.next .clearProxy reply).thread = .finished

/-- What carries the release : a connection that no callback expects has its proxy stored, until the
release has returned. -/
structure Guarded (pool : ConnectionPool) (log : List Message) : Prop where
  stored : ∀ n ∈ pool.shared.ams.established,
    Expected pool n ∨ pool.shared.connection.dataShareProxy ≠ none
  invalid : .clearUri ∈ pool.threads ∨ .disconnectReleased ∈ pool.threads ∨ .released ∈ log →
    pool.shared.connection.isInvalid = true
  cleared : .disconnectReleased ∈ pool.threads ∨ .released ∈ log →
    pool.shared.connection.uri = []
  released : .released ∈ log → ∀ n ∈ pool.shared.ams.established, Expected pool n

/-! ## Steps -/

/-- The threads that have no part in the release. -/
def Thread.isPlain : Thread → Bool
  | .storeProxy _ (some _) | .loadInvalid _ | .disconnect _ | .clearProxy => false
  | .setInvalid | .clearUri | .disconnectReleased => false
  | _ => true

/-- The threads that release the connection. -/
def Thread.isRelease : Thread → Bool
  | .clearUri | .disconnectReleased => true
  | _ => false

theorem not_isRelease_got (proxy : Option ℕ) (use : Use) :
    (World.got proxy use).isRelease = false := by
  cases use <;> cases proxy <;> rfl

/-- What a step leaves of the parts the release looks at. -/
structure LeavesRelease (world : World) (move : ConnectionMove) : Prop where
  dataShareProxy : move.shared.connection.dataShareProxy = world.connection.dataShareProxy
  uri : move.shared.connection.uri = world.connection.uri
  isInvalid : move.shared.connection.isInvalid = world.connection.isInvalid
  established : move.shared.ams.established = world.ams.established
  notReleased : Message.released ∉ move.sent
  notRelease : ∀ thread ∈ move.thread :: move.started, thread.isRelease = false

theorem leavesRelease_pass {world : World} {thread : Thread} (h : thread.isRelease = false) :
    LeavesRelease world (world.pass thread) :=
  ⟨rfl, rfl, rfl, rfl, by simp [World.pass], by simp [World.pass, h]⟩

theorem leavesRelease_of_isPlain (world : World) {thread : Thread} (reply : Bool)
    (h : thread.isPlain = true) : LeavesRelease world (world.next thread reply) := by
  cases thread with
  | storeProxy n remote =>
    cases remote
    · exact leavesRelease_pass rfl
    · simp [Thread.isPlain] at h
  | loadInvalid | disconnect | clearProxy | setInvalid | clearUri | disconnectReleased =>
    simp [Thread.isPlain] at h
  | exchangeReconnect =>
    refine ⟨rfl, rfl, rfl, rfl, by simp [World.next, World.become], ?_⟩
    simp only [World.next]
    split <;> simp [World.become, Thread.isRelease]
  | loadProxy entries =>
    simp only [World.next]
    split <;> exact leavesRelease_pass rfl
  | reRegister proxy entries =>
    cases entries
    · exact leavesRelease_pass rfl
    · simp only [World.next]
      split
      · exact ⟨rfl, rfl, rfl, rfl, by simp, by simp [Thread.isRelease]⟩
      · exact leavesRelease_pass rfl
  | reconnect uri =>
    simp only [World.next]
    split <;> exact leavesRelease_pass rfl
  | connectNow uri =>
    simp only [World.next]
    split
    · exact ⟨rfl, rfl, rfl, rfl, by simp [World.connected], by simp [World.connected, Thread.isRelease]⟩
    · exact leavesRelease_pass rfl
  | delayConnect uri =>
    refine ⟨rfl, rfl, rfl, rfl, by simp [World.next, World.become], ?_⟩
    simp only [World.next]
    split <;> simp [World.become, Thread.isRelease]
  | task due uri =>
    simp only [World.next]
    split
    · exact leavesRelease_pass rfl
    · split
      · exact ⟨rfl, rfl, rfl, rfl, by simp [World.connected],
          by simp [World.connected, Thread.isRelease]⟩
      · exact leavesRelease_pass rfl
  | findProxy uri use =>
    simp only [World.next]
    split
    · exact leavesRelease_pass (not_isRelease_got _ _)
    · exact leavesRelease_pass rfl
  | connect uri use =>
    simp only [World.next]
    split
    · exact ⟨rfl, rfl, rfl, rfl, by simp [World.connected], by simp [World.connected, Thread.isRelease]⟩
    · exact leavesRelease_pass rfl
  | awaitProxy use => exact leavesRelease_pass (not_isRelease_got _ _)
  | call proxy use =>
    cases use with
    | request => exact leavesRelease_pass rfl
    | registerObserverExtProvider | unregisterObserverExtProvider =>
      simp only [World.next]
      split
      · exact ⟨rfl, rfl, rfl, rfl, by simp, by simp [Thread.isRelease]⟩
      · exact leavesRelease_pass rfl
  | record use =>
    cases use with
    | request => exact leavesRelease_pass rfl
    | registerObserverExtProvider | unregisterObserverExtProvider =>
      exact ⟨rfl, rfl, rfl, rfl, by simp [World.next, World.become],
        by simp [World.next, World.become, Thread.isRelease]⟩
  | finished => exact leavesRelease_pass rfl
  | _ =>
    exact ⟨rfl, rfl, rfl, rfl, by simp [World.next, World.become],
      by simp [World.next, World.become, Thread.isRelease]⟩

theorem expects_of_isPlain {thread : Thread} (h : thread.isPlain = true) (n : ℕ) (isInvalid : Bool) :
    thread.expects n isInvalid = false := by
  cases thread with
  | storeProxy m remote =>
    cases remote
    · rfl
    · simp [Thread.isPlain] at h
  | loadInvalid | disconnect => simp [Thread.isPlain] at h
  | _ => rfl

section Advance

variable {pool : ConnectionPool} {log : List Message} {i n : ℕ} {old moved : Thread}
  {started : List Thread} {shared : World}

theorem Thread.expects_mono {thread : Thread} {isInvalid isInvalid' : Bool}
    (h : thread.expects n isInvalid = true) (hinvalid : isInvalid = true → isInvalid' = true) :
    thread.expects n isInvalid' = true := by
  cases thread with
  | loadInvalid m =>
    simp only [Thread.expects, Bool.and_eq_true] at h ⊢
    exact ⟨hinvalid h.1, h.2⟩
  | storeProxy m remote => cases remote <;> exact h
  | _ => exact h

/-- The callback goes on expecting its connection when other threads move. -/
theorem Expected.advance (h : Expected pool n) (hi : pool.threads[i]? = some old)
    (hinvalid : pool.shared.connection.isInvalid = true → shared.connection.isInvalid = true)
    (hmoved : old.expects n pool.shared.connection.isInvalid = true →
      moved.expects n shared.connection.isInvalid = true) :
    Expected ⟨shared, pool.threads.set i moved ++ started⟩ n := by
  obtain ⟨thread, hthread, hexpects⟩ := h
  rcases Protocol.mem_set_of_mem moved hi hthread with rfl | hstays
  · have hlt := (List.getElem?_eq_some_iff.mp hi).1
    exact ⟨moved, List.mem_append_left _ (List.mem_set hlt moved), hmoved hexpects⟩
  · exact ⟨thread, List.mem_append_left _ hstays, Thread.expects_mono hexpects hinvalid⟩

/-- What a step of a thread has to keep. -/
theorem Guarded.of_advance {sent : List Message} (h : Guarded pool log)
    (hinvalid : pool.shared.connection.isInvalid = true → shared.connection.isInvalid = true)
    (huri : pool.shared.connection.uri = [] → shared.connection.uri = [])
    (hrelease : ∀ thread ∈ moved :: started, thread.isRelease = true →
      shared.connection.isInvalid = true ∧
        (thread = .disconnectReleased → shared.connection.uri = []))
    (hsent : .released ∈ sent →
      shared.connection.isInvalid = true ∧ shared.connection.uri = [])
    (hstored : ∀ n ∈ shared.ams.established,
      Expected ⟨shared, pool.threads.set i moved ++ started⟩ n ∨
        shared.connection.dataShareProxy ≠ none)
    (hreleased : .released ∈ log ++ sent → ∀ n ∈ shared.ams.established,
      Expected ⟨shared, pool.threads.set i moved ++ started⟩ n) :
    Guarded ⟨shared, pool.threads.set i moved ++ started⟩ (log ++ sent) := by
  have hthreads : ∀ thread ∈ pool.threads.set i moved ++ started,
      thread ∈ pool.threads ∨ thread ∈ moved :: started :=
    fun _ hthread => Machine.mem_or_of_mem_set_append hthread
  refine ⟨hstored, ?_, ?_, hreleased⟩
  · rintro (hclear | hdisconnect | hlog)
    · exact (hthreads _ hclear).elim (fun hold => hinvalid (h.invalid (.inl hold)))
        fun hnew => (hrelease _ hnew rfl).1
    · exact (hthreads _ hdisconnect).elim (fun hold => hinvalid (h.invalid (.inr (.inl hold))))
        fun hnew => (hrelease _ hnew rfl).1
    · exact (List.mem_append.mp hlog).elim (fun hold => hinvalid (h.invalid (.inr (.inr hold))))
        fun hnew => (hsent hnew).1
  · rintro (hdisconnect | hlog)
    · exact (hthreads _ hdisconnect).elim (fun hold => huri (h.cleared (.inl hold)))
        fun hnew => (hrelease _ hnew rfl).2 rfl
    · exact (List.mem_append.mp hlog).elim (fun hold => huri (h.cleared (.inr hold)))
        fun hnew => (hsent hnew).2

/-- A step of a thread that is not part of the release. -/
theorem Guarded.advance_plain (h : Guarded pool log) (hi : pool.threads[i]? = some old)
    (reply : Bool) (hplain : old.isPlain = true) :
    Guarded ⟨(pool.shared.next old reply).shared,
      pool.threads.set i (pool.shared.next old reply).thread ++ (pool.shared.next old reply).started⟩
      (log ++ (pool.shared.next old reply).sent) := by
  have hleaves := leavesRelease_of_isPlain pool.shared reply hplain
  have hkeeps : ∀ n, Expected pool n → Expected ⟨(pool.shared.next old reply).shared,
      pool.threads.set i (pool.shared.next old reply).thread ++
        (pool.shared.next old reply).started⟩ n := by
    intro n hn
    refine hn.advance hi (fun h => hleaves.isInvalid.trans h) fun hold => ?_
    rw [expects_of_isPlain hplain] at hold
    exact absurd hold Bool.false_ne_true
  refine h.of_advance (fun h => hleaves.isInvalid.trans h) (fun h => hleaves.uri.trans h) ?_ ?_ ?_ ?_
  · intro thread hthread hrelease
    simp [hleaves.notRelease thread hthread] at hrelease
  · exact fun hsent => absurd hsent hleaves.notReleased
  · intro n hn
    rw [hleaves.established] at hn
    rw [hleaves.dataShareProxy]
    exact (h.stored n hn).imp_left (hkeeps n)
  · intro hlog n hn
    rw [hleaves.established] at hn
    have hold : Message.released ∈ log :=
      (List.mem_append.mp hlog).resolve_right hleaves.notReleased
    exact hkeeps n (h.released hold n hn)

/-- A step of a callback, of the loss of a connection or of the release. -/
theorem Guarded.advance (h : Guarded pool log) (hi : pool.threads[i]? = some old) (reply : Bool)
    (hallowed : old = .clearProxy → ∀ n ∈ pool.shared.ams.established, Expected pool n) :
    Guarded ⟨(pool.shared.next old reply).shared,
      pool.threads.set i (pool.shared.next old reply).thread ++ (pool.shared.next old reply).started⟩
      (log ++ (pool.shared.next old reply).sent) := by
  have hold : old ∈ pool.threads := List.mem_of_getElem? hi
  cases old with
  | storeProxy m remote =>
    cases remote with
    | none => exact h.advance_plain hi reply rfl
    | some proxy =>
      simp only [World.next, World.become]
      refine h.of_advance id id (by simp [Thread.isRelease]) (by simp) (fun _ _ => .inr (by simp)) ?_
      intro hlog n hn
      have hlog' : Message.released ∈ log := by simpa using hlog
      refine (h.released hlog' n hn).advance hi id fun hm => ?_
      simp only [Thread.expects, Bool.and_eq_true]
      exact ⟨h.invalid (.inr (.inr hlog')), hm⟩
  | loadInvalid m =>
    rcases hinvalid : pool.shared.connection.isInvalid with _ | _
    · -- the callback passes the check : it was not expected any more
      have hkeeps : ∀ n, Expected pool n → Expected ⟨pool.shared,
          pool.threads.set i .exchangeReconnect ++ []⟩ n :=
        fun n hn => hn.advance hi id (by simp [Thread.expects, hinvalid])
      simp only [World.next, World.pass, hinvalid, Bool.false_eq_true, if_false]
      refine h.of_advance id id (by simp [Thread.isRelease]) (by simp)
        (fun n hn => (h.stored n hn).imp_left (hkeeps n)) ?_
      intro hlog n hn
      exact hkeeps n (h.released (by simpa using hlog) n hn)
    · have hkeeps : ∀ n, Expected pool n → Expected ⟨pool.shared,
          pool.threads.set i (.disconnect m) ++ []⟩ n :=
        fun n hn => hn.advance hi id (by simp [Thread.expects, hinvalid])
      simp only [World.next, World.pass, hinvalid, if_true]
      refine h.of_advance id id (by simp [Thread.isRelease]) (by simp)
        (fun n hn => (h.stored n hn).imp_left (hkeeps n)) ?_
      intro hlog n hn
      exact hkeeps n (h.released (by simpa using hlog) n hn)
  | disconnect m =>
    exact h.of_advance id id (by simp [World.next, World.disconnected, Thread.isRelease])
      (by simp [World.next, World.disconnected]) (by simp [World.next, World.disconnected])
      (by simp [World.next, World.disconnected])
  | clearProxy =>
    have hkeeps : ∀ n, Expected pool n → Expected ⟨(pool.shared.next .clearProxy reply).shared,
        pool.threads.set i (pool.shared.next .clearProxy reply).thread ++ []⟩ n :=
      fun n hn => hn.advance hi id (by simp [Thread.expects])
    refine h.of_advance id id ?_ (by simp [World.next, World.become])
      (fun n hn => .inl (hkeeps n (hallowed rfl n hn))) fun _ n hn => hkeeps n (hallowed rfl n hn)
    simp only [World.next, World.become]
    split <;> simp [Thread.isRelease]
  | setInvalid =>
    have hkeeps : ∀ n, Expected pool n → Expected ⟨(pool.shared.next .setInvalid reply).shared,
        pool.threads.set i .clearUri ++ []⟩ n :=
      fun n hn => hn.advance hi (fun _ => rfl) (by simp [Thread.expects])
    refine h.of_advance (fun _ => rfl) id (by simp [World.next, World.become])
      (by simp [World.next, World.become]) (fun n hn => (h.stored n hn).imp_left (hkeeps n)) ?_
    intro hlog n hn
    exact hkeeps n (h.released (by simpa [World.next, World.become] using hlog) n hn)
  | clearUri =>
    have hinvalid := h.invalid (.inl hold)
    rcases hproxy : pool.shared.connection.dataShareProxy with _ | proxy
    · -- without a proxy every connection that stands is expected
      have hall : ∀ n ∈ pool.shared.ams.established, Expected
          ⟨{ pool.shared with connection.uri := [] }, pool.threads.set i .finished ++ []⟩ n := by
        intro n hn
        have hn := (h.stored n hn).resolve_right (fun hne => hne hproxy)
        exact hn.advance hi id (by simp [Thread.expects])
      simp only [World.next, World.become, hproxy, if_true]
      exact h.of_advance id (fun _ => rfl) (by simp [Thread.isRelease])
        (fun _ => ⟨hinvalid, rfl⟩) (fun n hn => .inl (hall n hn)) fun _ => hall
    · have hkeeps : ∀ n, Expected pool n → Expected ⟨{ pool.shared with connection.uri := [] },
          pool.threads.set i .disconnectReleased ++ []⟩ n :=
        fun n hn => hn.advance hi id (by simp [Thread.expects])
      simp only [World.next, World.become, hproxy, reduceCtorEq, if_false]
      refine h.of_advance id (fun _ => rfl) (by simp [hinvalid]) (by simp)
        (fun n hn => .inr (by simp)) ?_
      intro hlog n hn
      exact hkeeps n (h.released (by simpa using hlog) n hn)
  | disconnectReleased =>
    exact h.of_advance id id (by simp [World.next, World.disconnected, Thread.isRelease])
      (fun _ => ⟨h.invalid (.inr (.inl hold)), h.cleared (.inl hold)⟩)
      (by simp [World.next, World.disconnected]) (by simp [World.next, World.disconnected])
  | _ => exact h.advance_plain hi reply rfl

end Advance

/-- A connection that is expected stays so when threads join. -/
theorem Expected.append {pool : ConnectionPool} {n : ℕ} {shared : World} {started : List Thread}
    (h : Expected pool n)
    (hinvalid : shared.connection.isInvalid = pool.shared.connection.isInvalid) :
    Expected ⟨shared, pool.threads ++ started⟩ n := by
  obtain ⟨thread, hthread, hexpects⟩ := h
  exact ⟨thread, List.mem_append_left _ hthread, hinvalid ▸ hexpects⟩

/-- What an event of the outside has to keep. -/
theorem Guarded.of_outside {pool : ConnectionPool} {log : List Message} {shared : World}
    {started : List Thread} (h : Guarded pool log)
    (hconnection : shared.connection = pool.shared.connection)
    (hrelease : ∀ thread ∈ started, thread.isRelease = false)
    (hestablished : ∀ n ∈ shared.ams.established, n ∈ pool.shared.ams.established ∨
      .storeProxy n (some pool.shared.provider.process) ∈ started) :
    Guarded ⟨shared, pool.threads ++ started⟩ log := by
  have hkeeps : ∀ n, Expected pool n → Expected ⟨shared, pool.threads ++ started⟩ n :=
    fun n hn => hn.append (congrArg _ hconnection)
  have hnew : ∀ n, .storeProxy n (some pool.shared.provider.process) ∈ started →
      Expected ⟨shared, pool.threads ++ started⟩ n :=
    fun n hn => ⟨_, List.mem_append_right _ hn, by simp [Thread.expects]⟩
  have hthreads : ∀ thread, thread.isRelease = true → thread ∈ pool.threads ++ started →
      thread ∈ pool.threads := by
    intro thread hthread hmem
    refine (List.mem_append.mp hmem).resolve_right fun hstarted => ?_
    simp [hrelease thread hstarted] at hthread
  refine ⟨fun n hn => ?_, fun hclosing => ?_, fun hcleared => ?_, fun hlog n hn => ?_⟩
  · rcases hestablished n hn with hn | hn
    · exact (h.stored n hn).imp (hkeeps n) fun hproxy => hconnection ▸ hproxy
    · exact .inl (hnew n hn)
  · rw [hconnection]
    exact h.invalid (hclosing.imp (hthreads _ rfl) (.imp_left (hthreads _ rfl)))
  · rw [hconnection]
    exact h.cleared (hcleared.imp_left (hthreads _ rfl))
  · rcases hestablished n hn with hn | hn
    · exact hkeeps n (h.released hlog n hn)
    · exact hnew n hn

theorem Guarded.outside {pool : ConnectionPool} {log : List Message} (h : Guarded pool log)
    (event : Outside) :
    Guarded ⟨(pool.shared.outside event).1, pool.threads ++ (pool.shared.outside event).2⟩ log := by
  cases event with
  | tick ms => exact h.of_outside rfl (by simp [World.outside]) fun n hn => .inl hn
  | user call =>
    refine h.of_outside rfl ?_ fun n hn => .inl hn
    cases call <;> simp [World.outside, UserCall.thread, Thread.isRelease]
  | connectDone n accepted =>
    simp only [World.outside]
    split
    case isFalse => exact h.of_outside rfl (by simp) fun n hn => .inl hn
    case isTrue =>
      cases accepted with
      | false => exact h.of_outside rfl (by simp [Thread.isRelease]) fun n hn => .inl hn
      | true =>
        refine h.of_outside rfl (by simp [Thread.isRelease]) fun m hm => ?_
        rcases List.mem_cons.mp hm with rfl | hm
        · exact .inr (by simp)
        · exact .inl hm
  | lost n =>
    simp only [World.outside]
    split
    case isFalse => exact h.of_outside rfl (by simp) fun n hn => .inl hn
    case isTrue =>
      exact h.of_outside rfl (by simp [Thread.isRelease]) fun m hm => .inl (List.mem_of_mem_erase hm)
  | exited =>
    refine h.of_outside rfl ?_ (by simp [World.outside])
    simp [World.outside, Thread.isRelease]

theorem Guarded.step {pool : ConnectionPool} {log : List Message} {event : ConnectionEvent}
    (h : Guarded pool log) (hallowed : NoLateNotice pool event) :
    Guarded (connectionMachine.step pool event).1 (log ++ (connectionMachine.step pool event).2) := by
  refine Machine.step_invariant (P := Guarded) h ?_ ?_
  · rintro e rfl
    exact h.outside e
  · rintro i reply thread rfl hi
    refine h.advance hi reply ?_
    rintro rfl
    exact hallowed hi

theorem guarded_initial (uri : StdString) (clock : ℤ) : Guarded ⟨World.initial uri clock, []⟩ [] where
  stored := by simp [World.initial]
  invalid := by simp
  cleared := by simp
  released := by simp

/-- Once the release has returned the connection is down. -/
theorem Guarded.staysDown {pool : ConnectionPool} {log : List Message} (h : Guarded pool log)
    (hreleased : .released ∈ log) : StaysDown pool where
  down := by
    rintro ⟨-, hquiet⟩
    refine List.eq_nil_iff_forall_not_mem.mpr fun n hn => ?_
    obtain ⟨thread, hthread, hexpects⟩ := h.released hreleased n hn
    have hpending := hquiet thread hthread
    cases thread <;> simp [Thread.expects, Thread.isPending] at hexpects hpending
  closing := fun n hn => ⟨h.invalid (.inr (.inr hreleased)), h.released hreleased n hn⟩
  noReconnect := fun reply => by
    simp [World.next, World.become, h.cleared (.inr hreleased)]

/-! ## Runs -/

/-- In a run in which the loss of a connection is handled before the proxy of a newer one is stored, a
connection is down once its release has returned, whatever callbacks, tasks and user calls follow. -/
theorem stays_down_after_release (uri : StdString) (clock : ℤ) (events : List ConnectionEvent)
    (h : AllowedRun connectionMachine.step NoLateNotice ⟨World.initial uri clock, []⟩ events)
    (hreleased : .released ∈ (runConnection uri clock events).2) :
    StaysDown (runConnection uri clock events).1 := by
  have hrun := h.invariant (P := Guarded) (guarded_initial uri clock)
    fun _ _ _ hallowed h => h.step hallowed
  exact hrun.staysDown hreleased

/-- Two users connect at once. The first connection is lost, but this is handled only after the second
one is up, and the reconnect then fails. -/
def lateNotice : List ConnectionEvent :=
  ([.outside (.user (.getDataShareProxy [47] .request)),
      .outside (.user (.getDataShareProxy [47] .request))] : List ConnectionEvent) ++
    steps 0 1 ++ steps 1 1 ++ steps 0 1 ++ steps 1 1 ++
    ([.outside (.connectDone 0 true)] : List ConnectionEvent) ++ steps 2 3 ++ steps 0 1 ++
    ([.outside (.lost 0)] : List ConnectionEvent) ++
    ([.outside (.connectDone 1 true)] : List ConnectionEvent) ++ steps 4 7 ++ steps 1 1 ++
    steps 3 2 ++ ([.advance 3 false] : List ConnectionEvent) ++
    ([.outside (.user .release)] : List ConnectionEvent) ++ steps 5 2

/-- The release has returned and nothing is pending, but the second connection stands. -/
theorem late_notice_keeps_connection :
    .released ∈ (runConnection [47] 0 lateNotice).2 ∧ Quiet (runConnection [47] 0 lateNotice).1 ∧
      (runConnection [47] 0 lateNotice).1.shared.ams.established = [1] := by
  decide +kernel

/-- A connection is lost and released while the reconnect is under way. -/
def releasedWhileReconnecting : List ConnectionEvent :=
  firstConnect ++ ([.outside (.lost 0)] : List ConnectionEvent) ++ steps 2 4 ++
    ([.outside (.user .release)] : List ConnectionEvent) ++ steps 3 2 ++
    ([.outside (.connectDone 1 true)] : List ConnectionEvent) ++ steps 4 3 ++ steps 5 1

theorem stays_down_after_release_reconnecting :
    StaysDown (runConnection [47] 0 releasedWhileReconnecting).1 :=
  stays_down_after_release [47] 0 _ (throughout_iff_getElem.mpr (by decide +kernel))
    (by decide +kernel)

end Cpp

end DataShare
