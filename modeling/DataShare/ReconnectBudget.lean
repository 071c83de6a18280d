import DataShare.Bursts
import DataShare.CppConnection

/-!
# The budget of automatic reconnects

`DelayConnectExtAbility` tests the budget of `reConnects_` when it schedules a task, and the task
charges it when it has connected. While a task is pending the budget does not show it, so a second loss
of the connection schedules a second task on the same unit of budget (`budget_overdrawn`).

If each loss of a connection with a URI is handled when no reconnect is pending
(`NoReconnectPending`), at most one thread reconnects at a time (`Thread.reconnects`), and what it
does is told by `Settled` and `Thread.Charges` : of any reconnects less than
`MAX_RECONNECT_TIME_INTERVAL` apart there are at most `MAX_RECONNECT`, and no two are less than
`RECONNECT_TIME_INTERVAL` apart (`reconnects_within_budget`).
-/

namespace DataShare

namespace Cpp

open DataShareConnection

/-- The times of the automatic reconnects. -/
def reconnectTimes (log : List Message) : List ℤ :=
  log.filterMap fun message =>
    match message with
    | .reconnected time => some time
    | _ => none

theorem reconnectTimes_append (log sent : List Message) :
    reconnectTimes (log ++ sent) = reconnectTimes log ++ reconnectTimes sent :=
  List.filterMap_append

/-- A thread that is on its way to reconnect, or has yet to charge the budget for it. -/
def Thread.reconnects : Thread → Bool
  | .reconnect _ | .connectNow _ | .chargeFirst | .delayConnect _ | .task _ _ | .charge => true
  | _ => false

/-- A loss of the connection is handled when no reconnect is pending. -/
def NoReconnectPending (pool : ConnectionPool) : ConnectionEvent → Prop
  | .outside _ => True
  | .advance i _ => pool.threads[i]? = some .clearProxy → pool.shared.connection.uri ≠ [] →
      ∀ thread ∈ pool.threads, thread.reconnects = false

instance : DecidableRel NoReconnectPending := fun _ event => by
  rcases event with _ | _ <;> unfold NoReconnectPending <;> infer_instance

/-! ## The budget and the reconnects so far -/

/-- The bounds hold of the reconnects so far, and the last one is over. -/
structure Bounded (clock : ℤ) (times : List ℤ) : Prop where
  bursts : BurstsAtMost maxReconnectTimeInterval 6 times
  spaced : Spaced reconnectTimeInterval times
  past : ∀ t ∈ times.getLast?, t ≤ clock

/-- The budget accounts for the reconnects so far. -/
structure Settled (info : DataShareConnectionInfo) (clock : ℤ) (times : List ℤ) : Prop
    extends Bounded clock times where
  charged : 0 ≤ info.count ∧ info.count ≤ maxReconnect
  burst : info.count ≠ 0 →
    LastBurstAtMost maxReconnectTimeInterval info.count.toNat times
  fresh : info.count = 0 → ∀ t ∈ times.getLast?, maxReconnectTimeInterval ≤ info.prevTime - t
  noted : ∀ t ∈ times.getLast?, t ≤ info.prevTime ∧ info.prevTime ≤ clock
  unused : times = [] → info.count = 0

/-- A reconnect has been made that the budget does not show yet. -/
structure Overdue (count : ℤ) (clock : ℤ) (times : List ℤ) : Prop extends Bounded clock times where
  charged : 0 ≤ count ∧ count < maxReconnect
  burst : LastBurstAtMost maxReconnectTimeInterval (count + 1).toNat times
  used : times ≠ []

/-- What the one reconnecting thread makes of the budget. -/
def Thread.Charges (info : DataShareConnectionInfo) (clock : ℤ) (times : List ℤ) : Thread → Prop
  | .connectNow _ => Settled info clock times ∧ info.count = 0
  | .chargeFirst => Overdue 0 clock times
  | .delayConnect _ => Settled info clock times ∧ info.count ≠ 0
  | .task due _ => Settled info clock times ∧ info.count < maxReconnect ∧
      (times ≠ [] → info.prevTime + reconnectTimeInterval ≤ due)
  | .charge => Overdue info.count clock times
  | _ => Settled info clock times

variable {info : DataShareConnectionInfo} {clock : ℤ} {times : List ℤ}

theorem settled_initial : Settled {} clock [] where
  bursts := burstsAtMost_nil
  spaced := spaced_nil
  past := by simp
  charged := by decide
  burst := fun h => absurd rfl h
  fresh := by simp
  noted := by simp
  unused := fun _ => rfl

theorem Bounded.later {now : ℤ} (h : Bounded clock times) (hle : clock ≤ now) :
    Bounded now times :=
  { h with past := fun t ht => (h.past t ht).trans hle }

theorem Settled.later {now : ℤ} (h : Settled info clock times) (hle : clock ≤ now) :
    Settled info now times :=
  { h with
    toBounded := h.toBounded.later hle
    noted := fun t ht => ⟨(h.noted t ht).1, (h.noted t ht).2.trans hle⟩ }

theorem Thread.Charges.later {now : ℤ} {thread : Thread} (h : thread.Charges info clock times)
    (hle : clock ≤ now) : thread.Charges info now times := by
  cases thread with
  | connectNow | delayConnect | task => exact ⟨h.1.later hle, h.2⟩
  | chargeFirst | charge => exact { h with toBounded := h.toBounded.later hle }
  | _ => exact Settled.later h hle

/-- The reconnect that finds the budget unused. -/
theorem Settled.reconnectFirst (h : Settled info clock times) (hcount : info.count = 0) :
    Overdue 0 clock (times ++ [clock]) := by
  have hgap : ∀ t ∈ times.getLast?, maxReconnectTimeInterval ≤ clock - t := by
    intro t ht
    have := h.fresh hcount t ht
    have := (h.noted t ht).2
    omega
  have hlast : LastBurstAtMost maxReconnectTimeInterval 1 (times ++ [clock]) :=
    lastBurstAtMost_one hgap
  exact {
    bursts := h.bursts.concat (hlast.mono (by decide))
    spaced := h.spaced.concat fun t ht => le_trans (by decide) (hgap t ht)
    past := by simp
    charged := by decide
    burst := hlast
    used := by simp }

/-- The reconnect of a task. -/
theorem Settled.reconnectLate {due : ℤ} (h : Settled info clock times)
    (hcount : info.count < maxReconnect)
    (hdue : times ≠ [] → info.prevTime + reconnectTimeInterval ≤ due) (hclock : due ≤ clock) :
    Overdue info.count clock (times ++ [clock]) := by
  have hlast : LastBurstAtMost maxReconnectTimeInterval (info.count + 1).toNat (times ++ [clock]) := by
    by_cases hzero : info.count = 0
    · rw [hzero]
      exact (h.reconnectFirst hzero).burst
    · have := h.charged
      rw [Int.toNat_add this.1 (by decide)]
      exact (h.burst hzero).concat
  have hgap : ∀ t ∈ times.getLast?, reconnectTimeInterval ≤ clock - t := by
    intro t ht
    have := hdue (List.ne_nil_of_mem (List.mem_of_getLast? ht))
    have := (h.noted t ht).1
    omega
  have hsix : (info.count + 1).toNat ≤ 6 := by
    have : info.count < 6 := hcount
    omega
  exact {
    bursts := h.bursts.concat (hlast.mono hsix)
    spaced := h.spaced.concat hgap
    past := by simp
    charged := ⟨h.charged.1, hcount⟩
    burst := hlast
    used := by simp }

/-- The charge for a reconnect settles the budget. -/
theorem Overdue.settled {count firstTime : ℤ} (h : Overdue count clock times) :
    Settled ⟨count + 1, firstTime, clock⟩ clock times where
  toBounded := h.toBounded
  charged := by
    have := h.charged
    exact ⟨by simp only; omega, by simp only; omega⟩
  burst := fun _ => h.burst
  fresh := fun hzero => by
    have := h.charged
    simp only at hzero
    omega
  noted := fun t ht => ⟨h.past t ht, le_rfl⟩
  unused := fun hnil => absurd hnil h.used

/-- The budget is new after the window. -/
theorem Settled.renewed (h : Settled info clock times) :
    Settled (DataShareConnection.renewed clock info) clock times := by
  unfold DataShareConnection.renewed
  split
  case isFalse => exact h
  case isTrue hlong =>
    exact { h with
      charged := ⟨le_rfl, show (0 : ℤ) ≤ 6 by decide⟩
      burst := fun hzero => absurd rfl hzero
      fresh := fun _ t ht => by
        have := (h.noted t ht).1
        simp only
        omega
      noted := fun t ht => ⟨h.past t ht, le_rfl⟩
      unused := fun _ => rfl }

/-- A task is due no earlier than the interval after the last reconnect. -/
theorem Settled.le_due (h : Settled info clock times) :
    times ≠ [] → info.prevTime + reconnectTimeInterval ≤ clock + delayOf clock info := by
  intro hne
  have := (h.noted _ (List.getLast?_eq_some_getLast hne)).2
  unfold delayOf
  split <;> omega

/-! ## Steps -/

/-- The bounds and the budget, as seen by the one thread that reconnects or by nobody. -/
def Budgeted (pool : ConnectionPool) (log : List Message) : Prop :=
  OneWorker Thread.reconnects
    (Settled pool.shared.connection.reConnects pool.shared.clock (reconnectTimes log))
    (Thread.Charges pool.shared.connection.reConnects pool.shared.clock (reconnectTimes log))
    pool.threads

variable {world : World} {thread : Thread} {reply : Bool}

variable (world reply) in
/-- Only reconnecting threads touch the budget. -/
theorem next_of_not_reconnects (h : thread.reconnects = false) :
    (world.next thread reply).shared.connection.reConnects = world.connection.reConnects ∧
      (world.next thread reply).shared.clock = world.clock ∧
      reconnectTimes (world.next thread reply).sent = [] := by
  cases thread with
  | reconnect | connectNow | chargeFirst | delayConnect | task | charge => simp [Thread.reconnects] at h
  | storeProxy n remote => cases remote <;> exact ⟨rfl, rfl, rfl⟩
  | loadProxy entries => simp only [World.next]; split <;> exact ⟨rfl, rfl, rfl⟩
  | reRegister proxy entries =>
    cases entries
    · exact ⟨rfl, rfl, rfl⟩
    · simp only [World.next]; split <;> exact ⟨rfl, rfl, rfl⟩
  | findProxy uri use => simp only [World.next]; split <;> exact ⟨rfl, rfl, rfl⟩
  | connect uri use => simp only [World.next]; split <;> exact ⟨rfl, rfl, rfl⟩
  | call proxy use =>
    cases use
    · exact ⟨rfl, rfl, rfl⟩
    all_goals simp only [World.next]; split <;> exact ⟨rfl, rfl, rfl⟩
  | record use => cases use <;> exact ⟨rfl, rfl, rfl⟩
  | clearUri => simp only [World.next]; split <;> exact ⟨rfl, rfl, rfl⟩
  | _ => exact ⟨rfl, rfl, rfl⟩

theorem reconnects_got (proxy : Option ℕ) (use : Use) : (World.got proxy use).reconnects = false := by
  cases use <;> cases proxy <;> rfl

/-- The reconnecting thread keeps its account of the budget. -/
theorem charges_next {times : List ℤ} (hworks : thread.reconnects = true)
    (h : thread.Charges world.connection.reConnects world.clock times) :
    OneWorker Thread.reconnects
      (Settled (world.next thread reply).shared.connection.reConnects
        (world.next thread reply).shared.clock
        (times ++ reconnectTimes (world.next thread reply).sent))
      (Thread.Charges (world.next thread reply).shared.connection.reConnects
        (world.next thread reply).shared.clock
        (times ++ reconnectTimes (world.next thread reply).sent))
      ((world.next thread reply).thread :: (world.next thread reply).started) := by
  cases thread with
  | reconnect uri =>
    by_cases hzero : world.connection.reConnects.count = 0
    · simp only [World.next, hzero, if_true, World.pass, reconnectTimes, List.filterMap_nil,
        List.append_nil]
      exact .single rfl ⟨h, hzero⟩
    · simp only [World.next, hzero, if_false, World.pass, reconnectTimes, List.filterMap_nil,
        List.append_nil]
      exact .single rfl ⟨h, hzero⟩
  | connectNow uri =>
    cases reply with
    | true => exact .single rfl (h.1.reconnectFirst h.2)
    | false =>
      simp only [World.next, Bool.false_eq_true, if_false, World.pass, reconnectTimes,
        List.filterMap_nil, List.append_nil]
      exact .nobody (by simp [Thread.reconnects]) h.1
  | chargeFirst =>
    simp only [World.next, World.become, reconnectTimes, List.filterMap_nil, List.append_nil]
    exact .nobody (by simp [Thread.reconnects]) (Overdue.settled h)
  | delayConnect uri =>
    have hrenewed := h.1.renewed
    simp only [World.next, World.become, reconnectTimes, List.filterMap_nil, List.append_nil]
    split
    case isTrue hroom => exact .cons rfl (.single rfl ⟨hrenewed, hroom.1, hrenewed.le_due⟩)
    case isFalse => exact .nobody (by simp [Thread.reconnects]) hrenewed
  | task due uri =>
    by_cases hdue : world.clock < due
    · simp only [World.next, hdue, if_true, World.pass, reconnectTimes, List.filterMap_nil,
        List.append_nil]
      exact .single rfl h
    · cases reply with
      | true =>
        simp only [World.next, hdue, if_false, if_true, World.connected]
        exact .single rfl (h.1.reconnectLate h.2.1 h.2.2 (not_lt.mp hdue))
      | false =>
        simp only [World.next, hdue, if_false, Bool.false_eq_true, World.pass, reconnectTimes,
          List.filterMap_nil, List.append_nil]
        exact .nobody (by simp [Thread.reconnects]) h.1
  | charge =>
    simp only [World.next, World.become, reconnectTimes, List.filterMap_nil, List.append_nil]
    exact .nobody (by simp [Thread.reconnects]) (Overdue.settled h)
  | _ => simp [Thread.reconnects] at hworks

/-- Only the loss of a connection with a URI begins a reconnect. -/
theorem moved_not_reconnects (h : thread.reconnects = false)
    (hloss : thread = .clearProxy → world.connection.uri = []) :
    ∀ t ∈ (world.next thread reply).thread :: (world.next thread reply).started,
      t.reconnects = false := by
  cases thread with
  | reconnect | connectNow | chargeFirst | delayConnect | task | charge => simp [Thread.reconnects] at h
  | storeProxy n remote => cases remote <;> simp [World.next, World.become, World.pass, Thread.reconnects]
  | loadInvalid n => simp only [World.next]; split <;> simp [World.pass, Thread.reconnects]
  | exchangeReconnect => simp only [World.next]; split <;> simp [World.become, Thread.reconnects]
  | loadProxy entries => simp only [World.next]; split <;> simp [World.pass, Thread.reconnects]
  | reRegister proxy entries =>
    cases entries
    · simp [World.next, World.pass, Thread.reconnects]
    · simp only [World.next]; split <;> simp [World.pass, Thread.reconnects]
  | findProxy uri use =>
    simp only [World.next]
    split
    · simp [World.pass, reconnects_got]
    · simp [World.pass, Thread.reconnects]
  | connect uri use =>
    simp only [World.next]
    split <;> simp [World.pass, World.connected, Thread.reconnects]
  | awaitProxy use => simp [World.next, World.pass, reconnects_got]
  | call proxy use =>
    cases use
    · simp [World.next, World.pass, Thread.reconnects]
    all_goals simp only [World.next]; split <;> simp [World.pass, Thread.reconnects]
  | record use => cases use <;> simp [World.next, World.pass, World.become, Thread.reconnects]
  | clearProxy => simp [World.next, World.become, Thread.reconnects, hloss rfl]
  | clearUri => simp only [World.next]; split <;> simp [World.become, Thread.reconnects]
  | _ => simp [World.next, World.become, World.pass, World.disconnected, Thread.reconnects]

/-- What happens outside starts no reconnect, and at most time passes. -/
theorem outside_reconnects (world : World) (event : Outside) :
    (∀ t ∈ (world.outside event).2, t.reconnects = false) ∧
      (world.outside event).1.connection.reConnects = world.connection.reConnects ∧
      world.clock ≤ (world.outside event).1.clock := by
  cases event with
  | tick ms => exact ⟨by simp [World.outside], rfl, by simp [World.outside]⟩
  | user call =>
    cases call <;> exact ⟨by simp [World.outside, UserCall.thread, Thread.reconnects], rfl, le_rfl⟩
  | connectDone n accepted =>
    simp only [World.outside]
    split
    · cases accepted <;> exact ⟨by simp [Thread.reconnects], rfl, le_rfl⟩
    · exact ⟨by simp, rfl, le_rfl⟩
  | lost n =>
    simp only [World.outside]
    split
    · exact ⟨by simp [Thread.reconnects], rfl, le_rfl⟩
    · exact ⟨by simp, rfl, le_rfl⟩
  | exited => exact ⟨by simp [World.outside, Thread.reconnects], rfl, le_rfl⟩

theorem Budgeted.step {pool : ConnectionPool} {log : List Message} {event : ConnectionEvent}
    (h : Budgeted pool log) (hallowed : NoReconnectPending pool event) :
    Budgeted (connectionMachine.step pool event).1 (log ++ (connectionMachine.step pool event).2) := by
  refine Machine.step_invariant (P := Budgeted) h ?_ ?_
  · rintro e rfl
    obtain ⟨hstarted, hinfo, hclock⟩ := outside_reconnects pool.shared e
    refine (OneWorker.mono h ?_ ?_).append hstarted
    · exact fun hsettled => hinfo ▸ hsettled.later hclock
    · exact fun thread _ hcharges => hinfo ▸ hcharges.later hclock
  · rintro i reply thread rfl hi
    simp only [Budgeted, connectionMachine, reconnectTimes_append]
    refine OneWorker.advance h hi charges_next ?_ ?_
    · intro hworks hidle hnone
      by_cases hloss : thread = .clearProxy → pool.shared.connection.uri = []
      · obtain ⟨hinfo, hclock, hsent⟩ := next_of_not_reconnects pool.shared reply hworks
        rw [hinfo, hclock, hsent, List.append_nil]
        exact .nobody (moved_not_reconnects hworks hloss) hidle
      · obtain ⟨rfl, huri⟩ := Classical.not_imp.mp hloss
        have hmoved : (pool.shared.next .clearProxy reply).thread =
            .reconnect pool.shared.connection.uri := by
          simp [World.next, World.become, huri]
        rw [hmoved]
        simp only [World.next, World.become, reconnectTimes, List.filterMap_nil, List.append_nil]
        exact .single rfl hidle
    · intro hworks worker hmem hworker hbusy
      have hloss : thread = .clearProxy → pool.shared.connection.uri = [] := by
        rintro rfl
        by_contra huri
        exact absurd (hallowed hi huri worker hmem) (by simp [hworker])
      obtain ⟨hinfo, hclock, hsent⟩ := next_of_not_reconnects pool.shared reply hworks
      rw [hinfo, hclock, hsent, List.append_nil]
      exact ⟨hbusy, moved_not_reconnects hworks hloss⟩

theorem budgeted_initial (uri : StdString) (clock : ℤ) :
    Budgeted ⟨World.initial uri clock, []⟩ [] :=
  .nobody (by simp) settled_initial

theorem Budgeted.bounded {pool : ConnectionPool} {log : List Message} (h : Budgeted pool log) :
    Bounded pool.shared.clock (reconnectTimes log) := by
  rcases h with ⟨-, hsettled⟩ | ⟨worker, -, -, -, -, hcharges⟩
  · exact hsettled.toBounded
  · cases worker with
    | connectNow | delayConnect | task => exact hcharges.1.toBounded
    | chargeFirst | charge => exact Overdue.toBounded hcharges
    | _ => exact Settled.toBounded hcharges

/-! ## Runs -/

/-- What the limits promise of the automatic reconnects. -/
def WithinBudget (times : List ℤ) : Prop :=
  BurstsAtMost maxReconnectTimeInterval 6 times ∧ Spaced reconnectTimeInterval times

/-- In a run in which no loss of the connection is handled while a reconnect is pending, at most
`MAX_RECONNECT` automatic reconnects come less than `MAX_RECONNECT_TIME_INTERVAL` after one another, and
each comes at least `RECONNECT_TIME_INTERVAL` after the one before. -/
theorem reconnects_within_budget (uri : StdString) (clock : ℤ) (events : List ConnectionEvent)
    (h : AllowedRun connectionMachine.step NoReconnectPending ⟨World.initial uri clock, []⟩ events) :
    WithinBudget (reconnectTimes (runConnection uri clock events).2) := by
  have hrun := h.invariant (P := Budgeted) (budgeted_initial uri clock)
    fun _ _ _ hallowed h => h.step hallowed
  exact ⟨hrun.bounded.bursts, hrun.bounded.spaced⟩

/-- The first connection is lost, and the reconnect is made at once. -/
def firstLoss : List ConnectionEvent :=
  ([.outside (.lost 0)] : List ConnectionEvent) ++ steps 2 4 ++
    ([.outside (.connectDone 1 true)] : List ConnectionEvent) ++ steps 3 7

/-- A loss whose callback is the `i`-th thread, and whose task reconnects as soon as it is due. -/
def laterLoss (connection i : ℕ) : List ConnectionEvent :=
  ([.outside (.lost connection)] : List ConnectionEvent) ++ steps i 3 ++
    ([.outside (.tick 10000)] : List ConnectionEvent) ++ steps (i + 1) 2 ++
    ([.outside (.connectDone (connection + 1) true)] : List ConnectionEvent) ++ steps (i + 2) 7

/-- Five reconnects, then a loss whose task is pending while the user connects and the connection is
lost once more. -/
def overdrawn : List ConnectionEvent :=
  firstConnect ++ firstLoss ++ laterLoss 1 4 ++ laterLoss 2 7 ++ laterLoss 3 10 ++ laterLoss 4 13 ++
    ([.outside (.lost 5)] : List ConnectionEvent) ++ steps 16 3 ++
    ([.outside (.user (.getDataShareProxy [47] .request))] : List ConnectionEvent) ++ steps 18 2 ++
    ([.outside (.connectDone 6 true)] : List ConnectionEvent) ++ steps 19 7 ++ steps 18 1 ++
    ([.outside (.lost 6)] : List ConnectionEvent) ++ steps 20 3 ++
    ([.outside (.tick 10000)] : List ConnectionEvent) ++ steps 17 2 ++ steps 21 2

theorem reconnectTimes_overdrawn : reconnectTimes (runConnection [47] 1000 overdrawn).2 =
    [1000, 11000, 21000, 31000, 41000, 51000, 51000] := by
  decide +kernel

/-- Seven reconnects in a burst, the last two at once. -/
theorem budget_overdrawn :
    ¬ BurstsAtMost maxReconnectTimeInterval 6
        (reconnectTimes (runConnection [47] 1000 overdrawn).2) ∧
      ¬ Spaced reconnectTimeInterval (reconnectTimes (runConnection [47] 1000 overdrawn).2).tail := by
  rw [reconnectTimes_overdrawn]
  constructor
  · intro h
    have := h _ List.infix_rfl (by unfold IsBurst maxReconnectTimeInterval; decide)
    simp at this
  · unfold Spaced reconnectTimeInterval
    decide

/-- Three losses one after the other : the reconnects stay within the budget. -/
theorem reconnects_within_budget_thrice :
    WithinBudget (reconnectTimes
      (runConnection [47] 1000 (firstConnect ++ firstLoss ++ laterLoss 1 4 ++ laterLoss 2 7)).2) :=
  reconnects_within_budget [47] 1000 _ (throughout_iff_getElem.mpr (by decide +kernel))

end Cpp

end DataShare
