import DataShare.Bursts
import DataShare.RustConnection

/-!
# The reconnects of the Rust connection

`reconnect_ext_ability` and `delay_connect_ext_ability` count the automatic connects of the Rust
connection, up to `MAX_RECONNECT`. A successful callback sets the count to 0 at once, and nothing
else does : `MAX_RECONNECT_TIME_INTERVAL_MS` has no part in it. So a provider that crashes after
each connection is connected to again without bound (`reconnects_without_bound`), and once the count
is used up without a success no time brings it back.

The machine is that of the connection (`RustConnection`) with a clock, under which a delayed thread
sleeps. A thread that is going to connect knows when its loss asked the count. `Rare` is about the
losses, the successful callbacks and the clock : a loss that finds fewer than `MAX_RECONNECT` since
the last success also finds fewer in the last interval, and one that finds as many comes less than
the interval after the last of these. Then no window shorter than the interval has more than
`MAX_RECONNECT` automatic connects, and none is refused once the interval has passed
(`rust_reconnects_within_budget`).
-/

namespace DataShare

namespace Rust

namespace Budget

/-! ## The machine -/

/-- `RECONNECT_TIME_INTERVAL_MS`. -/
def reconnectTimeIntervalMs : ℤ := 10000

/-- `MAX_RECONNECT_TIME_INTERVAL_MS`. -/
def maxReconnectTimeIntervalMs : ℤ := 70000

/-- The connection and the clock, in milliseconds. -/
structure TimedWorld where
  base : World
  now : ℤ

/-- A thread of the connection and the time of its last step, or a delayed one before and in its
sleep, and when its loss asked the count. -/
inductive TimedThread
  | connection (thread : Thread) (since : ℤ)
  | sleep (asked : ℤ)
  | sleeping (asked due : ℤ)
  deriving DecidableEq

/-- A connect with its time, of a user or for the loss that asked at a time, a loss that asks the
count, which answers it with a connect or not, or a success that sets the count back. -/
inductive TimedMessage
  | connectExt (time : ℤ)
  | reconnectExt (asked time : ℤ)
  | lost (answered : Bool) (time : ℤ)
  | succeeded
  deriving DecidableEq

abbrev TimedMove := MachineMove TimedWorld TimedThread TimedMessage

def TimedThread.of (now : ℤ) : Thread → TimedThread
  | .delayed => .sleep now
  | thread => .connection thread now

def TimedMessage.of (asked now : ℤ) : Message → TimedMessage
  | .connectExt true => .reconnectExt asked now
  | .connectExt false => .connectExt now

/-- What a step does with the count. -/
def notes (world : World) (now : ℤ) : Thread → List TimedMessage
  | .reconnect => if world.connection.reconnects.count = 0 then [.lost true now] else []
  | .delayConnect => [.lost (world.connection.reconnects.count < maxReconnect) now]
  | .resetReconnects => [.succeeded]
  | _ => []

namespace TimedWorld

/-- A step of the connection itself. -/
def delegate (world : TimedWorld) (thread : Thread) (since : ℤ) (reply : Bool) : TimedMove :=
  let move := world.base.step thread reply
  ⟨{ world with base := move.shared }, .connection move.thread world.now,
    move.started.map (.of world.now),
    move.sent.map (.of since world.now) ++ notes world.base world.now thread⟩

def next (world : TimedWorld) : TimedThread → Bool → TimedMove
  | .connection thread since, reply => world.delegate thread since reply
  | .sleep asked, _ => ⟨world, .sleeping asked (world.now + reconnectTimeIntervalMs), [], []⟩
  | .sleeping asked due, reply =>
    if world.now < due then ⟨world, .sleeping asked due, [], []⟩
    else world.delegate .delayed asked reply

end TimedWorld

/-- An event of the connection, or time passes. -/
inductive TimedOutside
  | connection (event : Outside)
  | tick (ms : ℕ)
  deriving DecidableEq

def TimedWorld.outside (world : TimedWorld) : TimedOutside → TimedWorld × List TimedThread
  | .connection event =>
    ({ world with base := (world.base.outside event).1 },
      (world.base.outside event).2.map (.of world.now))
  | .tick ms => ({ world with now := world.now + ms }, [])

def timedMachine : Machine TimedWorld TimedThread TimedOutside Bool TimedMessage where
  outside := TimedWorld.outside
  next := TimedWorld.next

abbrev TimedPool := Pool TimedWorld TimedThread

abbrev TimedEvent := MachineEvent TimedOutside Bool

/-- The connection and the messages after `events`, from a new one. -/
def run (events : List TimedEvent) : TimedPool × List TimedMessage :=
  timedMachine.run ⟨⟨⟨.new, 0, [], []⟩, 0⟩, []⟩ events

/-! ## The budget -/

/-- An automatic connect : when its loss asked, and when it was issued. -/
def TimedMessage.reconnect? : TimedMessage → Option (ℤ × ℤ)
  | .reconnectExt asked time => some (asked, time)
  | _ => none

/-- The automatic connects. -/
def reconnects (log : List TimedMessage) : List (ℤ × ℤ) :=
  log.filterMap TimedMessage.reconnect?

/-- The times of the automatic connects. -/
def connectTimes (log : List TimedMessage) : List ℤ :=
  (reconnects log).map Prod.snd

/-- A loss that is not answered comes less than the interval after an automatic connect. -/
def Recovers (before : List TimedMessage) : TimedMessage → Prop
  | .lost false time => ∃ last ∈ connectTimes before, time - last < maxReconnectTimeIntervalMs
  | _ => True

/-- The automatic connects are bounded, and become possible again. -/
structure WithinBudget (log : List TimedMessage) : Prop where
  bounded : WindowsAtMost maxReconnectTimeIntervalMs maxReconnect.toNat (connectTimes log)
  recovers : Throughout Recovers log

/-! ## Losses and successes -/

def TimedMessage.lossTime : TimedMessage → Option ℤ
  | .lost _ time => some time
  | _ => none

/-- The times at which losses asked the count. -/
def lossTimes (log : List TimedMessage) : List ℤ :=
  log.filterMap TimedMessage.lossTime

/-- The losses since the last success, after one message more. -/
def losesSince (before : List ℤ) : TimedMessage → List ℤ
  | .lost _ time => before ++ [time]
  | .succeeded => []
  | _ => before

/-- The times of the losses since the last success. -/
def lossesSince (log : List TimedMessage) : List ℤ :=
  log.foldl losesSince []

/-- When the loss asked for which the thread is going to connect. -/
def TimedThread.asked : TimedThread → Option ℤ
  | .connection .connectNow since | .connection .delayed since => some since
  | .sleep asked | .sleeping asked _ => some asked
  | .connection _ _ => none

/-- The step asks the count : `reconnect_ext_ability` finds 0, or `delay_connect_ext_ability` is
reached. -/
def TimedThread.asks (world : World) : TimedThread → Bool
  | .connection .reconnect _ => world.connection.reconnects.count = 0
  | .connection .delayConnect _ => true
  | _ => false

/-- With fewer than `MAX_RECONNECT` losses since the last success there are fewer in the last
interval, and otherwise it is less than the interval since the last that could be answered, and all
were. -/
def LossRare (delay : ℕ) (pool : TimedPool) (log : List TimedMessage) : Prop :=
  match (lossesSince log)[maxReconnect.toNat - 1]? with
  | none => recentCount (maxReconnectTimeIntervalMs + delay) pool.shared.now (lossTimes log) <
      maxReconnect.toNat
  | some last => pool.shared.now - last < maxReconnectTimeIntervalMs ∧
      ∀ thread ∈ pool.threads, thread.asked = none

/-- Losses are rare, and a thread that is going to connect does so within `delay`. -/
def Rare (delay : ℕ) (pool : TimedPool) (log : List TimedMessage) : TimedEvent → Prop
  | .outside (.tick ms) =>
    ∀ thread ∈ pool.threads, ∀ asked ∈ thread.asked, pool.shared.now + ms ≤ asked + delay
  | .outside _ => True
  | .advance i _ => ∀ thread ∈ pool.threads[i]?, thread.asks pool.shared.base = true →
      LossRare delay pool log

instance (delay : ℕ) (pool : TimedPool) (log : List TimedMessage) :
    Decidable (LossRare delay pool log) := by
  unfold LossRare
  split <;> infer_instance

instance (delay : ℕ) (pool : TimedPool) (log : List TimedMessage) :
    DecidablePred (Rare delay pool log) := fun event => by
  unfold Rare
  split <;> infer_instance

/-! ## What carries the bounds -/

def TimedMessage.answeredTime : TimedMessage → Option ℤ
  | .lost true time => some time
  | _ => none

/-- The times of the losses that were answered. -/
def answeredTimes (log : List TimedMessage) : List ℤ :=
  log.filterMap TimedMessage.answeredTime

/-- The losses that the threads are going to connect for. -/
def askedTimes (pool : TimedPool) : List ℤ :=
  pool.threads.filterMap TimedThread.asked

/-- The count is that of the losses since the last success, each answered loss has its connect or
its thread, which is in time, and the answered losses of the last interval are at most
`MAX_RECONNECT`. -/
structure Kept (delay : ℕ) (pool : TimedPool) (log : List TimedMessage) : Prop
    extends WithinBudget log where
  count : pool.shared.base.connection.reconnects.count =
    min ((lossesSince log).length : ℤ) maxReconnect
  since : ∀ time ∈ (lossesSince log).take maxReconnect.toNat, time ∈ answeredTimes log
  paired : (answeredTimes log).Perm ((reconnects log).map Prod.fst ++ askedTimes pool)
  prompt : ∀ pair ∈ reconnects log, pair.1 ≤ pair.2 ∧ pair.2 ≤ pair.1 + delay
  timely : ∀ asked ∈ askedTimes pool, asked ≤ pool.shared.now ∧ pool.shared.now ≤ asked + delay
  room : recentCount (maxReconnectTimeIntervalMs + delay) pool.shared.now (answeredTimes log) ≤
    maxReconnect.toNat

section Logs

variable {delay : ℕ} {pool : TimedPool} {log : List TimedMessage} {now : ℤ}

theorem reconnects_concat (log : List TimedMessage) (message : TimedMessage) :
    reconnects (log ++ [message]) = reconnects log ++ message.reconnect?.toList := by
  unfold reconnects
  rw [List.filterMap_append, List.filterMap_cons]
  cases message.reconnect? <;> rfl

theorem connectTimes_concat (log : List TimedMessage) (message : TimedMessage) :
    connectTimes (log ++ [message]) =
      connectTimes log ++ (message.reconnect?.map Prod.snd).toList := by
  unfold connectTimes
  rw [reconnects_concat, List.map_append]
  cases message.reconnect? <;> rfl

theorem answeredTimes_concat (log : List TimedMessage) (message : TimedMessage) :
    answeredTimes (log ++ [message]) = answeredTimes log ++ message.answeredTime.toList := by
  unfold answeredTimes
  rw [List.filterMap_append, List.filterMap_cons]
  cases message.answeredTime <;> rfl

theorem lossesSince_concat (log : List TimedMessage) (message : TimedMessage) :
    lossesSince (log ++ [message]) = losesSince (lossesSince log) message :=
  List.foldl_concat ..

/-- Answered losses are losses. -/
theorem recentCount_answeredTimes_le (gap : ℤ) :
    recentCount gap now (answeredTimes log) ≤ recentCount gap now (lossTimes log) := by
  refine List.Sublist.countP_le ?_
  induction log with
  | nil => exact .slnil
  | cons message log ih =>
    cases message with
    | lost answered time =>
      cases answered
      · exact ih.cons time
      · exact ih.cons_cons time
    | _ => exact ih

theorem LossRare.of_short (h : LossRare delay pool log)
    (hshort : (lossesSince log).length < maxReconnect.toNat) :
    recentCount (maxReconnectTimeIntervalMs + delay) pool.shared.now (lossTimes log) <
      maxReconnect.toNat := by
  unfold LossRare at h
  rwa [List.getElem?_eq_none (Nat.le_sub_one_of_lt hshort)] at h

theorem LossRare.of_long (h : LossRare delay pool log)
    (hlong : maxReconnect.toNat ≤ (lossesSince log).length) :
    (∃ last ∈ (lossesSince log).take maxReconnect.toNat,
      pool.shared.now - last < maxReconnectTimeIntervalMs) ∧ askedTimes pool = [] := by
  have hpos : maxReconnect.toNat - 1 < (lossesSince log).length :=
    Nat.lt_of_lt_of_le (by decide) hlong
  unfold LossRare at h
  rw [List.getElem?_eq_getElem hpos] at h
  refine ⟨⟨_, ?_, h.1⟩, List.filterMap_eq_nil_iff.mpr h.2⟩
  exact List.mem_take_iff_getElem.mpr ⟨maxReconnect.toNat - 1, Nat.lt_min.mpr ⟨by decide, hpos⟩, rfl⟩

end Logs

/-! ## Steps -/

section Steps

variable {delay : ℕ} {pool : TimedPool} {log sent : List TimedMessage} {i : ℕ}
  {old moved : TimedThread} {started : List TimedThread} {world : TimedWorld} {reply : Bool}
  {asked : ℤ}

/-- The losses to connect for when a thread moves. -/
theorem askedTimes_advance (hi : pool.threads[i]? = some old) (world : TimedWorld)
    (moved : TimedThread) (started : List TimedThread) :
    ∃ rest, (askedTimes pool).Perm (old.asked.toList ++ rest) ∧
      (askedTimes ⟨world, pool.threads.set i moved ++ started⟩).Perm
        ((moved :: started).filterMap TimedThread.asked ++ rest) := by
  obtain ⟨rest, hold, hmoved⟩ := Protocol.exists_perm_set hi
  refine ⟨rest.filterMap TimedThread.asked, ?_, ?_⟩
  · refine (hold.filterMap TimedThread.asked).trans (.of_eq ?_)
    rw [List.filterMap_cons]
    cases old.asked <;> rfl
  · rw [← List.filterMap_append]
    refine List.Perm.filterMap _ (((hmoved moved).append_right started).trans ?_)
    have hcomm : (rest ++ started).Perm (started ++ rest) := List.perm_append_comm
    exact hcomm.cons moved

/-- A step that has nothing to do with the count. -/
theorem Kept.of_still (h : Kept delay pool log) (hi : pool.threads[i]? = some old)
    (hbase : world.base.connection.reconnects = pool.shared.base.connection.reconnects)
    (hnow : world.now = pool.shared.now)
    (hasked : (moved :: started).filterMap TimedThread.asked = old.asked.toList) :
    Kept delay ⟨world, pool.threads.set i moved ++ started⟩ log := by
  obtain ⟨rest, hbefore, hafter⟩ := askedTimes_advance hi world moved started
  have hsame : (askedTimes ⟨world, pool.threads.set i moved ++ started⟩).Perm (askedTimes pool) :=
    hafter.trans (hasked ▸ hbefore.symm)
  refine ⟨h.toWithinBudget, ?_, h.since, h.paired.trans (hsame.symm.append_left _), h.prompt,
    fun asked hmem => ?_, ?_⟩
  · dsimp only
    rw [hbase]
    exact h.count
  · dsimp only
    rw [hnow]
    exact h.timely asked (hsame.mem_iff.mp hmem)
  · dsimp only
    rw [hnow]
    exact h.room

/-- A message that is neither a connect for a loss nor an answered loss. -/
theorem Kept.concat_of_other {pool' : TimedPool} {message : TimedMessage} (h : Kept delay pool log)
    (hreconnect : message.reconnect? = none) (hanswer : message.answeredTime = none)
    (hnow : pool'.shared.now = pool.shared.now) (hasked : (askedTimes pool').Perm (askedTimes pool))
    (hrecovers : Recovers log message)
    (hcount : pool'.shared.base.connection.reconnects.count =
      min ((losesSince (lossesSince log) message).length : ℤ) maxReconnect)
    (hsince : ∀ time ∈ (losesSince (lossesSince log) message).take maxReconnect.toNat,
      time ∈ answeredTimes log) : Kept delay pool' (log ++ [message]) := by
  have hanswered : answeredTimes (log ++ [message]) = answeredTimes log := by
    rw [answeredTimes_concat, hanswer, Option.toList_none, List.append_nil]
  have hreconnects : reconnects (log ++ [message]) = reconnects log := by
    rw [reconnects_concat, hreconnect, Option.toList_none, List.append_nil]
  constructor
  · constructor
    · unfold connectTimes
      rw [hreconnects]
      exact h.bounded
    · exact throughout_concat.mpr ⟨h.recovers, hrecovers⟩
  · rw [lossesSince_concat]
    exact hcount
  · rw [lossesSince_concat, hanswered]
    exact hsince
  · rw [hanswered, hreconnects]
    exact h.paired.trans (hasked.symm.append_left _)
  · rw [hreconnects]
    exact h.prompt
  · intro time htime
    rw [hnow]
    exact h.timely time (hasked.mem_iff.mp htime)
  · rw [hanswered, hnow]
    exact h.room

/-- The connect of a user. -/
theorem Kept.of_connectExt (h : Kept delay pool log) (time : ℤ) :
    Kept delay pool (log ++ [.connectExt time]) :=
  h.concat_of_other rfl rfl rfl (.refl _) trivial h.count h.since

/-- A connect for a loss leaves room : it counts as long as the loss does. -/
theorem Kept.recentCount_lt (h : Kept delay pool log) {rest : List ℤ}
    (hasked : (askedTimes pool).Perm (asked :: rest)) :
    recentCount maxReconnectTimeIntervalMs pool.shared.now (connectTimes log) < maxReconnect.toNat := by
  have hroom := h.room
  have hgap : (0 : ℤ) < maxReconnectTimeIntervalMs := by decide
  have htimely := (h.timely asked (hasked.mem_iff.mpr List.mem_cons_self)).2
  have hlast : decide (pool.shared.now - asked < maxReconnectTimeIntervalMs + delay) = true :=
    decide_eq_true (by omega)
  have hissued : recentCount maxReconnectTimeIntervalMs pool.shared.now (connectTimes log) ≤
      ((reconnects log).map Prod.fst).countP
        fun s => pool.shared.now - s < maxReconnectTimeIntervalMs + delay := by
    unfold recentCount connectTimes
    rw [List.countP_map, List.countP_map]
    refine List.countP_mono_left fun pair hpair hrecent => ?_
    have := (h.prompt pair hpair).2
    have hrecent := of_decide_eq_true hrecent
    exact decide_eq_true (by omega)
  unfold recentCount at hroom
  rw [(h.paired.trans (hasked.append_left _)).countP_eq, List.countP_append, List.countP_cons,
    if_pos hlast] at hroom
  omega

/-- A thread connects for its loss. -/
theorem Kept.of_connect (h : Kept delay pool log) (hi : pool.threads[i]? = some old)
    (hbase : world.base.connection.reconnects = pool.shared.base.connection.reconnects)
    (hnow : world.now = pool.shared.now) (hold : old.asked = some asked) (hmoved : moved.asked = none) :
    Kept delay ⟨world, pool.threads.set i moved ++ []⟩
      (log ++ [.reconnectExt asked pool.shared.now]) := by
  obtain ⟨rest, hbefore, hafter⟩ := askedTimes_advance hi world moved []
  rw [hold] at hbefore
  have hrest : (askedTimes ⟨world, pool.threads.set i moved ++ []⟩).Perm rest := by
    refine hafter.trans (.of_eq ?_)
    rw [List.filterMap_cons_none hmoved]
    rfl
  have hasked : (askedTimes pool).Perm (asked :: rest) := hbefore
  have hanswered : answeredTimes (log ++ [.reconnectExt asked pool.shared.now]) = answeredTimes log := by
    rw [answeredTimes_concat]
    exact List.append_nil _
  have htimely := h.timely asked (hasked.mem_iff.mpr List.mem_cons_self)
  constructor
  · constructor
    · rw [connectTimes_concat]
      exact h.bounded.concat (h.recentCount_lt hasked)
    · exact throughout_concat.mpr ⟨h.recovers, trivial⟩
  · rw [lossesSince_concat]
    dsimp only
    rw [hbase]
    exact h.count
  · rw [lossesSince_concat, hanswered]
    exact h.since
  · rw [hanswered, reconnects_concat, List.map_append, List.append_assoc]
    exact h.paired.trans ((hasked.trans (hrest.symm.cons asked)).append_left _)
  · rw [reconnects_concat]
    exact List.forall_mem_append.mpr ⟨h.prompt, List.forall_mem_singleton.mpr htimely⟩
  · intro time htime
    dsimp only
    rw [hnow]
    exact h.timely time (hasked.mem_iff.mpr (List.mem_cons_of_mem _ (hrest.mem_iff.mp htime)))
  · rw [hanswered]
    dsimp only
    rw [hnow]
    exact h.room

/-- A loss that finds room is answered. -/
theorem Kept.of_answered (h : Kept delay pool log) (hi : pool.threads[i]? = some old)
    (hcount : pool.shared.base.connection.reconnects.count < maxReconnect)
    (hbase : world.base.connection.reconnects.count =
      pool.shared.base.connection.reconnects.count + 1)
    (hnow : world.now = pool.shared.now) (hold : old.asked = none)
    (hasked : (moved :: started).filterMap TimedThread.asked = [pool.shared.now])
    (hrare : LossRare delay pool log) :
    Kept delay ⟨world, pool.threads.set i moved ++ started⟩
      (log ++ [.lost true pool.shared.now]) := by
  obtain ⟨rest, hbefore, hafter⟩ := askedTimes_advance hi world moved started
  rw [hold] at hbefore
  rw [hasked] at hafter
  have hrest : (askedTimes ⟨world, pool.threads.set i moved ++ started⟩).Perm
      (pool.shared.now :: askedTimes pool) :=
    hafter.trans (hbefore.symm.cons _)
  have hanswered : answeredTimes (log ++ [.lost true pool.shared.now]) =
      answeredTimes log ++ [pool.shared.now] :=
    answeredTimes_concat log _
  have hlosses : lossesSince (log ++ [.lost true pool.shared.now]) =
      lossesSince log ++ [pool.shared.now] :=
    lossesSince_concat log _
  have hlength := h.count
  have hshort : (lossesSince log).length < maxReconnect.toNat := by
    unfold maxReconnect at hlength hcount ⊢
    omega
  have hlt : recentCount (maxReconnectTimeIntervalMs + delay) pool.shared.now (answeredTimes log) <
      maxReconnect.toNat :=
    Nat.lt_of_le_of_lt (recentCount_answeredTimes_le _) (hrare.of_short hshort)
  constructor
  · constructor
    · rw [connectTimes_concat]
      exact (List.append_nil (connectTimes log)).symm ▸ h.bounded
    · exact throughout_concat.mpr ⟨h.recovers, trivial⟩
  · rw [hlosses, List.length_append, List.length_singleton]
    dsimp only
    rw [hbase, hlength]
    unfold maxReconnect at hshort ⊢
    omega
  · rw [hlosses, hanswered]
    intro time htime
    rcases List.mem_append.mp (List.mem_of_mem_take htime) with hmem | hmem
    · refine List.mem_append_left _ (h.since time ?_)
      rwa [List.take_of_length_le (Nat.le_of_lt hshort)]
    · exact List.mem_append_right _ hmem
  · rw [hanswered, reconnects_concat]
    refine ((List.perm_append_singleton _ _).trans (h.paired.cons _)).trans ?_
    refine List.perm_middle.symm.trans ?_
    exact (List.append_nil (reconnects log)).symm ▸ hrest.symm.append_left _
  · rw [reconnects_concat]
    exact (List.append_nil (reconnects log)).symm ▸ h.prompt
  · intro time htime
    dsimp only
    rw [hnow]
    rcases List.mem_cons.mp (hrest.mem_iff.mp htime) with rfl | hmem
    · omega
    · exact h.timely time hmem
  · rw [hanswered]
    dsimp only
    rw [hnow]
    exact Nat.le_trans recentCount_concat_le hlt

/-- A loss that finds no room is not answered. -/
theorem Kept.of_refused (h : Kept delay pool log)
    (hcount : maxReconnect ≤ pool.shared.base.connection.reconnects.count)
    (hrare : LossRare delay pool log) : Kept delay pool (log ++ [.lost false pool.shared.now]) := by
  have hlength := h.count
  have hlong : maxReconnect.toNat ≤ (lossesSince log).length := by
    unfold maxReconnect at hlength hcount ⊢
    omega
  refine h.concat_of_other rfl rfl rfl (.refl _) ?_ ?_ ?_
  · obtain ⟨⟨last, hlast, hrecent⟩, hnone⟩ := hrare.of_long hlong
    -- nobody is about to connect, so the last loss that was answered has its connect
    have hmem := h.since last hlast
    rw [h.paired.mem_iff, hnone, List.append_nil] at hmem
    obtain ⟨pair, hpair, heq⟩ := List.mem_map.mp hmem
    refine ⟨pair.2, List.mem_map_of_mem hpair, ?_⟩
    have := (h.prompt pair hpair).1
    omega
  · rw [losesSince, List.length_append, List.length_singleton, hlength]
    unfold maxReconnect at hlong ⊢
    omega
  · rw [losesSince, List.take_append_of_le_length hlong]
    exact h.since

/-- A successful callback sets the count back. -/
theorem Kept.of_succeeded (h : Kept delay pool log) (hi : pool.threads[i]? = some old)
    (hbase : world.base.connection.reconnects.count = 0) (hnow : world.now = pool.shared.now)
    (hold : old.asked = none) (hmoved : moved.asked = none) :
    Kept delay ⟨world, pool.threads.set i moved ++ []⟩ (log ++ [.succeeded]) := by
  obtain ⟨rest, hbefore, hafter⟩ := askedTimes_advance hi world moved []
  rw [hold] at hbefore
  rw [List.filterMap_cons_none hmoved] at hafter
  exact h.concat_of_other rfl rfl hnow (hafter.trans hbefore.symm) trivial hbase
    fun time htime => absurd htime List.not_mem_nil

/-- A step of which the count is no part. -/
theorem Kept.of_pass (h : Kept delay pool log) (hi : pool.threads[i]? = some old)
    (hbase : world.base.connection.reconnects = pool.shared.base.connection.reconnects)
    (hnow : world.now = pool.shared.now)
    (hasked : (moved :: started).filterMap TimedThread.asked = old.asked.toList) :
    Kept delay ⟨world, pool.threads.set i moved ++ started⟩ (log ++ []) := by
  rw [List.append_nil]
  exact h.of_still hi hbase hnow hasked

/-- A disconnect is answered by a callback. -/
theorem asked_disconnect (base : World) (handle : Option ℕ) (now : ℤ) :
    ((handle.elim (base, []) base.disconnect).2.map (TimedThread.of now)).filterMap
        TimedThread.asked = [] ∧
      (handle.elim (base, []) base.disconnect).1.connection = base.connection := by
  cases handle with
  | none => exact ⟨rfl, rfl⟩
  | some n =>
    rw [Option.elim_some, World.disconnect]
    split <;> exact ⟨rfl, rfl⟩

theorem kept_delegate {thread : Thread} {since : ℤ} (h : Kept delay pool log)
    (hi : pool.threads[i]? = some (.connection thread since))
    (hrare : Rare delay pool log (.advance i reply)) :
    Kept delay ⟨(pool.shared.delegate thread since reply).shared,
        pool.threads.set i (pool.shared.delegate thread since reply).thread ++
          (pool.shared.delegate thread since reply).started⟩
      (log ++ (pool.shared.delegate thread since reply).sent) := by
  cases thread with
  | connectNow | delayed =>
    cases reply <;> exact h.of_connect hi rfl rfl rfl rfl
  | reconnect =>
    by_cases hcount : pool.shared.base.connection.reconnects.count = 0
    · have hasks := hrare _ hi (decide_eq_true hcount)
      simp only [TimedWorld.delegate, World.step, World.become, notes, if_pos hcount]
      refine h.of_answered hi ?_ ?_ rfl rfl rfl hasks
      · rw [hcount]
        decide
      · rw [hcount]
        rfl
    · simp only [TimedWorld.delegate, World.step, World.become, notes, if_neg hcount]
      exact h.of_pass hi rfl rfl rfl
  | delayConnect =>
    have hasks := hrare _ hi rfl
    by_cases hcount : pool.shared.base.connection.reconnects.count ≥ maxReconnect
    · simp only [TimedWorld.delegate, World.step, World.become, notes, if_pos hcount,
        decide_eq_false (Int.not_lt.mpr hcount)]
      exact (h.of_refused hcount hasks).of_still hi rfl rfl rfl
    · simp only [TimedWorld.delegate, World.step, World.become, notes, if_neg hcount,
        decide_eq_true (Int.not_le.mp hcount)]
      exact h.of_answered hi (Int.not_le.mp hcount) rfl rfl rfl rfl hasks
  | connectExt =>
    cases reply <;> exact (h.of_connectExt _).of_still hi rfl rfl rfl
  | resetReconnects => exact h.of_succeeded hi rfl rfl rfl rfl
  | disconnectHandle =>
    obtain ⟨hstarted, hbase⟩ := asked_disconnect pool.shared.base
      pool.shared.base.connection.connectionHandle pool.shared.now
    exact h.of_pass hi rfl rfl hstarted
  | loadInvalid | loadReconnect | checkProxy | getProxy =>
    simp only [TimedWorld.delegate, World.step, World.become, notes]
    split <;> exact h.of_pass hi rfl rfl rfl
  | _ => exact h.of_pass hi rfl rfl rfl

theorem kept_next (h : Kept delay pool log) (hi : pool.threads[i]? = some old)
    (hrare : Rare delay pool log (.advance i reply)) :
    Kept delay ⟨(pool.shared.next old reply).shared,
        pool.threads.set i (pool.shared.next old reply).thread ++ (pool.shared.next old reply).started⟩
      (log ++ (pool.shared.next old reply).sent) := by
  cases old with
  | connection thread since => exact kept_delegate h hi hrare
  | sleep asked => exact h.of_pass hi rfl rfl rfl
  | sleeping asked due =>
    simp only [TimedWorld.next]
    split
    · exact h.of_pass hi rfl rfl rfl
    · cases reply <;> exact h.of_connect hi rfl rfl rfl rfl

theorem kept_outside (h : Kept delay pool log) (event : TimedOutside)
    (hrare : Rare delay pool log (.outside event)) :
    Kept delay ⟨(pool.shared.outside event).1, pool.threads ++ (pool.shared.outside event).2⟩ log := by
  cases event with
  | tick ms =>
    have hsame : askedTimes ⟨(pool.shared.outside (.tick ms)).1,
        pool.threads ++ (pool.shared.outside (.tick ms)).2⟩ = askedTimes pool :=
      congrArg (List.filterMap TimedThread.asked) (List.append_nil pool.threads)
    refine ⟨h.toWithinBudget, h.count, h.since, hsame ▸ h.paired, h.prompt, fun asked hmem => ?_, ?_⟩
    · rw [hsame] at hmem
      obtain ⟨thread, hthread, hasked⟩ := List.mem_filterMap.mp hmem
      refine ⟨?_, hrare thread hthread asked hasked⟩
      exact Int.le_trans (h.timely asked hmem).1 (Int.le_add_of_nonneg_right (Int.natCast_nonneg ms))
    · refine Nat.le_trans (recentCount_le_of_imp fun s hs => ?_) h.room
      simp only [TimedWorld.outside] at hs
      omega
  | connection event =>
    have hstarted : (pool.shared.outside (.connection event)).2.filterMap TimedThread.asked = [] ∧
        (pool.shared.base.outside event).1.connection.reconnects =
          pool.shared.base.connection.reconnects := by
      cases event with
      | user call => cases call <;> exact ⟨rfl, rfl⟩
      | connectDone n accepted =>
        simp only [TimedWorld.outside, World.outside]
        split
        · split <;> exact ⟨rfl, rfl⟩
        · exact ⟨rfl, rfl⟩
      | lost n =>
        simp only [TimedWorld.outside, World.outside, World.disconnect]
        split <;> exact ⟨rfl, rfl⟩
    have hsame : askedTimes ⟨(pool.shared.outside (.connection event)).1,
        pool.threads ++ (pool.shared.outside (.connection event)).2⟩ = askedTimes pool := by
      unfold askedTimes
      rw [List.filterMap_append, hstarted.1, List.append_nil]
    refine ⟨h.toWithinBudget, ?_, h.since, hsame ▸ h.paired, h.prompt, hsame ▸ h.timely, h.room⟩
    exact (congrArg ConnectionInfo.count hstarted.2).trans h.count

end Steps

/-! ## Runs -/

/-- If losses are rare, no window shorter than the interval has more than `MAX_RECONNECT` automatic
connects, and after the interval there is room again. -/
theorem rust_reconnects_within_budget {delay : ℕ} {events : List TimedEvent}
    (h : Throughout (fun before event => Rare delay (run before).1 (run before).2 event) events) :
    WithinBudget (run events).2 := by
  have hkept : Kept delay (run events).1 (run events).2 := by
    induction events using List.reverseRecOn with
    | nil =>
      exact ⟨⟨windowsAtMost_nil, throughout_nil⟩, by decide, by simp [run, Machine.run, lossesSince],
        .refl _, by simp [run, Machine.run, reconnects], by simp [run, Machine.run, askedTimes],
        Nat.zero_le _⟩
    | append_singleton events event ih =>
      obtain ⟨hevents, hrare⟩ := throughout_concat.mp h
      rw [run, Machine.run, runCalls_concat]
      refine Machine.step_invariant (P := Kept delay) (ih hevents) ?_ ?_
      · rintro e rfl
        exact kept_outside (ih hevents) e hrare
      · rintro i reply thread rfl hi
        exact kept_next (ih hevents) hi hrare
  exact hkept.toWithinBudget

/-- `n` steps of the `i`-th thread, each with a good reply. -/
def steps (i n : ℕ) : List TimedEvent :=
  List.replicate n (.advance i true)

/-- A user connects, by two threads. -/
def connected : List TimedEvent :=
  .outside (.connection (.user .getDataShareProxy)) :: steps 0 3 ++
    .outside (.connection (.connectDone 0 true)) :: steps 1 3

/-- Connection `n` is lost, connected to again at once, and the callback that follows is done, by
the threads from `2 * n + 2`. -/
def crash (n : ℕ) : List TimedEvent :=
  .outside (.connection (.lost n)) :: steps (2 * n + 2) 4 ++
    .outside (.connection (.connectDone (n + 1) true)) :: steps (2 * n + 3) 5

/-- Seven users connect at once, by the threads up to 13. -/
def sevenConnected : List TimedEvent :=
  List.replicate 7 (.outside (.connection (.user .getDataShareProxy))) ++
    (List.range 7).flatMap (steps · 2) ++
    (List.range 7).map fun n => .outside (.connection (.connectDone n true))

/-- Six of the connections are lost, the reconnects of which are refused, and then the last one. -/
def sevenLost : List TimedEvent :=
  .outside (.connection (.lost 0)) :: steps 14 2 ++ [.advance 14 false] ++
    (List.range 5).flatMap (fun n =>
      .outside (.connection (.lost (n + 1))) :: steps (2 * n + 15) 3 ++ steps (2 * n + 16) 1) ++
    .outside (.tick 10000) :: (List.range 5).map (fun n => .advance (2 * n + 16) false) ++
    .outside (.tick 5000) :: .outside (.connection (.lost 6)) :: steps 25 3

/-- Six losses are answered, and the seventh is not. -/
theorem rust_reconnects_within_budget_used_up :
    WithinBudget (run (sevenConnected ++ sevenLost)).2 ∧
      connectTimes (run (sevenConnected ++ sevenLost)).2 = [0, 10000, 10000, 10000, 10000, 10000] ∧
      .lost false 15000 ∈ (run (sevenConnected ++ sevenLost)).2 :=
  ⟨@rust_reconnects_within_budget 10000 _ (throughout_iff_getElem.mpr (by decide +kernel)),
    by decide +kernel, by decide +kernel⟩

/-- A provider that crashes seven times after a successful connection is connected to seven times at
once. -/
theorem reconnects_without_bound : ¬ WithinBudget (run (connected ++ crash 0 ++ crash 1 ++ crash 2 ++
    crash 3 ++ crash 4 ++ crash 5 ++ crash 6)).2 := by
  intro h
  have hseven := h.bounded [0, 0, 0, 0, 0, 0, 0] (by decide +kernel) (by decide +kernel)
  exact absurd hseven (by decide)

end Budget

end Rust

end DataShare
