import DataShare.GeneralControllerServiceImpl

/-!
# Silent observers across service restarts

The table of the silent controller is changed before the observer service has answered, and is taken
out by a re-registration while users go on. So a pair that is refused stays stored, one that is
registered twice is stored twice, and one that is unregistered while the re-registration has it is
stored and registered again (`refused_observer_stays_stored`).

`Orderly` excludes these : a pair is registered when no one holds it, it is unregistered when no
re-registration has it, its calls follow one another, and the service accepts them. What the table and
the re-registrations hold of a pair (`held`) then agrees with what the user was told
(`Recorded`), and so a quiet table holds each registered pair once, and a restart registers each of them
once (`silent_observers_survive_restarts`).
-/

namespace DataShare

namespace Rust

namespace GeneralControllerServiceImpl

/-! ## What is held of a pair -/

/-- The pairs that a thread is going to store again. -/
def Thread.pending : Thread → List Pair
  | .reRegisterLoop _ pending | .reRegisterSilent _ _ pending => pending
  | _ => []

/-- The pairs that are stored, or are going to be stored again. -/
def held (pool : ControllerPool) : List Pair :=
  pool.shared.observers.pairs ++ pool.threads.flatMap Thread.pending

/-- The thread is in a user's call of the observer service about the pair. -/
def Thread.serves (pair : Pair) : Thread → Bool
  | .registerSilent p | .unregisterSilent p => p = pair
  | _ => false

/-- A re-registration has the pair. -/
def Thread.reRegisters (pair : Pair) : Thread → Bool
  | .reRegisterLoop _ pending => pair ∈ pending
  | .reRegisterSilent _ p pending => pair ∈ p :: pending
  | _ => false

/-- A pair is registered when nobody holds it and unregistered when no re-registration has it, while no
other call about it is under way, and the observer service accepts what a user asks for. -/
def Orderly (pool : ControllerPool) : ControllerEvent → Prop
  | .outside _ => True
  | .advance i reply =>
    match pool.threads[i]? with
    | some (.register pair) =>
      pair ∉ held pool ∧ ∀ thread ∈ pool.threads, thread.serves pair = false
    | some (.unregister pair) => ∀ thread ∈ pool.threads,
      thread.serves pair = false ∧ thread.reRegisters pair = false
    | some (.registerSilent _) | some (.unregisterSilent _) => reply = 0
    | _ => True

instance : DecidableRel Orderly := fun pool event => by
  rcases event with _ | ⟨i, reply⟩
  · unfold Orderly
    infer_instance
  · unfold Orderly
    dsimp only
    split <;> infer_instance

/-- Whether the pair is registered, after one message more. -/
def acknowledges (pair : Pair) (before : Bool) : Message → Bool
  | .registered p => before || p = pair
  | .unregistered p => before && p ≠ pair
  | _ => before

/-- The last of the pair's calls to succeed was a registration. -/
def registered (pair : Pair) (log : List Message) : Bool :=
  log.foldl (acknowledges pair) false

/-- How often a pair is held while a user's call about it is at the observer service. -/
def Thread.Expects (count : ℕ) : Thread → Prop
  | .registerSilent _ => count = 1
  | .unregisterSilent _ => count = 0
  | _ => True

/-- The pair is held once if it is registered, and otherwise not, and a pair that is being
registered again is held. -/
structure Recorded (pool : ControllerPool) (log : List Message) (pair : Pair) : Prop where
  count : OneWorker (Thread.serves pair)
    ((held pool).count pair = if registered pair log then 1 else 0)
    (Thread.Expects ((held pool).count pair)) pool.threads
  stored : ∀ k pending, .reRegisterSilent k pair pending ∈ pool.threads → pair ∈ held pool

theorem registered_append (pair : Pair) (log sent : List Message) :
    registered pair (log ++ sent) = sent.foldl (acknowledges pair) (registered pair log) := by
  unfold registered
  rw [List.foldl_append]

/-- The change of what is held when a thread moves. -/
theorem count_held_advance {pool : ControllerPool} {i : ℕ} {old : Thread}
    (hi : pool.threads[i]? = some old) (pair : Pair) (world : World) (moved : Thread) :
    (held ⟨world, pool.threads.set i moved ++ []⟩).count pair +
        (pool.shared.observers.pairs.count pair + old.pending.count pair) =
      (held pool).count pair + (world.observers.pairs.count pair + moved.pending.count pair) := by
  obtain ⟨rest, hold, hmoved⟩ := Protocol.exists_perm_set hi
  unfold held
  dsimp only
  rw [List.append_nil, List.count_append, List.count_append,
    ((hmoved moved).flatMap_right Thread.pending).count_eq,
    (hold.flatMap_right Thread.pending).count_eq, List.flatMap_cons, List.flatMap_cons,
    List.count_append, List.count_append]
  omega

/-! ## Steps -/

section Steps

variable {pool : ControllerPool} {log sent : List Message} {pair : Pair} {i : ℕ} {reply : ℤ}
  {old moved : Thread} {world : World}

theorem mem_held_iff : pair ∈ held pool ↔ 0 < (held pool).count pair :=
  List.count_pos_iff.symm

/-- A step that is not about the pair. -/
theorem Recorded.of_same (h : Recorded pool log pair) (hi : pool.threads[i]? = some old)
    (hold : old.serves pair = false) (hmoved : moved.serves pair = false)
    (hcount : (held ⟨world, pool.threads.set i moved ++ []⟩).count pair = (held pool).count pair)
    (hregistered : registered pair (log ++ sent) = registered pair log)
    (hsilent : ∀ k pending, moved = .reRegisterSilent k pair pending → pair ∈ held pool) :
    Recorded ⟨world, pool.threads.set i moved ++ []⟩ (log ++ sent) pair where
  count := by
    rw [hcount, hregistered]
    refine h.count.advance hi (fun hserves => ?_) (fun _ hidle hnone => ?_)
      fun _ worker hmem hserves hexpects => ?_
    · rw [hold] at hserves
      exact Bool.noConfusion hserves
    · exact .nobody (by simpa using hmoved) hidle
    · exact ⟨hexpects, by simpa using hmoved⟩
  stored := by
    intro k pending hmem
    rw [mem_held_iff, hcount, ← mem_held_iff]
    rw [List.append_nil] at hmem
    rcases List.mem_or_eq_of_mem_set hmem with hmem | heq
    · exact h.stored k pending hmem
    · exact hsilent k pending heq.symm

/-- A registration is stored by someone who is the only one to hold the pair. -/
theorem Recorded.of_register (h : Recorded pool log pair) (hi : pool.threads[i]? = some (.register pair))
    (horderly : Orderly pool (.advance i reply)) :
    Recorded ⟨pool.shared.store (pool.shared.observers.push pair),
      pool.threads.set i (.registerSilent pair) ++ []⟩ (log ++ []) pair := by
  simp only [Orderly, hi] at horderly
  obtain ⟨hnot, hnone⟩ := horderly
  have hcount := count_held_advance hi pair
    (pool.shared.store (pool.shared.observers.push pair)) (.registerSilent pair)
  rw [observers_store, (pairs_push_perm _ _).count_eq, List.count_cons_self,
    List.count_eq_zero.mpr hnot] at hcount
  simp only [Thread.pending, List.count_nil] at hcount
  rw [List.append_nil log]
  constructor
  · refine h.count.advance hi (fun hserves => ?_) (fun _ _ _ => ?_) fun _ worker hmem hserves _ => ?_
    · exact Bool.noConfusion hserves
    · exact .single (by simp [Thread.serves]) (show (held _).count pair = 1 by omega)
    · rw [hnone worker hmem] at hserves
      exact Bool.noConfusion hserves
  · intro k pending hmem
    rw [mem_held_iff]
    omega

/-- The answer to a user's call, of which the pair is held as the message says. -/
theorem Recorded.of_answer (h : Recorded pool log pair) {message : Message}
    (hi : pool.threads[i]? = some old) (hserves : old.serves pair = true)
    (hpending : old.pending = [])
    (hheld : old.Expects ((held pool).count pair) →
      (held pool).count pair = if registered pair (log ++ [message]) then 1 else 0) :
    Recorded ⟨pool.shared, pool.threads.set i .finished ++ []⟩ (log ++ [message]) pair := by
  have hcount := count_held_advance hi pair pool.shared .finished
  rw [hpending] at hcount
  simp only [Thread.pending] at hcount
  constructor
  · refine h.count.advance hi (fun _ hexpects => ?_) (fun hidle => ?_) fun hidle => ?_
    · refine .nobody (by simp [Thread.serves]) ?_
      rw [← hheld hexpects]
      omega
    · rw [hserves] at hidle
      exact Bool.noConfusion hidle
    · rw [hserves] at hidle
      exact Bool.noConfusion hidle
  · intro k pending hmem
    rw [List.append_nil] at hmem
    have hmem := (List.mem_or_eq_of_mem_set hmem).resolve_right Thread.noConfusion
    have := mem_held_iff.mp (h.stored k pending hmem)
    rw [mem_held_iff]
    omega

theorem Recorded.of_registerSilent (h : Recorded pool log pair)
    (hi : pool.threads[i]? = some (.registerSilent pair)) :
    Recorded ⟨pool.shared, pool.threads.set i .finished ++ []⟩ (log ++ [.registered pair]) pair := by
  refine h.of_answer hi (by simp [Thread.serves]) rfl fun hexpects => ?_
  rw [registered_append]
  simpa [acknowledges, Thread.Expects] using hexpects

/-- A pair is taken out of the table that nobody else is going to store. -/
theorem Recorded.of_unregister (h : Recorded pool log pair)
    (hi : pool.threads[i]? = some (.unregister pair)) (horderly : Orderly pool (.advance i reply)) :
    Recorded ⟨pool.shared.store (pool.shared.observers.retain pair),
      pool.threads.set i (.unregisterSilent pair) ++ []⟩ (log ++ []) pair := by
  simp only [Orderly, hi] at horderly
  have hpending : (pool.threads.flatMap Thread.pending).count pair = 0 := by
    rw [List.count_eq_zero]
    intro hmem
    obtain ⟨thread, hthread, hin⟩ := List.mem_flatMap.mp hmem
    have hnot := (horderly thread hthread).2
    cases thread <;> simp_all [Thread.pending, Thread.reRegisters]
  have hcount := count_held_advance hi pair
    (pool.shared.store (pool.shared.observers.retain pair)) (.unregisterSilent pair)
  have hheld : (held pool).count pair = pool.shared.observers.pairs.count pair := by
    rw [held, List.count_append, hpending, Nat.add_zero]
  rw [observers_store, count_pairs_retain, if_pos rfl, hheld] at hcount
  simp only [Thread.pending, List.count_nil] at hcount
  rw [List.append_nil log]
  constructor
  · refine h.count.advance hi (fun hserves => ?_) (fun _ _ _ => ?_) fun _ worker hmem hserves _ => ?_
    · exact Bool.noConfusion hserves
    · exact .single (by simp [Thread.serves]) (show (held _).count pair = 0 by omega)
    · rw [(horderly worker hmem).1] at hserves
      exact Bool.noConfusion hserves
  · intro k pending hmem
    rw [List.append_nil] at hmem
    have hmem := (List.mem_or_eq_of_mem_set hmem).resolve_right Thread.noConfusion
    have hnot := (horderly _ hmem).2
    simp [Thread.reRegisters] at hnot

theorem Recorded.of_unregisterSilent (h : Recorded pool log pair)
    (hi : pool.threads[i]? = some (.unregisterSilent pair)) :
    Recorded ⟨pool.shared, pool.threads.set i .finished ++ []⟩ (log ++ [.unregistered pair]) pair := by
  refine h.of_answer hi (by simp [Thread.serves]) rfl fun hexpects => ?_
  rw [registered_append]
  simpa [acknowledges, Thread.Expects] using hexpects

/-- Every step keeps what is recorded of a pair. -/
theorem recorded_next (h : Recorded pool log pair) (hi : pool.threads[i]? = some old)
    (horderly : Orderly pool (.advance i reply)) :
    Recorded ⟨(pool.shared.next old reply).shared,
        pool.threads.set i (pool.shared.next old reply).thread ++ (pool.shared.next old reply).started⟩
      (log ++ (pool.shared.next old reply).sent) pair := by
  have hsame (world : World) (moved : Thread) := count_held_advance hi pair world moved
  cases old with
  | register p =>
    by_cases hp : p = pair
    · subst hp
      exact h.of_register hi horderly
    · have := hsame (pool.shared.store (pool.shared.observers.push p)) (.registerSilent p)
      rw [observers_store, (pairs_push_perm _ _).count_eq, List.count_cons_of_ne hp] at this
      refine h.of_same hi rfl (decide_eq_false hp) ?_ ?_ ?_
      · exact Nat.add_right_cancel this
      · exact congrArg (registered pair) (List.append_nil log)
      · exact fun k pending heq => Thread.noConfusion heq
  | registerSilent p =>
    simp only [Orderly, hi] at horderly
    subst horderly
    by_cases hp : p = pair
    · subst hp
      exact h.of_registerSilent hi
    · refine h.of_same hi (decide_eq_false hp) rfl ?_ ?_ ?_
      · exact Nat.add_right_cancel (hsame pool.shared .finished)
      · rw [registered_append]
        simp [World.next, World.become, acknowledges, hp]
      · exact fun k pending heq => Thread.noConfusion heq
  | unregister p =>
    by_cases hp : p = pair
    · subst hp
      exact h.of_unregister hi horderly
    · have := hsame (pool.shared.store (pool.shared.observers.retain p)) (.unregisterSilent p)
      rw [observers_store, count_pairs_retain, if_neg fun heq => hp heq.symm] at this
      refine h.of_same hi rfl (decide_eq_false hp) ?_ ?_ ?_
      · exact Nat.add_right_cancel this
      · exact congrArg (registered pair) (List.append_nil log)
      · exact fun k pending heq => Thread.noConfusion heq
  | unregisterSilent p =>
    simp only [Orderly, hi] at horderly
    subst horderly
    by_cases hp : p = pair
    · subst hp
      exact h.of_unregisterSilent hi
    · refine h.of_same hi (decide_eq_false hp) rfl ?_ ?_ ?_
      · exact Nat.add_right_cancel (hsame pool.shared .finished)
      · rw [registered_append]
        simp [World.next, World.become, acknowledges, hp]
      · exact fun k pending heq => Thread.noConfusion heq
  | reRegister k =>
    refine h.of_same hi rfl rfl ?_ (congrArg (registered pair) (List.append_nil log)) ?_
    · have hcount : (held ⟨pool.shared.store .empty, pool.threads.set i
          (.reRegisterLoop k pool.shared.observers.pairs) ++ []⟩).count pair +
            (pool.shared.observers.pairs.count pair + 0) =
          (held pool).count pair + (0 + pool.shared.observers.pairs.count pair) :=
        hsame (pool.shared.store .empty) (.reRegisterLoop k pool.shared.observers.pairs)
      rw [Nat.add_comm 0] at hcount
      exact Nat.add_right_cancel hcount
    · exact fun k pending heq => Thread.noConfusion heq
  | reRegisterLoop k pending =>
    cases pending with
    | nil =>
      refine h.of_same hi rfl rfl ?_ (congrArg (registered pair) (List.append_nil log)) ?_
      · exact Nat.add_right_cancel (hsame pool.shared .finished)
      · exact fun k pending heq => Thread.noConfusion heq
    | cons p pending =>
      refine h.of_same hi rfl rfl ?_ (congrArg (registered pair) (List.append_nil log)) ?_
      · have hcount := hsame (pool.shared.store (pool.shared.observers.push p))
          (.reRegisterSilent k p pending)
        rw [observers_store, (pairs_push_perm _ _).count_eq] at hcount
        simp only [Thread.pending, List.count_cons] at hcount
        have hgoal : (held ⟨pool.shared.store (pool.shared.observers.push p),
            pool.threads.set i (.reRegisterSilent k p pending) ++ []⟩).count pair =
            (held pool).count pair := by omega
        exact hgoal
      · intro k' pending' heq
        obtain ⟨-, rfl, -⟩ := Thread.reRegisterSilent.inj heq
        refine List.mem_append_right _ (List.mem_flatMap.mpr ⟨_, List.mem_of_getElem? hi, ?_⟩)
        exact List.mem_cons_self
  | reRegisterSilent k p pending =>
    refine h.of_same hi rfl rfl ?_ (registered_append pair log _) ?_
    · exact Nat.add_right_cancel (hsame pool.shared (.reRegisterLoop k pending))
    · exact fun k pending heq => Thread.noConfusion heq
  | finished =>
    refine h.of_same hi rfl rfl ?_ (congrArg (registered pair) (List.append_nil log)) ?_
    · exact Nat.add_right_cancel (hsame pool.shared .finished)
    · exact fun k pending heq => Thread.noConfusion heq

/-- What happens outside starts calls that have yet to begin. -/
theorem recorded_outside (h : Recorded pool log pair) (event : Outside) :
    Recorded ⟨(pool.shared.outside event).1, pool.threads ++ (pool.shared.outside event).2⟩ log pair := by
  have hstarted : ∀ thread ∈ (pool.shared.outside event).2,
      thread.serves pair = false ∧ thread.pending = [] ∧
        ∀ k pending, thread ≠ .reRegisterSilent k pair pending := by
    cases event <;> simp [World.outside, Thread.serves, Thread.pending]
  have hobservers : (pool.shared.outside event).1.observers = pool.shared.observers := by
    cases event <;> rfl
  have hheld : held ⟨(pool.shared.outside event).1, pool.threads ++ (pool.shared.outside event).2⟩ =
      held pool := by
    have hpending : (pool.shared.outside event).2.flatMap Thread.pending = [] :=
      List.flatMap_eq_nil_iff.mpr fun thread hthread => (hstarted thread hthread).2.1
    unfold held
    rw [hobservers, List.flatMap_append, hpending, List.append_nil]
  constructor
  · rw [hheld]
    exact h.count.append fun thread hthread => (hstarted thread hthread).1
  · intro k pending hmem
    rw [hheld]
    rcases List.mem_append.mp hmem with hmem | hmem
    · exact h.stored k pending hmem
    · exact absurd rfl ((hstarted _ hmem).2.2 k pending)

end Steps

/-! ## What a restart registers -/

/-- The pair that the `k`-th re-registration passed to the observer service. -/
def Message.reRegisteredBy (k : ℕ) : Message → Option Pair
  | .reRegistered k' pair => if k' = k then some pair else none
  | _ => none

/-- The pairs that the `k`-th re-registration passed to the observer service, in order. -/
def reRegisteredBy (k : ℕ) (log : List Message) : List Pair :=
  log.filterMap (Message.reRegisteredBy k)

/-- The thread is the `k`-th re-registration. -/
def Thread.isRestart (k : ℕ) : Thread → Bool
  | .reRegister k' | .reRegisterLoop k' _ | .reRegisterSilent k' _ _ => k' = k
  | _ => false

/-- What a re-registration has done and has yet to do is without repetition. -/
def Thread.Splits (k : ℕ) (log : List Message) : Thread → Prop
  | .reRegister _ => reRegisteredBy k log = []
  | .reRegisterLoop _ pending => (reRegisteredBy k log ++ pending).Nodup
  | .reRegisterSilent _ pair pending => (reRegisteredBy k log ++ pair :: pending).Nodup
  | _ => True

/-- The `k`-th re-registration registers no pair twice, as far as it has got. -/
structure Restarted (pool : ControllerPool) (log : List Message) (k : ℕ) : Prop where
  registers : OneWorker (Thread.isRestart k) (reRegisteredBy k log).Nodup (Thread.Splits k log)
    pool.threads
  fresh : pool.shared.restarts ≤ k → (∀ thread ∈ pool.threads, thread.isRestart k = false) ∧
    reRegisteredBy k log = []

section Restarts

variable {pool : ControllerPool} {log sent : List Message} {k i : ℕ} {old : Thread} {pair : Pair}
  {world : World} {reply : ℤ}

theorem reRegisteredBy_append (k : ℕ) (log sent : List Message) :
    reRegisteredBy k (log ++ sent) = reRegisteredBy k log ++ reRegisteredBy k sent :=
  List.filterMap_append

theorem mem_reRegisteredBy_append (h : pair ∈ reRegisteredBy k log) :
    pair ∈ reRegisteredBy k (log ++ sent) := by
  rw [reRegisteredBy_append]
  exact List.mem_append_left _ h

theorem started_next (world : World) (old : Thread) (reply : ℤ) :
    (world.next old reply).started = [] := by
  cases old with
  | reRegisterLoop k pending => cases pending <;> rfl
  | _ => rfl

/-- Only the `k`-th re-registration goes on as such, and says that it passes a pair. -/
theorem isRestart_next (h : old.isRestart k = false) :
    (world.next old reply).thread.isRestart k = false ∧
      reRegisteredBy k (world.next old reply).sent = [] := by
  cases old with
  | reRegisterLoop k' pending => cases pending <;> exact ⟨by first | exact h | rfl, rfl⟩
  | registerSilent pair | unregisterSilent pair =>
    refine ⟨rfl, ?_⟩
    simp only [World.next, World.become]
    split <;> rfl
  | reRegisterSilent k' pair pending =>
    have hne : k' ≠ k := of_decide_eq_false h
    exact ⟨h, by simp [World.next, World.become, reRegisteredBy, Message.reRegisteredBy, hne]⟩
  | reRegister => exact ⟨h, rfl⟩
  | _ => exact ⟨rfl, rfl⟩

/-- A step of the `k`-th re-registration. -/
theorem splits_next (hold : old.isRestart k = true) (hnodup : world.observers.pairs.Nodup)
    (h : old.Splits k log) :
    OneWorker (Thread.isRestart k) (reRegisteredBy k (log ++ (world.next old reply).sent)).Nodup
      (Thread.Splits k (log ++ (world.next old reply).sent)) [(world.next old reply).thread] := by
  cases old with
  | reRegister k' =>
    refine .single hold ?_
    have hnil : reRegisteredBy k (log ++ []) = [] := (congrArg _ (List.append_nil log)).trans h
    change (reRegisteredBy k (log ++ []) ++ world.observers.pairs).Nodup
    rwa [hnil, List.nil_append]
  | reRegisterLoop k' pending =>
    have hlog : log ++ (world.next (.reRegisterLoop k' pending) reply).sent = log := by
      cases pending <;> exact List.append_nil log
    rw [hlog]
    cases pending with
    | nil =>
      refine .nobody (List.forall_mem_singleton.mpr rfl) ?_
      rwa [Thread.Splits, List.append_nil] at h
    | cons pair pending => exact .single hold h
  | reRegisterSilent k' pair pending =>
    obtain rfl : k' = k := of_decide_eq_true hold
    refine .single hold ?_
    have hone : reRegisteredBy k' (log ++ [.reRegistered k' pair]) = reRegisteredBy k' log ++ [pair] := by
      rw [reRegisteredBy_append]
      simp [reRegisteredBy, Message.reRegisteredBy]
    change (reRegisteredBy k' (log ++ [.reRegistered k' pair]) ++ pending).Nodup
    rwa [hone, List.append_assoc]
  | _ => exact Bool.noConfusion hold

/-- Messages of a re-registration come from it. -/
theorem reRegisterSilent_of_mem (h : pair ∈ reRegisteredBy k (world.next old reply).sent) :
    ∃ pending, old = .reRegisterSilent k pair pending := by
  cases old with
  | reRegisterSilent k' p pending =>
    by_cases hk : k' = k
    · subst hk
      simp only [World.next, World.become, reRegisteredBy, Message.reRegisteredBy, if_true,
        List.filterMap_cons, List.filterMap_nil, List.mem_singleton] at h
      exact ⟨pending, by rw [h]⟩
    · simp [World.next, World.become, reRegisteredBy, Message.reRegisteredBy, hk] at h
  | reRegisterLoop k' pending => cases pending <;> exact absurd h List.not_mem_nil
  | registerSilent p | unregisterSilent p =>
    simp only [World.next, World.become] at h
    split at h <;> exact absurd h List.not_mem_nil
  | _ => exact absurd h List.not_mem_nil

theorem Thread.Splits.of_append {thread : Thread} (h : thread.Splits k log)
    (hsent : reRegisteredBy k sent = []) : thread.Splits k (log ++ sent) := by
  have hsame : reRegisteredBy k (log ++ sent) = reRegisteredBy k log := by
    rw [reRegisteredBy_append, hsent, List.append_nil]
  cases thread <;> simp only [Thread.Splits, hsame] <;> exact h

theorem restarted_next (h : Restarted pool log k) (hi : pool.threads[i]? = some old)
    (hnodup : pool.shared.observers.pairs.Nodup) (reply : ℤ) :
    Restarted ⟨(pool.shared.next old reply).shared,
        pool.threads.set i (pool.shared.next old reply).thread ++ (pool.shared.next old reply).started⟩
      (log ++ (pool.shared.next old reply).sent) k := by
  rw [started_next]
  constructor
  · refine h.registers.advance hi (fun hold => splits_next hold hnodup) (fun hold hidle _ => ?_)
      fun hold worker _ _ hsplits => ?_
    · obtain ⟨hmoved, hsent⟩ := isRestart_next hold
      refine .nobody (List.forall_mem_singleton.mpr hmoved) ?_
      rwa [reRegisteredBy_append, hsent, List.append_nil]
    · obtain ⟨hmoved, hsent⟩ := isRestart_next hold
      exact ⟨hsplits.of_append hsent, List.forall_mem_singleton.mpr hmoved⟩
  · intro hle
    have hrestarts : (pool.shared.next old reply).shared.restarts = pool.shared.restarts := by
      cases old with
      | reRegisterLoop k pending => cases pending <;> rfl
      | _ => rfl
    obtain ⟨hnone, hnil⟩ := h.fresh (hrestarts ▸ hle)
    obtain ⟨hmoved, hsent⟩ := isRestart_next (hnone old (List.mem_of_getElem? hi))
    refine ⟨fun thread hthread => ?_, by rw [reRegisteredBy_append, hnil, hsent]; rfl⟩
    refine (Machine.mem_or_of_mem_set_append hthread).elim (hnone thread) fun hnew => ?_
    rw [List.mem_singleton.mp hnew]
    exact hmoved

/-- A restart begins to register what is stored, after all earlier ones. -/
theorem restarted_outside (h : Restarted pool log k) (event : Outside) :
    Restarted ⟨(pool.shared.outside event).1, pool.threads ++ (pool.shared.outside event).2⟩ log k := by
  by_cases hevent : event = .onAddSystemAbility ∧ pool.shared.restarts = k
  · obtain ⟨rfl, rfl⟩ := hevent
    obtain ⟨hnone, hnil⟩ := h.fresh (Nat.le_refl _)
    refine ⟨.start hnone (.single (decide_eq_true rfl) hnil), fun hle => ?_⟩
    exact absurd hle (Nat.not_succ_le_self _)
  · have hstarted : ∀ thread ∈ (pool.shared.outside event).2, thread.isRestart k = false := by
      cases event with
      | onAddSystemAbility =>
        simpa [World.outside, Thread.isRestart] using hevent
      | _ => simp [World.outside, Thread.isRestart]
    have hle : pool.shared.restarts ≤ (pool.shared.outside event).1.restarts := by
      cases event with
      | onAddSystemAbility => exact Nat.le_succ _
      | _ => exact Nat.le_refl _
    refine ⟨h.registers.append hstarted, fun hk => ?_⟩
    obtain ⟨hnone, hrest⟩ := h.fresh (Nat.le_trans hle hk)
    refine ⟨fun thread hthread => ?_, hrest⟩
    exact (List.mem_append.mp hthread).elim (hnone thread) (hstarted thread)

theorem Restarted.nodup (h : Restarted pool log k) : (reRegisteredBy k log).Nodup := by
  rcases h.registers with ⟨-, hidle⟩ | ⟨worker, rest, -, hworks, -, hsplits⟩
  · exact hidle
  · cases worker with
    | reRegister =>
      rw [show reRegisteredBy k log = [] from hsplits]
      exact List.nodup_nil
    | reRegisterLoop | reRegisterSilent => exact (List.nodup_append.mp hsplits).1
    | _ => exact Bool.noConfusion hworks

end Restarts

/-! ## What a restart reaches -/

/-- A re-registration is under way. -/
def Thread.isRestarting : Thread → Bool
  | .reRegister _ | .reRegisterLoop _ _ | .reRegisterSilent _ _ _ => true
  | _ => false

/-- The thread is a user's unregistration of the pair. -/
def Thread.unregisters (pair : Pair) : Thread → Bool
  | .unregister p | .unregisterSilent p => p = pair
  | _ => false

/-- The `k`-th re-registration has yet to pass the pair to the observer service. -/
def Thread.carries (k : ℕ) (pair : Pair) : Thread → Bool
  | .reRegister k' => k' = k
  | .reRegisterLoop k' pending => k' = k ∧ pair ∈ pending
  | .reRegisterSilent k' p pending => k' = k ∧ pair ∈ p :: pending
  | _ => false

/-- While the `k`-th re-registration is the only one, a registered pair that nobody unregisters is
on the way to the observer service or has got there. -/
structure Restarting (k : ℕ) (pair : Pair) (pool : ControllerPool) (log : List Message) : Prop where
  recorded : Recorded pool log pair
  registered : registered pair log = true
  kept : ∀ thread ∈ pool.threads, thread.unregisters pair = false
  carried : OneWorker Thread.isRestarting (pair ∈ reRegisteredBy k log)
    (fun thread => thread.carries k pair = true ∨ pair ∈ reRegisteredBy k log) pool.threads

section Restarting

variable {pool : ControllerPool} {log : List Message} {k i : ℕ} {old : Thread} {pair : Pair}
  {world : World} {reply : ℤ}

theorem isRestarting_of_carries (h : old.carries k pair = true) : old.isRestarting = true := by
  cases old <;> first | rfl | exact Bool.noConfusion h

theorem isRestarting_next (h : old.isRestarting = false) :
    (world.next old reply).thread.isRestarting = false := by
  cases old <;> first | rfl | exact Bool.noConfusion h

theorem unregisters_next (h : old.unregisters pair = false) :
    (world.next old reply).thread.unregisters pair = false := by
  cases old with
  | reRegisterLoop k pending => cases pending <;> rfl
  | unregister => exact h
  | _ => rfl

/-- A registered pair stays so while nobody unregisters it. -/
theorem registered_next (h : registered pair log = true) (hold : old.unregisters pair = false) :
    registered pair (log ++ (world.next old reply).sent) = true := by
  rw [registered_append, h]
  cases old with
  | reRegisterLoop k pending => cases pending <;> rfl
  | registerSilent p =>
    simp only [World.next, World.become]
    split <;> rfl
  | unregisterSilent p =>
    have hne : p ≠ pair := of_decide_eq_false hold
    simp only [World.next, World.become]
    split <;> simp [acknowledges, hne]
  | _ => rfl

theorem carries_next (h : old.carries k pair = true)
    (hstored : old = .reRegister k → pair ∈ world.observers.pairs) :
    (world.next old reply).thread.carries k pair = true ∨
      .reRegistered k pair ∈ (world.next old reply).sent := by
  cases old with
  | reRegister k' =>
    obtain rfl : k' = k := of_decide_eq_true h
    exact .inl (decide_eq_true ⟨rfl, hstored rfl⟩)
  | reRegisterLoop k' pending =>
    cases pending with
    | nil => exact absurd (of_decide_eq_true h).2 List.not_mem_nil
    | cons p pending => exact .inl h
  | reRegisterSilent k' p pending =>
    obtain ⟨rfl, hmem⟩ := of_decide_eq_true h
    rcases List.mem_cons.mp hmem with rfl | hmem
    · exact .inr List.mem_cons_self
    · exact .inl (decide_eq_true ⟨rfl, hmem⟩)
  | _ => exact Bool.noConfusion h

/-- The re-registration finds the pair in the table. -/
theorem Restarting.stored (h : Restarting k pair pool log) (hmem : .reRegister k ∈ pool.threads) :
    pair ∈ pool.shared.observers.pairs := by
  have hheld : pair ∈ held pool := by
    rw [mem_held_iff]
    rcases h.recorded.count with ⟨-, hidle⟩ | ⟨worker, rest, hperm, hserves, -, hexpects⟩
    · rw [hidle, h.registered]
      exact Nat.one_pos
    · have hworker := h.kept worker (hperm.mem_iff.mpr List.mem_cons_self)
      cases worker with
      | registerSilent p => exact Nat.lt_of_lt_of_eq Nat.one_pos (Eq.symm hexpects)
      | unregisterSilent p => exact absurd (hworker.symm.trans hserves) Bool.false_ne_true
      | _ => exact Bool.noConfusion hserves
  refine (List.mem_append.mp hheld).resolve_right fun hpending => ?_
  obtain ⟨thread, hthread, hin⟩ := List.mem_flatMap.mp hpending
  have hrestarting : thread.isRestarting = true := by
    cases thread <;> first | rfl | exact absurd hin List.not_mem_nil
  rw [h.carried.unique hmem rfl hthread hrestarting] at hin
  exact absurd hin List.not_mem_nil

theorem Restarting.next (h : Restarting k pair pool log) (hi : pool.threads[i]? = some old)
    (horderly : Orderly pool (.advance i reply)) :
    Restarting k pair ⟨(pool.shared.next old reply).shared,
        pool.threads.set i (pool.shared.next old reply).thread ++ (pool.shared.next old reply).started⟩
      (log ++ (pool.shared.next old reply).sent) where
  recorded := recorded_next h.recorded hi horderly
  registered := registered_next h.registered (h.kept old (List.mem_of_getElem? hi))
  kept := by
    intro thread hthread
    rw [started_next] at hthread
    refine (Machine.mem_or_of_mem_set_append hthread).elim (h.kept thread) fun hnew => ?_
    rw [List.mem_singleton.mp hnew]
    exact unregisters_next (h.kept old (List.mem_of_getElem? hi))
  carried := by
    rw [started_next]
    refine h.carried.advance hi (fun _ hbusy => ?_) (fun hold hidle _ => ?_)
      fun hold _ _ _ hbusy => ⟨hbusy.imp_right mem_reRegisteredBy_append,
        List.forall_mem_singleton.mpr (isRestarting_next hold)⟩
    · have hmoved : (pool.shared.next old reply).thread.carries k pair = true ∨
          pair ∈ reRegisteredBy k (log ++ (pool.shared.next old reply).sent) := by
        rcases hbusy with hcarries | hdone
        · refine (carries_next hcarries ?_).imp_right fun hsent => ?_
          · rintro rfl
            exact h.stored (List.mem_of_getElem? hi)
          · refine List.mem_filterMap.mpr ⟨_, List.mem_append_right _ hsent, ?_⟩
            exact if_pos rfl
        · exact .inr (mem_reRegisteredBy_append hdone)
      rcases hworks : (pool.shared.next old reply).thread.isRestarting with _ | _
      · refine .nobody (List.forall_mem_singleton.mpr hworks) (hmoved.resolve_left fun hcarries => ?_)
        exact absurd (hworks.symm.trans (isRestarting_of_carries hcarries)) Bool.false_ne_true
      · exact .single hworks hmoved
    · exact .nobody (List.forall_mem_singleton.mpr (isRestarting_next hold))
        (mem_reRegisteredBy_append hidle)

theorem Restarting.step {event : ControllerEvent} (h : Restarting k pair pool log)
    (horderly : Orderly pool event) (hrestart : event ≠ .outside .onAddSystemAbility)
    (hunregister : event ≠ .outside (.unregisterObserver pair)) :
    Restarting k pair (controllerMachine.step pool event).1
      (log ++ (controllerMachine.step pool event).2) := by
  refine Machine.step_invariant h ?_ ?_
  · rintro e rfl
    have hstarted : ∀ thread ∈ (pool.shared.outside e).2,
        thread.isRestarting = false ∧ thread.unregisters pair = false := by
      cases e with
      | onAddSystemAbility => exact absurd rfl hrestart
      | registerObserver p => exact List.forall_mem_singleton.mpr ⟨rfl, rfl⟩
      | unregisterObserver p =>
        refine List.forall_mem_singleton.mpr ⟨rfl, decide_eq_false ?_⟩
        rintro rfl
        exact hunregister rfl
    refine ⟨recorded_outside h.recorded e, h.registered, fun thread hthread => ?_,
      h.carried.append fun thread hthread => (hstarted thread hthread).1⟩
    exact (List.mem_append.mp hthread).elim (h.kept thread) fun hmem => (hstarted thread hmem).2
  · rintro i reply thread rfl hi
    exact h.next hi horderly

/-- The restart begins. -/
theorem restarting_of_restart (h : Recorded pool log pair) (hregistered : registered pair log = true)
    (hthreads : ∀ thread ∈ pool.threads, thread.isRestarting = false ∧ thread.unregisters pair = false) :
    Restarting pool.shared.restarts pair
      (controllerMachine.step pool (.outside .onAddSystemAbility)).1 log where
  recorded := recorded_outside h .onAddSystemAbility
  registered := hregistered
  kept := by
    intro thread hthread
    rcases List.mem_append.mp hthread with hthread | hthread
    · exact (hthreads thread hthread).2
    · rw [List.mem_singleton.mp hthread]
      rfl
  carried := .start (fun thread hthread => (hthreads thread hthread).1)
    (.single rfl (.inl (decide_eq_true rfl)))

end Restarting

/-! ## Runs -/

/-- What holds after every orderly run. -/
structure Kept (pool : ControllerPool) (log : List Message) : Prop where
  recorded : ∀ pair, Recorded pool log pair
  restarted : ∀ k, Restarted pool log k

/-- No call is under way. -/
def Quiet (pool : ControllerPool) : Prop :=
  ∀ thread ∈ pool.threads, thread = .finished

instance : DecidablePred Quiet := fun pool => by
  unfold Quiet
  infer_instance

/-- The thread is a user's call. -/
def Thread.isUser : Thread → Bool
  | .register _ | .registerSilent _ | .unregister _ | .unregisterSilent _ => true
  | _ => false

/-- A user's call begins. -/
def isUserCall : ControllerEvent → Bool
  | .outside (.registerObserver _) | .outside (.unregisterObserver _) => true
  | _ => false

/-- The controller and the messages after `events`. -/
def run (events : List ControllerEvent) : ControllerPool × List Message :=
  controllerMachine.run initial events

/-- Silent observers survive restarts. A quiet table holds the registered pairs, each once. A
restart of a quiet controller registers each pair of its table again, once ; while users go on, it
registers each pair that is registered and that nobody unregisters, and none twice. What is
registered again is registered, or being registered by a user, and restarts alone leave the table as
it is. -/
structure Survive (events : List ControllerEvent) : Prop where
  stored : Quiet (run events).1 → (run events).1.shared.observers.pairs.Nodup ∧
    ∀ pair, pair ∈ (run events).1.shared.observers.pairs ↔ registered pair (run events).2 = true
  again : ∀ before callback after,
    events = before ++ .outside .onAddSystemAbility :: (callback ++ after) →
    Quiet (run before).1 → (∀ event ∈ callback, isUserCall event = false) →
    .outside .onAddSystemAbility ∉ callback →
    let returned := run (before ++ .outside .onAddSystemAbility :: callback)
    Quiet returned.1 → (reRegisteredBy (run before).1.shared.restarts returned.2).Perm
      (run before).1.shared.observers.pairs
  each : ∀ before callback after pair,
    events = before ++ .outside .onAddSystemAbility :: (callback ++ after) →
    registered pair (run before).2 = true →
    (∀ thread ∈ (run before).1.threads,
      thread.isRestarting = false ∧ thread.unregisters pair = false) →
    .outside .onAddSystemAbility ∉ callback → .outside (.unregisterObserver pair) ∉ callback →
    let returned := run (before ++ .outside .onAddSystemAbility :: callback)
    (∀ thread ∈ returned.1.threads, thread.isRestarting = false) →
    pair ∈ reRegisteredBy (run before).1.shared.restarts returned.2
  once : ∀ k, (reRegisteredBy k (run events).2).Nodup
  sound : ∀ before i reply after k pair pending, events = before ++ .advance i reply :: after →
    (run before).1.threads[i]? = some (.reRegisterSilent k pair pending) →
      registered pair (run before).2 = true ∨ .registerSilent pair ∈ (run before).1.threads
  stable : ∀ before more, events = before ++ more → Quiet (run before).1 → Quiet (run events).1 →
    (∀ event ∈ more, isUserCall event = false) →
      (run events).1.shared.observers.pairs.Perm (run before).1.shared.observers.pairs

section Runs

variable {pool : ControllerPool} {log : List Message} {pair : Pair} {events : List ControllerEvent}

theorem Recorded.count_le_one (h : Recorded pool log pair) : (held pool).count pair ≤ 1 := by
  rcases h.count with ⟨-, hidle⟩ | ⟨worker, rest, -, hserves, -, hexpects⟩
  · rw [hidle]
    split <;> omega
  · cases worker with
    | registerSilent => exact Nat.le_of_eq hexpects
    | unregisterSilent => exact Nat.le_trans (Nat.le_of_eq hexpects) (Nat.zero_le 1)
    | _ => exact Bool.noConfusion hserves

theorem nodup_pairs (h : ∀ pair, Recorded pool log pair) : pool.shared.observers.pairs.Nodup := by
  refine List.nodup_iff_count_le_one.mpr fun pair => Nat.le_trans ?_ (h pair).count_le_one
  rw [held, List.count_append]
  exact Nat.le_add_right _ _

theorem kept_initial : Kept initial [] where
  recorded pair := ⟨.nobody (by simp [initial]) rfl, by simp [initial]⟩
  restarted k := ⟨.nobody (by simp [initial]) List.nodup_nil, fun _ => ⟨by simp [initial], rfl⟩⟩

theorem kept_step {event : ControllerEvent} (h : Kept pool log) (horderly : Orderly pool event) :
    Kept (controllerMachine.step pool event).1 (log ++ (controllerMachine.step pool event).2) := by
  refine Machine.step_invariant h ?_ ?_
  · exact fun e _ => ⟨fun pair => recorded_outside (h.recorded pair) e,
      fun k => restarted_outside (h.restarted k) e⟩
  · rintro i reply thread rfl hi
    exact ⟨fun pair => recorded_next (h.recorded pair) hi horderly,
      fun k => restarted_next (h.restarted k) hi (nodup_pairs h.recorded) reply⟩

theorem run_concat (events : List ControllerEvent) (event : ControllerEvent) :
    run (events ++ [event]) = ((controllerMachine.step (run events).1 event).1,
      (run events).2 ++ (controllerMachine.step (run events).1 event).2) :=
  runCalls_concat _ _ _ _

theorem kept_run (h : AllowedRun controllerMachine.step Orderly initial events) :
    Kept (run events).1 (run events).2 :=
  h.invariant kept_initial fun _ _ _ horderly hkept => kept_step hkept horderly

/-- In a quiet pool the table holds what is registered. -/
theorem Kept.stored (h : Kept pool log) (hquiet : Quiet pool) :
    pool.shared.observers.pairs.Nodup ∧
      ∀ pair, pair ∈ pool.shared.observers.pairs ↔ registered pair log = true := by
  refine ⟨nodup_pairs h.recorded, fun pair => ?_⟩
  have hserves : ∀ thread ∈ pool.threads, thread.serves pair = false := fun thread hthread => by
    rw [hquiet thread hthread]
    rfl
  have hcount := (h.recorded pair).count.idle_of_none hserves
  have hpending : pool.threads.flatMap Thread.pending = [] :=
    List.flatMap_eq_nil_iff.mpr fun thread hthread => by rw [hquiet thread hthread]; rfl
  rw [held, hpending, List.append_nil] at hcount
  rw [← List.count_pos_iff, hcount]
  split <;> simp [*]

/-- Without a user's call nothing is answered to a user. -/
theorem registered_of_not_isUserCall {before more : List ControllerEvent}
    (hbefore : ∀ thread ∈ (run before).1.threads, thread.isUser = false)
    (hmore : ∀ event ∈ more, isUserCall event = false) :
    (∀ thread ∈ (run (before ++ more)).1.threads, thread.isUser = false) ∧
      ∀ pair, registered pair (run (before ++ more)).2 = registered pair (run before).2 := by
  induction more using List.reverseRecOn with
  | nil =>
    rw [List.append_nil]
    exact ⟨hbefore, fun _ => rfl⟩
  | append_singleton more event ih =>
    obtain ⟨hthreads, hregistered⟩ := ih fun e he => hmore e (List.mem_append_left _ he)
    have hevent := hmore event (List.mem_append_right _ (List.mem_singleton.mpr rfl))
    rw [← List.append_assoc, run_concat]
    refine @Machine.step_invariant _ _ _ _ _ controllerMachine (run (before ++ more)).1
      (fun pool log => (∀ thread ∈ pool.threads, thread.isUser = false) ∧
        ∀ pair, registered pair log = registered pair (run before).2)
      (run (before ++ more)).2 event ⟨hthreads, hregistered⟩ ?_ ?_
    · rintro e rfl
      refine ⟨fun thread hthread => (List.mem_append.mp hthread).elim (hthreads thread) ?_, hregistered⟩
      cases e with
      | onAddSystemAbility =>
        intro hthread
        rw [List.mem_singleton.mp hthread]
        rfl
      | _ => exact Bool.noConfusion hevent
    · intro i reply thread _ hi
      have huser := hthreads thread (List.mem_of_getElem? hi)
      have hmoved : (controllerMachine.next (run (before ++ more)).1.shared thread reply).thread.isUser =
            false ∧
          (controllerMachine.next (run (before ++ more)).1.shared thread reply).started = [] ∧
          ∀ pair, registered pair ((run (before ++ more)).2 ++
            (controllerMachine.next (run (before ++ more)).1.shared thread reply).sent) =
              registered pair (run (before ++ more)).2 := by
        cases thread with
        | reRegisterLoop k pending =>
          cases pending <;> exact ⟨rfl, rfl, fun pair => registered_append pair _ _⟩
        | reRegister | reRegisterSilent | finished =>
          exact ⟨rfl, rfl, fun pair => registered_append pair _ _⟩
        | _ => exact Bool.noConfusion huser
      obtain ⟨hthread, hstarted, hsent⟩ := hmoved
      refine ⟨fun other hother => ?_, fun pair => (hsent pair).trans (hregistered pair)⟩
      rw [hstarted] at hother
      refine (Machine.mem_or_of_mem_set_append hother).elim (hthreads other) fun hnew => ?_
      rw [List.mem_singleton.mp hnew]
      exact hthread

/-- What is being registered again is registered, or being registered by a user. -/
theorem Kept.registered_or {k : ℕ} {pending : List Pair} (h : Kept pool log)
    (hmem : .reRegisterSilent k pair pending ∈ pool.threads) :
    registered pair log = true ∨ .registerSilent pair ∈ pool.threads := by
  have hheld := (h.recorded pair).stored k pending hmem
  rw [mem_held_iff] at hheld
  rcases (h.recorded pair).count with ⟨-, hidle⟩ | ⟨worker, rest, hperm, hserves, -, hexpects⟩
  · rw [hidle] at hheld
    refine .inl ?_
    by_contra hnot
    rw [if_neg hnot] at hheld
    exact Nat.lt_irrefl 0 hheld
  · cases worker with
    | registerSilent p =>
      obtain rfl : p = pair := of_decide_eq_true hserves
      exact .inr (hperm.mem_iff.mpr List.mem_cons_self)
    | unregisterSilent p =>
      have hnone : (held pool).count pair = 0 := hexpects
      omega
    | _ => exact Bool.noConfusion hserves

/-- Without a user's call only what is registered is registered again. -/
theorem registered_of_reRegisteredBy {before more : List ControllerEvent} {k : ℕ}
    (h : AllowedRun controllerMachine.step Orderly initial (before ++ more))
    (hbefore : ∀ thread ∈ (run before).1.threads, thread.isUser = false)
    (hmore : ∀ event ∈ more, isUserCall event = false)
    (hpair : pair ∈ reRegisteredBy k (run (before ++ more)).2) :
    pair ∈ reRegisteredBy k (run before).2 ∨ registered pair (run before).2 = true := by
  induction more using List.reverseRecOn with
  | nil =>
    rw [List.append_nil] at hpair
    exact .inl hpair
  | append_singleton more event ih =>
    have hfront : ∀ event ∈ more, isUserCall event = false :=
      fun e he => hmore e (List.mem_append_left _ he)
    obtain ⟨hthreads, hregistered⟩ := registered_of_not_isUserCall hbefore hfront
    rw [← List.append_assoc] at h hpair
    rw [run_concat, reRegisteredBy_append] at hpair
    rcases List.mem_append.mp hpair with hpair | hpair
    · exact ih h.of_append.1 hfront hpair
    · refine .inr ?_
      rcases event with e | ⟨i, reply⟩
      · exact absurd hpair List.not_mem_nil
      · rcases hi : (run (before ++ more)).1.threads[i]? with _ | thread
        · rw [Machine.step_advance_of_none hi] at hpair
          exact absurd hpair List.not_mem_nil
        · rw [Machine.step_advance_of_some hi] at hpair
          obtain ⟨pending, rfl⟩ := reRegisterSilent_of_mem hpair
          have hmem := List.mem_of_getElem? hi
          refine ((kept_run h.of_append.1).registered_or hmem).elim
            (fun hreg => (hregistered pair).symm.trans hreg) fun huser => ?_
          exact absurd (hthreads _ huser) (by simp [Thread.isUser])

theorem restarting_run {before callback : List ControllerEvent}
    (h : AllowedRun controllerMachine.step Orderly initial
      (before ++ .outside .onAddSystemAbility :: callback))
    (hregistered : registered pair (run before).2 = true)
    (hthreads : ∀ thread ∈ (run before).1.threads,
      thread.isRestarting = false ∧ thread.unregisters pair = false)
    (hrestart : .outside .onAddSystemAbility ∉ callback)
    (hunregister : .outside (.unregisterObserver pair) ∉ callback) :
    Restarting (run before).1.shared.restarts pair
      (run (before ++ .outside .onAddSystemAbility :: callback)).1
      (run (before ++ .outside .onAddSystemAbility :: callback)).2 := by
  induction callback using List.reverseRecOn with
  | nil =>
    rw [run_concat]
    have hlog : (run before).2 ++ (controllerMachine.step (run before).1
        (.outside .onAddSystemAbility)).2 = (run before).2 := List.append_nil _
    rw [hlog]
    exact restarting_of_restart ((kept_run h.of_append.1).recorded pair) hregistered hthreads
  | append_singleton callback event ih =>
    rw [List.mem_append, List.mem_singleton, not_or] at hrestart hunregister
    rw [← List.cons_append, ← List.append_assoc] at h ⊢
    rw [run_concat]
    exact (ih h.of_append.1 hrestart.1 hunregister.1).step (h _ event [] rfl) (Ne.symm hrestart.2)
      (Ne.symm hunregister.2)

end Runs

/-- In an orderly run silent observers survive restarts. -/
theorem silent_observers_survive_restarts {events : List ControllerEvent}
    (h : AllowedRun controllerMachine.step Orderly initial events) : Survive events where
  stored := (kept_run h).stored
  again := by
    rintro before callback after rfl hquiet huser hrestart returned hreturned
    rw [← List.cons_append, ← List.append_assoc] at h
    have hkept := kept_run h.of_append.1
    have hbefore := kept_run h.of_append.1.of_append.1
    obtain ⟨hnodup, hmem⟩ := hbefore.stored hquiet
    have hidle : ∀ thread ∈ (run before).1.threads, thread.isUser = false := fun thread hthread => by
      rw [hquiet thread hthread]
      rfl
    refine (List.perm_ext_iff_of_nodup (hkept.restarted _).nodup hnodup).mpr fun pair => ?_
    rw [hmem]
    constructor
    · intro hpair
      refine (registered_of_reRegisteredBy h.of_append.1 hidle ?_ hpair).resolve_left ?_
      · exact List.forall_mem_cons.mpr ⟨rfl, huser⟩
      · rw [((hbefore.restarted _).fresh (Nat.le_refl _)).2]
        exact List.not_mem_nil
    · intro hregistered
      refine (restarting_run h.of_append.1 hregistered ?_ hrestart ?_).carried.idle_of_none ?_
      · intro thread hthread
        rw [hquiet thread hthread]
        exact ⟨rfl, rfl⟩
      · exact fun hin => Bool.noConfusion (huser _ hin)
      · intro thread hthread
        rw [hreturned thread hthread]
        rfl
  each := by
    rintro before callback after pair rfl hregistered hthreads hrestart hunregister returned hdone
    rw [← List.cons_append, ← List.append_assoc] at h
    exact (restarting_run h.of_append.1 hregistered hthreads hrestart
      hunregister).carried.idle_of_none hdone
  once k := ((kept_run h).restarted k).nodup
  sound := by
    rintro before i reply after k pair pending rfl hi
    exact (kept_run h.of_append.1).registered_or (List.mem_of_getElem? hi)
  stable := by
    rintro before more rfl hbefore hafter hmore
    obtain ⟨hnodup, hmem⟩ := (kept_run h.of_append.1).stored hbefore
    obtain ⟨hnodup', hmem'⟩ := (kept_run h).stored hafter
    have huser : ∀ thread ∈ (run before).1.threads, thread.isUser = false := fun thread hthread => by
      rw [hbefore thread hthread]
      rfl
    have hsame := (registered_of_not_isUserCall huser hmore).2
    refine (List.perm_ext_iff_of_nodup hnodup' hnodup).mpr fun pair => ?_
    rw [hmem', hmem, hsame]

/-- A registration, and two restarts of the service. During the second one a second observer is
registered. -/
def restartedTwice : List ControllerEvent :=
  ([.outside (.registerObserver (1, "uri")), .advance 0 0, .advance 0 0] : List ControllerEvent) ++
    ([.outside .onAddSystemAbility, .advance 1 0, .advance 1 0, .advance 1 1, .advance 1 0] :
      List ControllerEvent) ++
    ([.outside .onAddSystemAbility, .advance 2 0, .outside (.registerObserver (2, "uri")), .advance 3 0,
      .advance 2 0, .advance 3 0, .advance 2 0, .advance 2 0] : List ControllerEvent)

/-- The first observer is registered again at each restart, once. -/
theorem silent_observer_survives_restarts : Survive restartedTwice ∧
    (run restartedTwice).1.shared.observers.pairs = [(2, "uri"), (1, "uri")] ∧
    reRegisteredBy 0 (run restartedTwice).2 = [(1, "uri")] ∧
    reRegisteredBy 1 (run restartedTwice).2 = [(1, "uri")] :=
  ⟨silent_observers_survive_restarts (throughout_iff_getElem.mpr (by decide +kernel)),
    by decide +kernel, by decide +kernel, by decide +kernel⟩

/-- A registration that the observer service refuses stays in the table. -/
theorem refused_observer_stays_stored : ¬ Survive
    [.outside (.registerObserver (1, "uri")), .advance 0 0, .advance 0 1] := by
  intro h
  have hstored := (h.stored (by decide +kernel)).2 (1, "uri")
  exact absurd (hstored.mp (by decide +kernel)) (by decide +kernel)

end GeneralControllerServiceImpl

end Rust

end DataShare
