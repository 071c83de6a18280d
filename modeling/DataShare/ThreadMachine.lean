import DataShare.Threads

/-!
# Machines of threads

Threads that share a state and depend on what is outside. A `Machine` says what an event of the
outside does and which threads it starts, and what a thread's next step does once the outside has
replied to it : how it moves, the threads it starts and the messages it sends. A run of events is an
interleaving of all threads.

`OneWorker` is the invariant of machines in which at most one thread works on something at a time :
either no thread works and a fact about the state holds, or one thread works and a fact about the state
and where it stands does. It is kept if the worker's own steps keep it, the other threads' steps do not
disturb it, and work is only begun when nobody works (`OneWorker.advance`, `OneWorker.start`).
-/

namespace DataShare

/-- Something happens outside, or the `i`-th thread makes its next step with the outside's reply. -/
inductive MachineEvent (ι α : Type) where
  | outside (event : ι)
  | advance (i : ℕ) (reply : α)
  deriving DecidableEq

/-- What a step of a thread does. -/
structure MachineMove (σ τ ρ : Type) where
  shared : σ
  thread : τ
  started : List τ
  sent : List ρ

structure Machine (σ τ ι α ρ : Type) where
  outside : σ → ι → σ × List τ
  next : σ → τ → α → MachineMove σ τ ρ

namespace Machine

variable {σ τ ι α ρ : Type} (machine : Machine σ τ ι α ρ)

/-- One event. A thread that is not there does not move. -/
def step (pool : Pool σ τ) : MachineEvent ι α → Pool σ τ × List ρ
  | .outside event =>
    let after := machine.outside pool.shared event
    (⟨after.1, pool.threads ++ after.2⟩, [])
  | .advance i reply =>
    match pool.threads[i]? with
    | none => (pool, [])
    | some thread =>
      let moved := machine.next pool.shared thread reply
      (⟨moved.shared, pool.threads.set i moved.thread ++ moved.started⟩, moved.sent)

/-- The pool and the messages after `events`. -/
def run (pool : Pool σ τ) (events : List (MachineEvent ι α)) : Pool σ τ × List ρ :=
  runCalls machine.step pool events

variable {machine} {pool : Pool σ τ} {i : ℕ} {reply : α}

theorem step_advance_of_none (h : pool.threads[i]? = none) :
    machine.step pool (.advance i reply) = (pool, []) := by
  simp only [step, h]

theorem step_advance_of_some {thread : τ} (h : pool.threads[i]? = some thread) :
    machine.step pool (.advance i reply) =
      (⟨(machine.next pool.shared thread reply).shared,
        pool.threads.set i (machine.next pool.shared thread reply).thread ++
          (machine.next pool.shared thread reply).started⟩,
        (machine.next pool.shared thread reply).sent) := by
  simp only [step, h]

/-- A fact about state and log is kept by a step if it is by what happens outside and by every
thread's step. -/
theorem step_invariant {P : Pool σ τ → List ρ → Prop} {log : List ρ}
    {event : MachineEvent ι α} (h : P pool log)
    (houtside : ∀ e, event = .outside e →
      P ⟨(machine.outside pool.shared e).1, pool.threads ++ (machine.outside pool.shared e).2⟩ log)
    (hnext : ∀ i reply thread, event = .advance i reply → pool.threads[i]? = some thread →
      P ⟨(machine.next pool.shared thread reply).shared,
        pool.threads.set i (machine.next pool.shared thread reply).thread ++
          (machine.next pool.shared thread reply).started⟩
        (log ++ (machine.next pool.shared thread reply).sent)) :
    P (machine.step pool event).1 (log ++ (machine.step pool event).2) := by
  rcases event with e | ⟨i, reply⟩
  · rw [step, List.append_nil]
    exact houtside e rfl
  · rcases hi : pool.threads[i]? with _ | thread
    · rw [step_advance_of_none hi, List.append_nil]
      exact h
    · rw [step_advance_of_some hi]
      exact hnext i reply thread rfl hi

/-- A fact about the state that everything outside and every thread's step keeps. -/
structure Keeps (machine : Machine σ τ ι α ρ) (P : Pool σ τ → Prop) : Prop where
  outside : ∀ {pool} event, P pool →
    P ⟨(machine.outside pool.shared event).1, pool.threads ++ (machine.outside pool.shared event).2⟩
  next : ∀ {pool i thread} reply, P pool → pool.threads[i]? = some thread →
    P ⟨(machine.next pool.shared thread reply).shared,
      pool.threads.set i (machine.next pool.shared thread reply).thread ++
        (machine.next pool.shared thread reply).started⟩

theorem Keeps.step {P : Pool σ τ → Prop} (hkeeps : machine.Keeps P) (h : P pool)
    (event : MachineEvent ι α) : P (machine.step pool event).1 := by
  rcases event with e | ⟨i, reply⟩
  · exact hkeeps.outside e h
  · rcases hi : pool.threads[i]? with _ | thread
    · rwa [step_advance_of_none hi]
    · rw [step_advance_of_some hi]
      exact hkeeps.next reply h hi

theorem Keeps.run {P : Pool σ τ → Prop} (hkeeps : machine.Keeps P) (h : P pool)
    (events : List (MachineEvent ι α)) : P (machine.run pool events).1 := by
  induction events using List.reverseRecOn with
  | nil => exact h
  | append_singleton events event ih =>
    rw [Machine.run, runCalls_concat]
    exact hkeeps.step ih event

theorem getElem?_step_self {thread : τ} (h : pool.threads[i]? = some thread) :
    (machine.step pool (.advance i reply)).1.threads[i]? =
      some (machine.next pool.shared thread reply).thread := by
  have hlt := (List.getElem?_eq_some_iff.mp h).1
  rw [step_advance_of_some h, List.getElem?_append_left (by simpa using hlt),
    List.getElem?_set_self hlt]

/-- A thread stays where it is in a step that is not its own. -/
theorem getElem?_step {event : MachineEvent ι α} {j : ℕ} {thread : τ}
    (h : pool.threads[j]? = some thread) (hnot : ∀ reply, event ≠ .advance j reply) :
    (machine.step pool event).1.threads[j]? = some thread := by
  have hj := (List.getElem?_eq_some_iff.mp h).1
  rcases event with e | ⟨i, reply⟩
  · exact (List.getElem?_append_left hj).trans h
  · have hij : i ≠ j := fun heq => hnot reply (heq ▸ rfl)
    rcases hi : pool.threads[i]? with _ | moving
    · rw [step_advance_of_none hi]
      exact h
    · rw [step_advance_of_some hi]
      have hset : j < (pool.threads.set i (machine.next pool.shared moving reply).thread).length := by
        rwa [List.length_set]
      exact (List.getElem?_append_left hset).trans ((List.getElem?_set_ne hij).trans h)

end Machine

/-- A thread that is there after one has moved and started others was there before, or is one of
these. -/
theorem Machine.mem_or_of_mem_set_append {τ : Type} {threads started : List τ} {i : ℕ}
    {moved thread : τ} (h : thread ∈ threads.set i moved ++ started) :
    thread ∈ threads ∨ thread ∈ moved :: started := by
  rcases List.mem_append.mp h with h | h
  · rcases List.mem_or_eq_of_mem_set h with h | rfl
    · exact .inl h
    · exact .inr List.mem_cons_self
  · exact .inr (List.mem_cons_of_mem moved h)

/-! ## One worker at a time -/

section OneWorker

variable {τ : Type} {works : τ → Bool} {idle idle' : Prop} {busy busy' : τ → Prop}
  {threads started : List τ}

/-- No thread works and `idle` holds, or one works and is at `busy`. -/
def OneWorker (works : τ → Bool) (idle : Prop) (busy : τ → Prop) (threads : List τ) : Prop :=
  ((∀ thread ∈ threads, works thread = false) ∧ idle) ∨
    ∃ worker rest, threads.Perm (worker :: rest) ∧ works worker = true ∧
      (∀ thread ∈ rest, works thread = false) ∧ busy worker

theorem OneWorker.nobody (h : ∀ thread ∈ threads, works thread = false) (hidle : idle) :
    OneWorker works idle busy threads :=
  .inl ⟨h, hidle⟩

theorem OneWorker.single {thread : τ} (h : works thread = true) (hbusy : busy thread) :
    OneWorker works idle busy [thread] :=
  .inr ⟨thread, [], .refl _, h, by simp, hbusy⟩

theorem OneWorker.of_perm {threads' : List τ} (h : OneWorker works idle busy threads)
    (hperm : threads'.Perm threads) : OneWorker works idle busy threads' := by
  rcases h with ⟨hnone, hidle⟩ | ⟨worker, rest, hworker, hrest⟩
  · exact .inl ⟨fun thread hthread => hnone thread (hperm.mem_iff.mp hthread), hidle⟩
  · exact .inr ⟨worker, rest, hperm.trans hworker, hrest⟩

/-- The fact of the worker, if there is one. -/
theorem OneWorker.busy_of_mem (h : OneWorker works idle busy threads) {thread : τ}
    (hmem : thread ∈ threads) (hworks : works thread = true) : busy thread := by
  rcases h with ⟨hnone, -⟩ | ⟨worker, rest, hperm, -, hrest, hbusy⟩
  · exact absurd (hnone thread hmem) (by simp [hworks])
  · rcases List.mem_cons.mp (hperm.mem_iff.mp hmem) with rfl | hmem
    · exact hbusy
    · exact absurd (hrest thread hmem) (by simp [hworks])

theorem OneWorker.unique (h : OneWorker works idle busy threads) {thread other : τ}
    (hmem : thread ∈ threads) (hworks : works thread = true) (hmem' : other ∈ threads)
    (hworks' : works other = true) : other = thread := by
  rcases h with ⟨hnone, -⟩ | ⟨worker, rest, hperm, -, hrest, -⟩
  · exact absurd (hnone thread hmem) (by simp [hworks])
  · have hworker {x : τ} (hx : x ∈ threads) (hxworks : works x = true) : x = worker := by
      refine (List.mem_cons.mp (hperm.mem_iff.mp hx)).resolve_right fun hin => ?_
      simp [hrest x hin] at hxworks
    rw [hworker hmem hworks, hworker hmem' hworks']

/-- Beside the worker nobody works. -/
theorem OneWorker.others (h : OneWorker works idle busy threads) {thread : τ} {rest : List τ}
    (hperm : threads.Perm (thread :: rest)) (hworks : works thread = true) :
    ∀ other ∈ rest, works other = false := by
  rcases h with ⟨hnone, -⟩ | ⟨worker, rest', hperm', -, hrest', -⟩
  · exact absurd (hnone thread (hperm.mem_iff.mpr List.mem_cons_self)) (by simp [hworks])
  · have heq : thread = worker := by
      rcases List.mem_cons.mp (hperm'.mem_iff.mp (hperm.mem_iff.mpr List.mem_cons_self)) with
        heq | hin
      · exact heq
      · exact absurd (hrest' thread hin) (by simp [hworks])
    subst heq
    exact fun other hother => hrest' other
      ((List.Perm.cons_inv (hperm'.symm.trans hperm)).mem_iff.mpr hother)

theorem OneWorker.idle_of_none (h : OneWorker works idle busy threads)
    (hnone : ∀ thread ∈ threads, works thread = false) : idle := by
  rcases h with ⟨-, hidle⟩ | ⟨worker, rest, hperm, hworks, -⟩
  · exact hidle
  · have := hnone worker (hperm.mem_iff.mpr List.mem_cons_self)
    simp [hworks] at this

/-- The facts may change as long as nothing moves. -/
theorem OneWorker.mono (h : OneWorker works idle busy threads) (hidle : idle → idle')
    (hbusy : ∀ thread, works thread = true → busy thread → busy' thread) :
    OneWorker works idle' busy' threads := by
  rcases h with ⟨hnone, h⟩ | ⟨worker, rest, hperm, hworks, hrest, h⟩
  · exact .inl ⟨hnone, hidle h⟩
  · exact .inr ⟨worker, rest, hperm, hworks, hrest, hbusy worker hworks h⟩

/-- Threads that do not work join. -/
theorem OneWorker.append (h : OneWorker works idle busy threads)
    (hstarted : ∀ thread ∈ started, works thread = false) :
    OneWorker works idle busy (threads ++ started) := by
  rcases h with ⟨hnone, hidle⟩ | ⟨worker, rest, hperm, hworks, hrest, hbusy⟩
  · refine .inl ⟨fun thread hthread => ?_, hidle⟩
    exact (List.mem_append.mp hthread).elim (hnone thread) (hstarted thread)
  · refine .inr ⟨worker, rest ++ started, hperm.append_right started, hworks, ?_, hbusy⟩
    exact fun thread hthread => (List.mem_append.mp hthread).elim (hrest thread) (hstarted thread)

/-- A thread that does not work comes first. -/
theorem OneWorker.cons {thread : τ} (hthread : works thread = false)
    (h : OneWorker works idle busy threads) : OneWorker works idle busy (thread :: threads) :=
  have happend : OneWorker works idle busy (threads ++ [thread]) := h.append (by simp [hthread])
  happend.of_perm (List.perm_append_singleton thread threads).symm

/-- New threads are started when nobody works. -/
theorem OneWorker.start (hnone : ∀ thread ∈ threads, works thread = false)
    (h : OneWorker works idle busy started) : OneWorker works idle busy (threads ++ started) :=
  (h.append hnone).of_perm List.perm_append_comm

/-- The `i`-th thread moves and starts others : the worker keeps the fact itself, and another thread
leaves the facts alone and begins work only when nobody works. -/
theorem OneWorker.advance {i : ℕ} {old moved : τ} (h : OneWorker works idle busy threads)
    (hi : threads[i]? = some old)
    (hworker : works old = true → busy old → OneWorker works idle' busy' (moved :: started))
    (hother : works old = false → idle → (∀ thread ∈ threads, works thread = false) →
      OneWorker works idle' busy' (moved :: started))
    (hleft : works old = false → ∀ worker ∈ threads, works worker = true → busy worker →
      busy' worker ∧ ∀ thread ∈ moved :: started, works thread = false) :
    OneWorker works idle' busy' (threads.set i moved ++ started) := by
  obtain ⟨rest, hold, hmoved⟩ := Protocol.exists_perm_set hi
  have hperm : (threads.set i moved ++ started).Perm (rest ++ moved :: started) :=
    ((hmoved moved).append_right started).trans List.perm_middle.symm
  refine OneWorker.of_perm ?_ hperm
  have hmem : ∀ thread ∈ rest, thread ∈ threads :=
    fun thread hthread => hold.mem_iff.mpr (List.mem_cons_of_mem old hthread)
  have holdmem : old ∈ threads := hold.mem_iff.mpr List.mem_cons_self
  rcases hworks : works old with _ | _
  · rcases h with ⟨hnone, hidle⟩ | ⟨worker, rest', hperm', hworker', hrest', hbusy⟩
    · exact .start (fun thread hthread => hnone thread (hmem thread hthread))
        (hother hworks hidle hnone)
    · -- the worker is among the others, and stays there
      have hin : worker ∈ threads := hperm'.mem_iff.mpr List.mem_cons_self
      obtain ⟨hbusy', hstarted⟩ := hleft hworks worker hin hworker' hbusy
      have hne : worker ∈ rest := by
        rcases List.mem_cons.mp (hold.mem_iff.mp hin) with rfl | hin
        · simp [hworker'] at hworks
        · exact hin
      obtain ⟨others, hothers⟩ : ∃ others, rest.Perm (worker :: others) := by
        obtain ⟨front, back, rfl⟩ := List.append_of_mem hne
        exact ⟨front ++ back, List.perm_middle⟩
      have hlist : (worker :: rest').Perm (worker :: old :: others) :=
        (hperm'.symm.trans hold).trans ((hothers.cons old).trans (.swap worker old others))
      refine OneWorker.append (.inr ⟨worker, others, hothers, hworker', ?_, hbusy'⟩) hstarted
      exact fun thread hthread => hrest' thread
        ((List.Perm.cons_inv hlist).mem_iff.mpr (List.mem_cons_of_mem old hthread))
  · -- the worker moves : the others do not work
    have hnone : ∀ thread ∈ rest, works thread = false := by
      rcases h with ⟨hnone, -⟩ | ⟨worker, rest', hperm', hworker', hrest', -⟩
      · exact fun thread hthread => hnone thread (hmem thread hthread)
      · have heq : old = worker := by
          rcases List.mem_cons.mp (hperm'.mem_iff.mp holdmem) with heq | hin
          · exact heq
          · exact absurd (hrest' old hin) (by simp [hworks])
        subst heq
        exact fun thread hthread => hrest' thread
          ((List.Perm.cons_inv (hperm'.symm.trans hold)).mem_iff.mpr hthread)
    exact .start hnone (hworker hworks (h.busy_of_mem holdmem hworks))

end OneWorker

end DataShare
