import DataShare.ThreadMachine
import Mathlib.Data.Fintype.Defs
import Mathlib.Order.Defs.PartialOrder

/-!
# Code with locks and callbacks

The operations of a component take locks, work on its state, and call back into the code of their
users, which may begin operations again. A lock is not re-entrant : a thread that asks for one it holds
waits for ever. `lockedMachine` interleaves the threads, each with a stack of operations and callbacks
under way.

The code of an operation is `Ordered` if it takes its locks in ascending order and gives all of them
back. If all operations are ordered, and callbacks begin operations only while their thread holds no
lock (`EntersUnlocked`), no thread ever waits for itself, and no two wait for each other
(`hangFree_of_ordered`).
-/

set_option linter.unusedSectionVars false

namespace DataShare

/-- What is left of an operation. Work may depend on the reply of the outside at that time. -/
inductive LockedCode (Λ σ ρ μ : Type) where
  | lock (l : Λ) (next : LockedCode Λ σ ρ μ)
  | unlock (l : Λ) (next : LockedCode Λ σ ρ μ)
  | work (update : σ → ρ → σ) (next : σ → ρ → LockedCode Λ σ ρ μ)
  | call (message : μ) (next : LockedCode Λ σ ρ μ)
  | done

namespace LockedCode

variable {Λ σ ρ μ : Type}

/-- The lock it asks for next. -/
def wants : LockedCode Λ σ ρ μ → Option Λ
  | .lock l _ => some l
  | _ => none

/-- One callback after the other. -/
def callAll (messages : List μ) (next : LockedCode Λ σ ρ μ) : LockedCode Λ σ ρ μ :=
  messages.foldr .call next

/-- The state and the callbacks of an operation that is not interrupted, and whose callbacks do
nothing. -/
def alone (reply : ρ) : LockedCode Λ σ ρ μ → σ → σ × List μ
  | .lock _ next, state => alone reply next state
  | .unlock _ next, state => alone reply next state
  | .work update next, state => alone reply (next state reply) (update state reply)
  | .call message next, state => ((alone reply next state).1, message :: (alone reply next state).2)
  | .done, state => (state, [])

theorem alone_callAll (reply : ρ) (messages : List μ) (next : LockedCode Λ σ ρ μ) (state : σ) :
    (callAll messages next).alone reply state =
      ((next.alone reply state).1, messages ++ (next.alone reply state).2) := by
  induction messages with
  | nil => rfl
  | cons message messages ih =>
    change ((alone reply (callAll messages next) state).1,
      _ :: (alone reply (callAll messages next) state).2) = _
    rw [ih]
    rfl

variable [DecidableEq Λ] [Preorder Λ]

/-- Of the locks `held` so far. -/
def Ordered (held : List Λ) : LockedCode Λ σ ρ μ → Prop
  | .lock l next => (∀ h ∈ held, h < l) ∧ Ordered (l :: held) next
  | .unlock l next => l ∈ held ∧ Ordered (held.filter (· ≠ l)) next
  | .work _ next => ∀ state reply, Ordered held (next state reply)
  | .call _ next => Ordered held next
  | .done => held = []

theorem ordered_callAll {held : List Λ} {messages : List μ} {next : LockedCode Λ σ ρ μ} :
    (callAll messages next).Ordered held ↔ next.Ordered held := by
  induction messages with
  | nil => rfl
  | cons message messages ih => exact ih

end LockedCode

/-! ## Threads -/

/-- The state, the thread that holds each lock, and the number of threads so far. -/
structure LockedWorld (Λ σ : Type) where
  state : σ
  owner : Λ → Option ℕ
  started : ℕ

/-- Something under way, on the stack of a thread. -/
inductive Activation (Λ σ ρ μ : Type) where
  | operation (code : LockedCode Λ σ ρ μ)
  | callback (message : μ)

structure LockedThread (Λ σ ρ μ : Type) where
  id : ℕ
  stack : List (Activation Λ σ ρ μ)

/-- The reply to an operation's work, and the operation a callback begins if it does not return. -/
structure LockedReply (ι ρ : Type) where
  service : ρ
  user : Option ι

section Machine

variable {Λ σ ρ μ ι : Type} [DecidableEq Λ]

/-- The lock a thread asks for. -/
def LockedThread.wants (thread : LockedThread Λ σ ρ μ) : Option Λ :=
  match thread.stack with
  | .operation code :: _ => code.wants
  | _ => none

def LockedWorld.setOwner (world : LockedWorld Λ σ) (l : Λ) (id : Option ℕ) : LockedWorld Λ σ :=
  { world with owner := fun l' => if l' = l then id else world.owner l' }

@[simp] theorem LockedWorld.owner_setOwner (world : LockedWorld Λ σ) (l l' : Λ) (id : Option ℕ) :
    (world.setOwner l id).owner l' = if l' = l then id else world.owner l' :=
  rfl

/-- A thread that asks for a lock that is held stays where it is. -/
def LockedWorld.next (start : ι → LockedCode Λ σ ρ μ) (world : LockedWorld Λ σ)
    (thread : LockedThread Λ σ ρ μ) (reply : LockedReply ι ρ) :
    MachineMove (LockedWorld Λ σ) (LockedThread Λ σ ρ μ) μ :=
  match thread.stack with
  | [] => ⟨world, thread, [], []⟩
  | .callback message :: rest =>
    match reply.user with
    | none => ⟨world, { thread with stack := rest }, [], []⟩
    | some op =>
      ⟨world, { thread with stack := .operation (start op) :: .callback message :: rest }, [], []⟩
  | .operation (.lock l code) :: rest =>
    if world.owner l = none then
      ⟨world.setOwner l (some thread.id), { thread with stack := .operation code :: rest }, [], []⟩
    else ⟨world, thread, [], []⟩
  | .operation (.unlock l code) :: rest =>
    ⟨world.setOwner l none, { thread with stack := .operation code :: rest }, [], []⟩
  | .operation (.work update code) :: rest =>
    ⟨{ world with state := update world.state reply.service },
      { thread with stack := .operation (code world.state reply.service) :: rest }, [], []⟩
  | .operation (.call message code) :: rest =>
    ⟨world, { thread with stack := .callback message :: .operation code :: rest }, [], [message]⟩
  | .operation .done :: rest => ⟨world, { thread with stack := rest }, [], []⟩

/-- Threads come to begin an operation. -/
def lockedMachine (start : ι → LockedCode Λ σ ρ μ) :
    Machine (LockedWorld Λ σ) (LockedThread Λ σ ρ μ) ι (LockedReply ι ρ) μ where
  outside world op :=
    ({ world with started := world.started + 1 }, [⟨world.started, [.operation (start op)]⟩])
  next := LockedWorld.next start

abbrev LockedPool (Λ σ ρ μ : Type) := Pool (LockedWorld Λ σ) (LockedThread Λ σ ρ μ)

/-- Nobody is there and no lock is held. -/
def idlePool (state : σ) : LockedPool Λ σ ρ μ :=
  ⟨⟨state, fun _ => none, 0⟩, []⟩

/-- No thread waits for itself, and no two wait for each other. -/
structure HangFree (pool : LockedPool Λ σ ρ μ) : Prop where
  own : ∀ thread ∈ pool.threads, ∀ l ∈ thread.wants, pool.shared.owner l ≠ some thread.id
  crossed : ∀ thread ∈ pool.threads, ∀ other ∈ pool.threads, ∀ l ∈ thread.wants, ∀ l' ∈ other.wants,
    pool.shared.owner l = some other.id → pool.shared.owner l' ≠ some thread.id

/-- A callback begins an operation only while its thread holds no lock. -/
def EntersUnlocked (pool : LockedPool Λ σ ρ μ) : MachineEvent ι (LockedReply ι ρ) → Prop
  | .outside _ => True
  | .advance i reply =>
    match pool.threads[i]? with
    | some ⟨id, .callback _ :: _⟩ => reply.user.isNone = true ∨ ∀ l, pool.shared.owner l ≠ some id
    | _ => True

instance [Fintype Λ] : DecidableRel (EntersUnlocked (Λ := Λ) (σ := σ) (ρ := ρ) (μ := μ) (ι := ι)) :=
  fun pool event => by
    rcases event with _ | ⟨i, reply⟩
    · unfold EntersUnlocked
      infer_instance
    · unfold EntersUnlocked
      dsimp only
      split <;> infer_instance

end Machine

/-! ## Runs of ordered operations -/

section Runs

variable {Λ σ ρ μ ι : Type} [DecidableEq Λ] [Preorder Λ] {start : ι → LockedCode Λ σ ρ μ}

/-- Only the operation on top of the stack holds locks, or the one whose callback is. -/
def Holding : List Λ → List (Activation Λ σ ρ μ) → Prop
  | held, [] => held = []
  | held, .operation code :: rest => code.Ordered held ∧ Holding [] rest
  | held, .callback _ :: rest => Holding held rest

/-- The locks of a thread are those its stack has taken. -/
structure Disciplined (pool : LockedPool Λ σ ρ μ) : Prop where
  started : pool.shared.started = pool.threads.length
  owner_lt : ∀ l k, pool.shared.owner l = some k → k < pool.threads.length
  fits : ∀ k thread, pool.threads[k]? = some thread → thread.id = k ∧
    ∃ held, (∀ l, pool.shared.owner l = some k ↔ l ∈ held) ∧ Holding held thread.stack

variable {pool : LockedPool Λ σ ρ μ}

theorem disciplined_initial (state : σ) :
    Disciplined (idlePool state : LockedPool Λ σ ρ μ) :=
  ⟨rfl, by simp [idlePool], by simp [idlePool]⟩

/-- The locks of a thread are below the one it asks for. -/
theorem Disciplined.lt_of_wants (h : Disciplined pool) {thread : LockedThread Λ σ ρ μ}
    (hmem : thread ∈ pool.threads) {l l' : Λ} (hwants : l ∈ thread.wants)
    (howner : pool.shared.owner l' = some thread.id) : l' < l := by
  obtain ⟨k, hk⟩ := List.getElem?_of_mem hmem
  obtain ⟨rfl, held, hheld, hfits⟩ := h.fits k thread hk
  obtain ⟨id, stack⟩ := thread
  rcases stack with _ | ⟨code | message, rest⟩
  · simp [LockedThread.wants] at hwants
  · cases code with
    | lock l₀ next =>
      obtain rfl : l₀ = l := by simpa [LockedThread.wants, LockedCode.wants] using hwants
      exact hfits.1.1 l' ((hheld l').mp howner)
    | _ => simp [LockedThread.wants, LockedCode.wants] at hwants
  · simp [LockedThread.wants] at hwants

theorem Disciplined.hangFree (h : Disciplined pool) : HangFree pool where
  own _ hmem l hwants howner := lt_irrefl l (h.lt_of_wants hmem hwants howner)
  crossed _ hmem _ hmem' _ hwants _ hwants' howner howner' :=
    lt_asymm (h.lt_of_wants hmem hwants howner') (h.lt_of_wants hmem' hwants' howner)

/-- The `i`-th thread moves, with what it then holds. -/
theorem Disciplined.advance (h : Disciplined pool) {i : ℕ} {thread moved : LockedThread Λ σ ρ μ}
    {world : LockedWorld Λ σ} (hi : pool.threads[i]? = some thread)
    (hstarted : world.started = pool.shared.started) (hid : moved.id = thread.id)
    (howner : ∀ l k, k ≠ i → (world.owner l = some k ↔ pool.shared.owner l = some k))
    (hmoved : ∃ held, (∀ l, world.owner l = some i ↔ l ∈ held) ∧ Holding held moved.stack) :
    Disciplined ⟨world, pool.threads.set i moved ++ []⟩ := by
  obtain ⟨hlt, -⟩ := List.getElem?_eq_some_iff.mp hi
  rw [List.append_nil]
  refine ⟨?_, fun l k hk => ?_, fun k other hother => ?_⟩
  · rw [hstarted, h.started, List.length_set]
  · rw [List.length_set]
    by_cases hne : k = i
    · exact hne ▸ hlt
    · exact h.owner_lt l k ((howner l k hne).mp hk)
  · by_cases hne : k = i
    · subst hne
      rw [List.getElem?_set_self hlt] at hother
      obtain rfl := Option.some_inj.mp hother
      exact ⟨hid.trans (h.fits k thread hi).1, hmoved⟩
    · rw [List.getElem?_set_ne (Ne.symm hne)] at hother
      obtain ⟨hk, held, hheld, hfits⟩ := h.fits k other hother
      exact ⟨hk, held, fun l => (howner l k hne).trans (hheld l), hfits⟩

theorem Disciplined.next (h : Disciplined pool) (hstart : ∀ op, (start op).Ordered [])
    {i : ℕ} {thread : LockedThread Λ σ ρ μ} {reply : LockedReply ι ρ}
    (hi : pool.threads[i]? = some thread) (hallowed : EntersUnlocked pool (.advance i reply)) :
    Disciplined ⟨(pool.shared.next start thread reply).shared,
      pool.threads.set i (pool.shared.next start thread reply).thread ++
        (pool.shared.next start thread reply).started⟩ := by
  obtain ⟨hid, held, hheld, hfits⟩ := h.fits i thread hi
  obtain ⟨id, stack⟩ := thread
  dsimp only at hid hfits
  subst hid
  have hsame {stack' : List (Activation Λ σ ρ μ)} {state : σ} (hfits' : Holding held stack') :
      Disciplined ⟨{ pool.shared with state }, pool.threads.set id ⟨id, stack'⟩ ++ []⟩ :=
    h.advance hi rfl rfl (fun _ _ _ => Iff.rfl) ⟨held, hheld, hfits'⟩
  rcases stack with _ | ⟨code | message, rest⟩
  · exact hsame hfits
  · obtain ⟨hordered, hrest⟩ := hfits
    cases code with
    | lock l code =>
      by_cases hfree : pool.shared.owner l = none
      · simp only [LockedWorld.next, if_pos hfree]
        refine h.advance hi rfl rfl (fun l' k hne => ?_) ⟨l :: held, fun l' => ?_, hordered.2, hrest⟩
        · by_cases hl : l' = l
          · simp [hl, hfree, Ne.symm hne]
          · simp [hl]
        · by_cases hl : l' = l
          · simp [hl]
          · simp [hl, hheld]
      · simp only [LockedWorld.next, if_neg hfree]
        exact hsame ⟨hordered, hrest⟩
    | unlock l code =>
      have hown : pool.shared.owner l = some id := (hheld l).mpr hordered.1
      simp only [LockedWorld.next]
      refine h.advance hi rfl rfl (fun l' k hne => ?_)
        ⟨held.filter (· ≠ l), fun l' => ?_, hordered.2, hrest⟩
      · by_cases hl : l' = l
        · simp [hl, hown, Ne.symm hne]
        · simp [hl]
      · by_cases hl : l' = l
        · simp [hl]
        · simp [hl, hheld]
    | work update code => exact hsame ⟨hordered _ _, hrest⟩
    | call message code => exact hsame ⟨hordered, hrest⟩
    | done =>
      obtain rfl : held = [] := hordered
      exact hsame hrest
  · rcases huser : reply.user with _ | op
    · simp only [LockedWorld.next, huser]
      exact hsame hfits
    · simp only [LockedWorld.next, huser]
      simp only [EntersUnlocked, hi, huser, Option.isNone_some, Bool.false_eq_true, false_or] at hallowed
      obtain rfl : held = [] := List.eq_nil_iff_forall_not_mem.mpr fun l hl =>
        hallowed l ((hheld l).mpr hl)
      exact hsame ⟨hstart op, hfits⟩

/-- A callback that begins an operation hangs if its thread holds the operation's first lock. -/
theorem not_hangFree_of_enters {i id : ℕ} {message : μ} {rest : List (Activation Λ σ ρ μ)} {op : ι}
    {l : Λ} {reply : LockedReply ι ρ} (hi : pool.threads[i]? = some ⟨id, .callback message :: rest⟩)
    (huser : reply.user = some op) (hwants : (start op).wants = some l)
    (hown : pool.shared.owner l = some id) :
    ¬ HangFree ((lockedMachine start).step pool (.advance i reply)).1 := by
  intro h
  have hnext : pool.shared.next start ⟨id, .callback message :: rest⟩ reply =
      ⟨pool.shared, ⟨id, .operation (start op) :: .callback message :: rest⟩, [], []⟩ := by
    simp [LockedWorld.next, huser]
  rw [Machine.step_advance_of_some hi] at h
  simp only [lockedMachine, hnext, List.append_nil] at h
  have hlt := (List.getElem?_eq_some_iff.mp hi).1
  exact h.own _ (List.mem_set hlt _) l hwants hown

/-- Operations that take their locks in order do not hang if callbacks begin operations without
locks. -/
theorem hangFree_of_ordered (hstart : ∀ op, (start op).Ordered []) (state : σ)
    {events : List (MachineEvent ι (LockedReply ι ρ))}
    (h : AllowedRun (lockedMachine start).step EntersUnlocked (idlePool state) events) :
    HangFree ((lockedMachine start).run (idlePool state) events).1 := by
  refine Disciplined.hangFree ?_
  refine h.invariant (P := fun pool _ => Disciplined pool) (disciplined_initial state) ?_
  intro pool log event hallowed hpool
  refine @Machine.step_invariant _ _ _ _ _ _ _ (fun pool _ => Disciplined pool) log _ hpool ?_ ?_
  · rintro op rfl
    refine ⟨?_, fun l k hk => ?_, fun k thread hthread => ?_⟩
    · simp [lockedMachine, hpool.started]
    · exact (hpool.owner_lt l k hk).trans_le (by simp)
    · rcases Nat.lt_or_ge k pool.threads.length with hlt | hge
      · rw [List.getElem?_append_left hlt] at hthread
        exact hpool.fits k thread hthread
      · rw [List.getElem?_append_right hge] at hthread
        have hk : k = pool.threads.length := by
          have hlt := (List.getElem?_eq_some_iff.mp hthread).1
          simp only [lockedMachine, List.length_singleton] at hlt
          omega
        subst hk
        simp only [lockedMachine, Nat.sub_self, List.getElem?_cons_zero, Option.some.injEq] at hthread
        subst hthread
        refine ⟨hpool.started, [], fun l => ?_, hstart op, rfl⟩
        exact iff_of_false (fun hk => lt_irrefl _ (hpool.owner_lt l _ hk)) List.not_mem_nil
  · rintro i reply thread rfl hi
    exact hpool.next hstart hi hallowed

end Runs

end DataShare
