import DataShare.History
import Mathlib.Data.List.Perm.Basic

/-!
# Calls as threads

A component whose calls take several atomic steps, each under a lock of its own, is a `Pool` :
the state the calls share, and where each of them stands. An event starts a call, which makes its
first step, or lets a call under way make its next one ; a run of events is an interleaving of
the calls. `Protocol` says what the steps are.

An invariant that does not mind the order of the calls may take the call that moves for the first of
them (`exists_perm_set`).
-/

namespace DataShare

/-- The state that calls share, and where each of them stands. -/
structure Pool (σ τ : Type) where
  shared : σ
  threads : List τ

/-- A call starts, or the `i`-th call makes its next step. -/
inductive ThreadEvent (ι : Type) where
  | start (call : ι)
  | advance (i : ℕ)
  deriving DecidableEq

/-- The first step of a call, and the next step of one under way with the messages it sends. -/
structure Protocol (σ τ ι ρ : Type) where
  start : σ → ι → σ × τ
  next : σ → τ → σ × τ × List ρ

namespace Protocol

variable {σ τ ι ρ : Type} (protocol : Protocol σ τ ι ρ)

/-- One event. A call that is not there does not move. -/
def step (pool : Pool σ τ) : ThreadEvent ι → Pool σ τ × List ρ
  | .start call =>
    let first := protocol.start pool.shared call
    (⟨first.1, pool.threads ++ [first.2]⟩, [])
  | .advance i =>
    match pool.threads[i]? with
    | none => (pool, [])
    | some thread =>
      let moved := protocol.next pool.shared thread
      (⟨moved.1, pool.threads.set i moved.2.1⟩, moved.2.2)

/-- The pool and the messages after `events`. -/
def run (pool : Pool σ τ) (events : List (ThreadEvent ι)) : Pool σ τ × List ρ :=
  runCalls protocol.step pool events

variable {protocol} {pool : Pool σ τ}

theorem step_advance_of_none {i : ℕ} (h : pool.threads[i]? = none) :
    protocol.step pool (.advance i) = (pool, []) := by
  simp only [step, h]

theorem step_advance_of_some {i : ℕ} {thread : τ} (h : pool.threads[i]? = some thread) :
    protocol.step pool (.advance i) =
      (⟨(protocol.next pool.shared thread).1,
        pool.threads.set i (protocol.next pool.shared thread).2.1⟩,
        (protocol.next pool.shared thread).2.2) := by
  simp only [step, h]

/-- A call is still there after the `i`-th one moved, unless it is the one. -/
theorem mem_set_of_mem {threads : List τ} {i : ℕ} {thread other : τ} (moved : τ)
    (hi : threads[i]? = some thread) (hother : other ∈ threads) :
    other = thread ∨ other ∈ threads.set i moved := by
  obtain ⟨j, hj, rfl⟩ := List.mem_iff_getElem.mp hother
  by_cases hij : i = j
  · subst hij
    exact .inl (Option.some_inj.mp ((List.getElem?_eq_getElem hj).symm.trans hi))
  · refine .inr (List.mem_iff_getElem.mpr ⟨j, by simpa using hj, ?_⟩)
    rw [List.getElem_set_ne hij]

/-- A call that makes no step stays where it is. -/
theorem getElem?_run_of_not_advanced {pool : Pool σ τ} {events : List (ThreadEvent ι)} {j : ℕ}
    {thread : τ} (h : pool.threads[j]? = some thread) (hnot : .advance j ∉ events) :
    (protocol.run pool events).1.threads[j]? = some thread := by
  induction events using List.reverseRecOn with
  | nil => exact h
  | append_singleton events event ih =>
    have hthread := ih fun hmem => hnot (List.mem_append_left _ hmem)
    unfold run at hthread ⊢
    rw [runCalls_concat]
    rcases event with call | i
    · exact List.getElem?_append_left (List.getElem?_eq_some_iff.mp hthread).1 ▸ hthread
    · have hij : i ≠ j := fun heq => hnot (heq ▸ List.mem_append_right _ (List.mem_singleton_self _))
      rcases hi : (runCalls protocol.step pool events).1.threads[i]? with _ | moving
      · rw [advance, step_advance_of_none hi]
        exact hthread
      · rw [advance, step_advance_of_some hi]
        exact (List.getElem?_set_ne hij).trans hthread

/-- The calls before and after the `i`-th one moved, up to their order. -/
theorem exists_perm_set {threads : List τ} {i : ℕ} {thread : τ} (hi : threads[i]? = some thread) :
    ∃ rest, threads.Perm (thread :: rest) ∧
      ∀ moved, (threads.set i moved).Perm (moved :: rest) := by
  obtain ⟨hlt, rfl⟩ := List.getElem?_eq_some_iff.mp hi
  exact ⟨threads.eraseIdx i, (List.getElem_cons_eraseIdx_perm hlt).symm,
    fun moved => List.set_perm_cons_eraseIdx hlt moved⟩

end Protocol

end DataShare
