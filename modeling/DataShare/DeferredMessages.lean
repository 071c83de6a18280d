import DataShare.Threads
import Mathlib.Order.Monotone.Defs

/-!
# Deferred messages

Calls that change what they share in their first step, and send their messages later, one batch in
each step (`deferring`). The receiver may get the messages in another order than that of the changes,
and what that may cost it is a preorder : a `Receiver` does no worse when a message comes early, unless
it overtakes one it should not.

As long as no message does (`InOrder`), the receiver is at least where the calls one after another would
have brought it, once the messages left are counted in (`received_of_inOrder`).
-/

namespace DataShare

/-- A receiver of messages. A greater state serves all that a smaller one does. -/
structure Receiver (α ρ : Type) [Preorder α] where
  receive : α → ρ → α
  monotone : ∀ r, Monotone fun a => receive a r
  overtakes : ρ → ρ → Prop
  /-- A message may come before an earlier one that it does not overtake. -/
  swap : ∀ a r earlier, ¬ overtakes r earlier →
    receive (receive a earlier) r ≤ receive (receive a r) earlier

/-- The first step of a call makes its change, and each later one sends a batch of messages. -/
def deferring {σ ι ρ : Type} (change : σ → ι → σ × List (List ρ)) :
    Protocol σ (List (List ρ)) ι ρ where
  start := change
  next shared batches := (shared, batches.tail, batches.headD [])

namespace Deferred

variable {σ ι ρ α : Type}

/-- The messages that were not sent, in the order of the changes. -/
def unsent (threads : List (List (List ρ))) : List ρ :=
  threads.flatMap List.flatten

/-- The calls that started, in order. -/
def startedCalls (events : List (ThreadEvent ι)) : List ι :=
  events.filterMap fun
    | .start call => some call
    | .advance _ => none

/-- A call made at once, with all its messages. -/
def atOnce (change : σ → ι → σ × List (List ρ)) (shared : σ) (call : ι) : σ × List ρ :=
  ((change shared call).1, (change shared call).2.flatten)

/-- Every call has sent its messages. -/
def Finished (pool : Pool σ (List (List ρ))) : Prop :=
  ∀ batches ∈ pool.threads, batches = []

instance (pool : Pool σ (List (List ρ))) : Decidable (Finished pool) :=
  inferInstanceAs (Decidable (∀ batches ∈ pool.threads, batches = []))

theorem unsent_append (threads threads' : List (List (List ρ))) :
    unsent (threads ++ threads') = unsent threads ++ unsent threads' :=
  List.flatMap_append

theorem unsent_singleton (batches : List (List ρ)) : unsent [batches] = batches.flatten :=
  List.flatMap_singleton _ _

theorem flatten_eq_headD_append (batches : List (List ρ)) :
    batches.flatten = batches.headD [] ++ batches.tail.flatten := by
  cases batches <;> rfl

theorem unsent_of_finished {pool : Pool σ (List (List ρ))} (h : Finished pool) :
    unsent pool.threads = [] := by
  refine List.flatMap_eq_nil_iff.mpr fun batches hbatches => ?_
  rw [h batches hbatches]
  rfl

variable [Preorder α] (receiver : Receiver α ρ)

/-- The messages that a step sends overtake none of an earlier call. -/
def InOrder (pool : Pool σ (List (List ρ))) : ThreadEvent ι → Prop
  | .start _ => True
  | .advance i => ∀ batches ∈ pool.threads[i]?, ∀ r ∈ batches.headD [],
    ∀ earlier ∈ unsent (pool.threads.take i), ¬ receiver.overtakes r earlier

instance [∀ r earlier, Decidable (receiver.overtakes r earlier)] (pool : Pool σ (List (List ρ))) :
    ∀ event : ThreadEvent ι, Decidable (InOrder receiver pool event)
  | .start _ => .isTrue trivial
  | .advance i => inferInstanceAs (Decidable (∀ batches ∈ pool.threads[i]?, ∀ r ∈ batches.headD [],
      ∀ earlier ∈ unsent (pool.threads.take i), ¬ receiver.overtakes r earlier))

/-- What the receiver makes of messages. -/
def received (a : α) (messages : List ρ) : α :=
  messages.foldl receiver.receive a

/-! ## Order of messages -/

section Order

variable {receiver}

theorem received_append (a : α) (messages more : List ρ) :
    received receiver a (messages ++ more) = received receiver (received receiver a messages) more :=
  List.foldl_append

variable (receiver) in
theorem received_mono (messages : List ρ) : Monotone fun a => received receiver a messages := by
  induction messages with
  | nil => exact monotone_id
  | cons r messages ih => exact ih.comp (receiver.monotone r)

/-- A message that overtakes none of those before it may come first. -/
theorem received_concat_le {r : ρ} {earlier : List ρ} (a : α)
    (h : ∀ r' ∈ earlier, ¬ receiver.overtakes r r') :
    received receiver a (earlier ++ [r]) ≤ received receiver a (r :: earlier) := by
  induction earlier generalizing a with
  | nil => exact le_refl _
  | cons first earlier ih =>
    calc received receiver a (first :: earlier ++ [r])
        = received receiver (receiver.receive a first) (earlier ++ [r]) := rfl
      _ ≤ received receiver (receiver.receive a first) (r :: earlier) :=
          ih _ fun r' hr' => h r' (List.mem_cons_of_mem _ hr')
      _ ≤ received receiver (receiver.receive (receiver.receive a r) first) earlier :=
          received_mono receiver earlier (receiver.swap a r first (h first List.mem_cons_self))

/-- So may a batch. -/
theorem received_append_le {batch earlier : List ρ} (a : α)
    (h : ∀ r ∈ batch, ∀ r' ∈ earlier, ¬ receiver.overtakes r r') :
    received receiver a (earlier ++ batch) ≤ received receiver a (batch ++ earlier) := by
  induction batch generalizing a with
  | nil => rw [List.append_nil, List.nil_append]
  | cons r batch ih =>
    have hfirst := received_concat_le a fun r' hr' => h r List.mem_cons_self r' hr'
    calc received receiver a (earlier ++ r :: batch)
        = received receiver (received receiver a (earlier ++ [r])) batch := by
          rw [← received_append, List.append_assoc, List.singleton_append]
      _ ≤ received receiver (received receiver a (r :: earlier)) batch :=
          received_mono receiver batch hfirst
      _ = received receiver (receiver.receive a r) (earlier ++ batch) := by
          rw [← received_append]
          rfl
      _ ≤ received receiver (receiver.receive a r) (batch ++ earlier) :=
          ih _ fun r' hr' => h r' (List.mem_cons_of_mem _ hr')

end Order

/-! ## Runs -/

section Runs

variable {receiver} {change : σ → ι → σ × List (List ρ)} {init : σ} {a : α}

/-- The calls made at once, in the order of their changes. -/
def inOrderOf (change : σ → ι → σ × List (List ρ)) (init : σ) (events : List (ThreadEvent ι)) :
    σ × List ρ :=
  runCalls (atOnce change) init (startedCalls events)

theorem inOrderOf_start (events : List (ThreadEvent ι)) (call : ι) :
    inOrderOf change init (events ++ [.start call]) =
      advance (atOnce change) (inOrderOf change init events) call := by
  unfold inOrderOf startedCalls
  rw [List.filterMap_append]
  exact runCalls_concat _ _ _ call

theorem inOrderOf_advance (events : List (ThreadEvent ι)) (i : ℕ) :
    inOrderOf change init (events ++ [.advance i]) = inOrderOf change init events := by
  unfold inOrderOf startedCalls
  rw [List.filterMap_append]
  exact congrArg _ (List.append_nil _)

theorem run_concat (events : List (ThreadEvent ι)) (event : ThreadEvent ι) :
    (deferring change).run ⟨init, []⟩ (events ++ [event]) =
      advance (deferring change).step ((deferring change).run ⟨init, []⟩ events) event :=
  runCalls_concat _ _ _ event

/-- A call alone is made at once. -/
theorem run_alone (shared : σ) (call : ι) :
    (deferring change).run ⟨shared, []⟩ (.start call ::
        List.replicate (change shared call).2.length (.advance 0)) =
      (⟨(atOnce change shared call).1, [[]]⟩, (atOnce change shared call).2) := by
  have hsend : ∀ (next : σ) (batches : List (List ρ)),
      (deferring change).run ⟨next, [batches]⟩ (List.replicate batches.length (.advance 0)) =
        (⟨next, [[]]⟩, batches.flatten) := by
    intro next batches
    induction batches with
    | nil => rfl
    | cons batch batches ih =>
      have hfirst : (deferring change).step ⟨next, [batch :: batches]⟩ (.advance 0) =
          (⟨next, [batches]⟩, batch) := rfl
      unfold Protocol.run at ih ⊢
      rw [List.length_cons, List.replicate_succ, runCalls_cons, hfirst, ih]
      rfl
  unfold Protocol.run at hsend ⊢
  rw [runCalls_cons]
  exact congrArg (fun run => (run.1, [] ++ run.2)) (hsend _ _)

/-- What the calls share is what they would, made at once. -/
theorem shared_run (events : List (ThreadEvent ι)) :
    ((deferring change).run ⟨init, []⟩ events).1.shared = (inOrderOf change init events).1 := by
  induction events using List.reverseRecOn with
  | nil => rfl
  | append_singleton events event ih =>
    rw [run_concat]
    rcases event with call | i
    · rw [inOrderOf_start, advance, advance, ← ih]
      rfl
    · rw [inOrderOf_advance, ← ih, advance]
      rcases hi : ((deferring change).run ⟨init, []⟩ events).1.threads[i]? with _ | batches
      · rw [Protocol.step_advance_of_none hi]
      · rw [Protocol.step_advance_of_some hi]
        rfl

/-- A step that sends a batch in order does the receiver no harm. -/
theorem received_advance {pool : Pool σ (List (List ρ))} {i : ℕ}
    (h : InOrder receiver pool (.advance i : ThreadEvent ι)) (log : List ρ) :
    received receiver a (log ++ unsent pool.threads) ≤
      received receiver a (log ++ ((deferring change).step pool (.advance i)).2 ++
        unsent ((deferring change).step pool (.advance i)).1.threads) := by
  rcases hi : pool.threads[i]? with _ | batches
  · rw [Protocol.step_advance_of_none hi, List.append_nil]
  · rw [Protocol.step_advance_of_some hi]
    obtain ⟨hlt, hget⟩ := List.getElem?_eq_some_iff.mp hi
    have hthreads : pool.threads = pool.threads.take i ++ ([batches] ++ pool.threads.drop (i + 1)) := by
      rw [List.singleton_append, ← hget, List.getElem_cons_drop, List.take_append_drop]
    have hset : pool.threads.set i batches.tail =
        pool.threads.take i ++ ([batches.tail] ++ pool.threads.drop (i + 1)) := by
      rw [List.set_eq_take_append_cons_drop, if_pos hlt]
      rfl
    have hleft : unsent pool.threads = unsent (pool.threads.take i) ++ batches.headD [] ++
        (batches.tail.flatten ++ unsent (pool.threads.drop (i + 1))) := by
      conv_lhs => rw [hthreads]
      rw [unsent_append, unsent_append, unsent_singleton, flatten_eq_headD_append batches]
      simp only [List.append_assoc]
    have hbatch := received_append_le (received receiver a log) (h batches hi)
    have hrest := received_mono receiver
      (batches.tail.flatten ++ unsent (pool.threads.drop (i + 1))) hbatch
    dsimp only [deferring] at hrest ⊢
    rw [hset, hleft, unsent_append, unsent_append, unsent_singleton]
    simpa only [received_append, List.append_assoc] using hrest

/-- With the messages left counted in, the receiver is where the calls made at once bring it, or
better. -/
theorem received_of_inOrder {events : List (ThreadEvent ι)}
    (h : AllowedRun (deferring change).step (InOrder receiver) ⟨init, []⟩ events) :
    received receiver a (inOrderOf change init events).2 ≤
      received receiver a (((deferring change).run ⟨init, []⟩ events).2 ++
        unsent ((deferring change).run ⟨init, []⟩ events).1.threads) := by
  induction events using List.reverseRecOn with
  | nil => exact le_refl _
  | append_singleton events event ih =>
    obtain ⟨hevents, hlast⟩ := allowedRun_concat.mp h
    have ih := ih hevents
    have hshared : ((deferring change).run ⟨init, []⟩ events).1.shared =
        (inOrderOf change init events).1 := shared_run events
    rw [run_concat]
    rcases event with call | i
    · have hmore := received_mono receiver (change (inOrderOf change init events).1 call).2.flatten ih
      rw [inOrderOf_start]
      dsimp only [advance, atOnce, Protocol.step, deferring] at hmore hshared ⊢
      rw [hshared, List.append_nil, unsent_append, unsent_singleton, received_append,
        ← List.append_assoc, received_append]
      exact hmore
    · rw [inOrderOf_advance]
      exact ih.trans (received_advance hlast _)

end Runs

end Deferred

end DataShare
