import DataShare.History
import Mathlib.Logic.Function.Basic

/-!
# An ambient flag

A call that sends a request may say something about its caller through a flag that it stores before
and that is read when the request is sent. The flags are the cells of the threads (`cell`) : one cell
for all threads, or one for each. A run is the accesses of all threads in their order, and the flag a
request is sent with is the last value stored in the cell of its thread (`mem_sent_iff`).

Each thread makes its calls one after the other, and an `Interleaving` of the threads is a run in
which every thread has got through some of the accesses of its calls. If each request that is to be
flagged comes right after the store of its call (`Guarded`), its flag is its own exactly if what the
cell has got from other threads since then, if anything, is the same (`sent_own_iff`). With a cell
for each thread, and calls that leave it `false`, this is so in all runs (`sent_own_of_threadLocal`).
-/

namespace DataShare

/-- An access of a thread to its flag : to store a value, or to read it for a request. -/
inductive FlagAccess (ρ : Type) where
  | store (value : Bool)
  | request (sent : ρ)
  deriving DecidableEq

variable {ρ ι : Type}

/-- One access : the flags after it, and the request with the flag it is sent with. -/
def FlagAccess.exec (cell : ℕ → ℕ) (flags : ℕ → Bool) (event : ℕ × FlagAccess ρ) :
    (ℕ → Bool) × List (ρ × Bool) :=
  match event.2 with
  | .store value => (Function.update flags (cell event.1) value, [])
  | .request sent => (flags, [(sent, flags (cell event.1))])

/-- The flags and the requests after a run. -/
def flagRun (cell : ℕ → ℕ) (events : List (ℕ × FlagAccess ρ)) : (ℕ → Bool) × List (ρ × Bool) :=
  runCalls (FlagAccess.exec cell) (fun _ => false) events

/-- What the access stores in the cell. -/
def storeIn (cell : ℕ → ℕ) (c : ℕ) (event : ℕ × FlagAccess ρ) : Option Bool :=
  match event.2 with
  | .store value => if cell event.1 = c then some value else none
  | .request _ => none

/-- The last value stored in the cell. -/
def lastStore (cell : ℕ → ℕ) (c : ℕ) (events : List (ℕ × FlagAccess ρ)) : Option Bool :=
  (events.filterMap (storeIn cell c)).getLast?

/-- The accesses of one thread. -/
def accessesOf (i : ℕ) (events : List (ℕ × FlagAccess ρ)) : List (FlagAccess ρ) :=
  (events.filter fun event => event.1 = i).map Prod.snd

section Runs

variable {cell : ℕ → ℕ} {c i : ℕ} {events : List (ℕ × FlagAccess ρ)}

@[simp] theorem lastStore_nil : lastStore cell c ([] : List (ℕ × FlagAccess ρ)) = none :=
  rfl

theorem lastStore_append (events events' : List (ℕ × FlagAccess ρ)) :
    lastStore cell c (events ++ events') =
      (lastStore cell c events').or (lastStore cell c events) := by
  unfold lastStore
  rw [List.filterMap_append, List.getLast?_append]

theorem lastStore_singleton (event : ℕ × FlagAccess ρ) :
    lastStore cell c [event] = storeIn cell c event := by
  unfold lastStore
  cases h : storeIn cell c event <;> simp [h]

theorem accessesOf_append (events events' : List (ℕ × FlagAccess ρ)) :
    accessesOf i (events ++ events') = accessesOf i events ++ accessesOf i events' := by
  simp [accessesOf]

theorem flagRun_store (events : List (ℕ × FlagAccess ρ)) (i : ℕ) (value : Bool) :
    flagRun cell (events ++ [(i, .store value)]) =
      (Function.update (flagRun cell events).1 (cell i) value, (flagRun cell events).2) := by
  unfold flagRun
  rw [runCalls_concat]
  exact Prod.ext rfl (List.append_nil _)

theorem flagRun_request (events : List (ℕ × FlagAccess ρ)) (i : ℕ) (sent : ρ) :
    flagRun cell (events ++ [(i, .request sent)]) = ((flagRun cell events).1,
      (flagRun cell events).2 ++ [(sent, (flagRun cell events).1 (cell i))]) := by
  unfold flagRun
  rw [runCalls_concat]
  rfl

/-- A cell holds what was last stored in it. -/
theorem flags_flagRun (events : List (ℕ × FlagAccess ρ)) :
    (flagRun cell events).1 c = (lastStore cell c events).getD false := by
  induction events using List.reverseRecOn with
  | nil => rfl
  | append_singleton events event ih =>
    obtain ⟨i, access⟩ := event
    rw [lastStore_append, lastStore_singleton]
    cases access with
    | store value =>
      rw [flagRun_store]
      unfold storeIn
      dsimp only
      by_cases hc : cell i = c
      · subst hc
        simp
      · rw [Function.update_of_ne (Ne.symm hc), ih, if_neg hc]
        rfl
    | request sent =>
      rw [flagRun_request]
      exact ih

/-- A request is sent with the value last stored before. -/
theorem mem_sent_iff {sent : ρ × Bool} : sent ∈ (flagRun cell events).2 ↔
    ∃ before i after, events = before ++ (i, .request sent.1) :: after ∧
      sent.2 = (lastStore cell (cell i) before).getD false := by
  induction events using List.reverseRecOn with
  | nil => simp [flagRun]
  | append_singleton events event ih =>
    have hlast : (∃ before i after, events ++ [event] = before ++ (i, .request sent.1) :: after ∧
        sent.2 = (lastStore cell (cell i) before).getD false) ↔
        sent ∈ (flagRun cell events).2 ∨ ∃ i, event = (i, .request sent.1) ∧
          sent.2 = (lastStore cell (cell i) events).getD false := by
      rw [ih]
      constructor
      · rintro ⟨before, i, after, heq, hflag⟩
        rcases List.eq_nil_or_concat after with rfl | ⟨after, last, rfl⟩
        · obtain ⟨rfl, hevent⟩ := List.append_inj' heq rfl
          exact .inr ⟨i, List.singleton_inj.mp hevent, hflag⟩
        · rw [List.concat_eq_append, ← List.cons_append, ← List.append_assoc] at heq
          exact .inl ⟨before, i, after, (List.append_inj' heq rfl).1, hflag⟩
      · rintro (⟨before, i, after, rfl, hflag⟩ | ⟨i, rfl, hflag⟩)
        · exact ⟨before, i, after ++ [event], by simp, hflag⟩
        · exact ⟨events, i, [], rfl, hflag⟩
    rw [hlast]
    obtain ⟨i, access⟩ := event
    cases access with
    | store value =>
      rw [flagRun_store]
      simp
    | request first =>
      rw [flagRun_request, List.mem_append, List.mem_singleton, flags_flagRun]
      refine or_congr_right ⟨?_, ?_⟩
      · rintro rfl
        exact ⟨i, rfl, rfl⟩
      · rintro ⟨j, heq, hflag⟩
        obtain ⟨rfl, hfirst⟩ := Prod.mk.inj heq
        exact Prod.ext (FlagAccess.request.inj hfirst).symm hflag

/-! ## The last access of a thread -/

/-- What happened since the last access of the thread. -/
def sinceOwn (i : ℕ) (events : List (ℕ × FlagAccess ρ)) : List (ℕ × FlagAccess ρ) :=
  (events.reverse.takeWhile fun event => event.1 ≠ i).reverse

theorem exists_of_accessesOf {accesses : List (FlagAccess ρ)} {last : FlagAccess ρ}
    (h : accessesOf i events = accesses ++ [last]) :
    ∃ before, events = before ++ (i, last) :: sinceOwn i events := by
  induction events using List.reverseRecOn with
  | nil => exact absurd h (by simp [accessesOf])
  | append_singleton events event ih =>
    obtain ⟨j, access⟩ := event
    by_cases hj : j = i
    · subst hj
      have hown : accessesOf j [(j, access)] = [access] := by simp [accessesOf]
      rw [accessesOf_append, hown] at h
      obtain rfl := List.singleton_inj.mp (List.append_inj' h rfl).2
      exact ⟨events, by simp [sinceOwn]⟩
    · have hother : accessesOf i [(j, access)] = [] := by simp [accessesOf, hj]
      rw [accessesOf_append, hother, List.append_nil] at h
      obtain ⟨before, hbefore⟩ := ih h
      refine ⟨before, ?_⟩
      have hsince : sinceOwn i (events ++ [(j, access)]) = sinceOwn i events ++ [(j, access)] := by
        simp [sinceOwn, hj]
      rw [hsince, ← List.cons_append, ← List.append_assoc, ← hbefore]

end Runs

/-! ## Threads -/

/-- A run of some threads, each of which has got through some of its accesses. -/
structure Interleaving (accesses : ℕ → List (FlagAccess ρ)) where
  events : List (ℕ × FlagAccess ρ)
  follows : ∀ i, List.IsPrefix (accessesOf i events) (accesses i)

/-- A place in the accesses of a list of calls is one in the accesses of a call, after the calls
before it. -/
theorem exists_of_flatMap_eq {α : Type} {f : ι → List α} {a : α} :
    ∀ {calls : List ι} {before after : List α}, calls.flatMap f = before ++ a :: after →
      ∃ calls' call calls'' pre post, calls = calls' ++ call :: calls'' ∧
        f call = pre ++ a :: post ∧ before = calls'.flatMap f ++ pre
  | [], before, after, h => absurd h (by simp)
  | call :: calls, before, after, h => by
    rw [List.flatMap_cons] at h
    rcases List.append_eq_append_iff.mp h with ⟨rest, rfl, hrest⟩ | ⟨rest, hcall, hrest⟩
    · obtain ⟨calls', call', calls'', pre, post, rfl, hf, rfl⟩ := exists_of_flatMap_eq hrest
      exact ⟨call :: calls', call', calls'', pre, post, rfl, hf, by simp⟩
    · rcases rest with _ | ⟨first, rest⟩
      · rw [List.append_nil] at hcall
        have hrest : calls.flatMap f = [] ++ a :: after := hrest.symm
        obtain ⟨calls', call', calls'', pre, post, rfl, hf, hpre⟩ := exists_of_flatMap_eq hrest
        exact ⟨call :: calls', call', calls'', pre, post, rfl, hf, by simp [← hcall, ← hpre]⟩
      · obtain ⟨rfl, -⟩ := List.cons.inj hrest
        exact ⟨[], call, calls, before, rest, rfl, hcall, rfl⟩

section Threads

variable (accesses : ι → List (FlagAccess ρ)) (own flagged : ρ → Bool)

/-- A flagged request comes right after the store of its flag in the accesses of its call. The flag of
any other request is `false`, and it is the first access of its call. -/
def Guarded : Prop :=
  ∀ call pre sent post, accesses call = pre ++ .request sent :: post →
    if flagged sent then pre.getLast? = some (.store (own sent)) else pre = [] ∧ own sent = false

/-- No request of the run finds another value than its own, that was stored after the store of its
call, or at all if its call stores none. -/
def Undisturbed (cell : ℕ → ℕ) (events : List (ℕ × FlagAccess ρ)) : Prop :=
  ∀ before i sent after, events = before ++ (i, .request sent) :: after →
    ∀ value ∈ lastStore cell (cell i) (if flagged sent then sinceOwn i before else before),
      value = own sent

variable {accesses own flagged} {cell : ℕ → ℕ} {calls : ℕ → List ι}

/-- The place of a request of a run in the calls of its thread. -/
theorem Interleaving.exists_call (run : Interleaving fun i => (calls i).flatMap accesses)
    {before after : List (ℕ × FlagAccess ρ)} {i : ℕ} {sent : ρ}
    (h : run.events = before ++ (i, .request sent) :: after) :
    ∃ calls' call calls'' pre post, calls i = calls' ++ call :: calls'' ∧
      accesses call = pre ++ .request sent :: post ∧
        accessesOf i before = calls'.flatMap accesses ++ pre := by
  obtain ⟨rest, hrest⟩ := run.follows i
  have hown : accessesOf i ((i, .request sent) :: after) =
      .request sent :: accessesOf i after := by simp [accessesOf]
  rw [h, accessesOf_append, hown, List.append_assoc, List.cons_append] at hrest
  exact exists_of_flatMap_eq hrest.symm

/-- All requests of a run are sent with their own flags exactly if none is disturbed. -/
theorem sent_own_iff (hguarded : Guarded accesses own flagged)
    (run : Interleaving fun i => (calls i).flatMap accesses) :
    (∀ sent ∈ (flagRun cell run.events).2, sent.2 = own sent.1) ↔
      Undisturbed own flagged cell run.events := by
  have hplace : ∀ before i sent after, run.events = before ++ (i, .request sent) :: after →
      ((lastStore cell (cell i) before).getD false = own sent ↔
        ∀ value ∈ lastStore cell (cell i) (if flagged sent then sinceOwn i before else before),
          value = own sent) := by
    intro before i sent after h
    obtain ⟨calls', call, calls'', pre, post, -, hcall, haccesses⟩ := run.exists_call h
    have hcond := hguarded call pre sent post hcall
    by_cases hflagged : flagged sent = true
    · rw [if_pos hflagged] at hcond ⊢
      obtain ⟨first, rfl⟩ := List.getLast?_eq_some_iff.mp hcond
      rw [← List.append_assoc] at haccesses
      obtain ⟨before', hbefore⟩ := exists_of_accessesOf haccesses
      have hstore : lastStore cell (cell i) before =
          (lastStore cell (cell i) (sinceOwn i before)).or (some (own sent)) := by
        have hown : storeIn cell (cell i) (i, (.store (own sent) : FlagAccess ρ)) =
            some (own sent) := if_pos rfl
        conv_lhs => rw [hbefore]
        rw [List.append_cons, lastStore_append, lastStore_append, lastStore_singleton, hown]
        cases lastStore cell (cell i) (sinceOwn i before) <;> rfl
      rw [hstore]
      cases lastStore cell (cell i) (sinceOwn i before) <;> simp
    · rw [if_neg hflagged] at hcond ⊢
      rw [hcond.2]
      cases lastStore cell (cell i) before <;> simp
  constructor
  · intro h before i sent after heq
    exact (hplace before i sent after heq).mp
      (h (sent, _) (mem_sent_iff.mpr ⟨before, i, after, heq, rfl⟩))
  · intro h sent hsent
    obtain ⟨before, i, after, heq, hflag⟩ := mem_sent_iff.mp hsent
    rw [hflag]
    exact (hplace before i sent.1 after heq).mpr (h before i sent.1 after heq)

/-! ## A cell for each thread -/

/-- A call that stores a flag leaves `false`. -/
def Cleaned (accesses : ι → List (FlagAccess ρ)) : Prop :=
  ∀ call i, ∀ value ∈ lastStore id i ((accesses call).map (Prod.mk i)), value = false

theorem lastStore_id (i : ℕ) (events : List (ℕ × FlagAccess ρ)) :
    lastStore id i events = lastStore id i ((accessesOf i events).map (Prod.mk i)) := by
  induction events using List.reverseRecOn with
  | nil => rfl
  | append_singleton events event ih =>
    rw [accessesOf_append, List.map_append, lastStore_append, lastStore_append, ih]
    congr 1
    obtain ⟨j, access⟩ := event
    by_cases hj : j = i
    · subst hj
      simp [accessesOf]
    · cases access <;> simp [accessesOf, hj, lastStore_singleton, storeIn]

theorem lastStore_of_cleaned (hcleaned : Cleaned accesses) (i : ℕ) (calls : List ι) :
    ∀ value ∈ lastStore id i ((calls.flatMap accesses).map (Prod.mk i)), value = false := by
  induction calls using List.reverseRecOn with
  | nil => simp
  | append_singleton calls call ih =>
    intro value hvalue
    rw [List.flatMap_append, List.flatMap_singleton, List.map_append, lastStore_append] at hvalue
    rcases Option.or_eq_some_iff.mp hvalue with hlast | ⟨-, hold⟩
    · exact hcleaned call i value hlast
    · exact ih value hold

theorem accessesOf_sinceOwn (i : ℕ) (events : List (ℕ × FlagAccess ρ)) :
    accessesOf i (sinceOwn i events) = [] := by
  unfold accessesOf sinceOwn
  rw [List.map_eq_nil_iff, List.filter_eq_nil_iff]
  intro event hevent
  have hother := List.all_eq_true.mp List.all_takeWhile event (List.mem_reverse.mp hevent)
  simpa using hother

/-- No run disturbs a request if the flags are those of the threads. -/
theorem sent_own_of_threadLocal (hguarded : Guarded accesses own flagged)
    (hcleaned : Cleaned accesses) (run : Interleaving fun i => (calls i).flatMap accesses) :
    ∀ sent ∈ (flagRun id run.events).2, sent.2 = own sent.1 := by
  refine (sent_own_iff hguarded run).mpr fun before i sent after h value hvalue => ?_
  obtain ⟨calls', call, calls'', pre, post, -, hcall, haccesses⟩ := run.exists_call h
  have hcond := hguarded call pre sent post hcall
  rw [id, lastStore_id] at hvalue
  split at hvalue
  · rw [accessesOf_sinceOwn] at hvalue
    exact absurd hvalue (by simp)
  · next hflagged =>
    rw [if_neg hflagged] at hcond
    rw [haccesses, hcond.1, List.append_nil] at hvalue
    rw [hcond.2]
    exact lastStore_of_cleaned hcleaned i calls' value hvalue

end Threads

end DataShare
