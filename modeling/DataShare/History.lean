import Mathlib.Data.List.Induction
import Mathlib.Tactic.Common

/-!
# Histories of calls

A component answers calls one after the other : `step` gives its next state and the
messages it sends, and `runCalls` the state and the log of all messages after a list of
calls, oldest first. `AllowedRun.invariant` is the induction over runs whose calls are each made in
a state that allows them.

What happened earlier in a run is said about its histories, the lists of calls made so
far. `Throughout P` holds of a history whose calls were all made under `P`. `Since P Q`
holds of a history with a call made under `P` such that `Q` has held ever since, and
`since_concat` is its recursion over the last call. `exists_change` finds the call that
made a fact about the history true.
-/

namespace DataShare

section Runs

variable {σ ι ρ : Type}

/-- One call from a state and a log. -/
def advance (step : σ → ι → σ × List ρ) (run : σ × List ρ) (call : ι) : σ × List ρ :=
  ((step run.1 call).1, run.2 ++ (step run.1 call).2)

/-- The state and the log after `calls`. -/
def runCalls (step : σ → ι → σ × List ρ) (init : σ) (calls : List ι) : σ × List ρ :=
  calls.foldl (advance step) (init, [])

@[simp] theorem runCalls_nil (step : σ → ι → σ × List ρ) (init : σ) :
    runCalls step init [] = (init, []) :=
  rfl

theorem runCalls_concat (step : σ → ι → σ × List ρ) (init : σ) (calls : List ι) (call : ι) :
    runCalls step init (calls ++ [call]) = advance step (runCalls step init calls) call := by
  unfold runCalls
  rw [List.foldl_append, List.foldl_cons, List.foldl_nil]

theorem runCalls_append (step : σ → ι → σ × List ρ) (init : σ) (calls more : List ι) :
    runCalls step init (calls ++ more) =
      ((runCalls step (runCalls step init calls).1 more).1,
        (runCalls step init calls).2 ++ (runCalls step (runCalls step init calls).1 more).2) := by
  induction more using List.reverseRecOn with
  | nil => simp
  | append_singleton more call ih =>
    rw [← List.append_assoc, runCalls_concat, ih, runCalls_concat]
    simp [advance]

theorem runCalls_cons (step : σ → ι → σ × List ρ) (init : σ) (call : ι) (more : List ι) :
    runCalls step init (call :: more) = ((runCalls step (step init call).1 more).1,
      (step init call).2 ++ (runCalls step (step init call).1 more).2) :=
  runCalls_append step init [call] more

theorem runCalls_append_fst (step : σ → ι → σ × List ρ) (init : σ) (calls more : List ι) :
    (runCalls step init (calls ++ more)).1 = (runCalls step (runCalls step init calls).1 more).1 := by
  rw [runCalls_append]

/-- The state does not depend on what is logged. -/
theorem runCalls_fst (next : σ → ι → σ) (sends : σ → ι → List ρ) (init : σ) (calls : List ι) :
    (runCalls (fun state call => (next state call, sends state call)) init calls).1 =
      calls.foldl next init := by
  induction calls using List.reverseRecOn with
  | nil => rfl
  | append_singleton calls call ih =>
    rw [runCalls_concat, List.foldl_append, List.foldl_cons, List.foldl_nil, ← ih]
    rfl

/-- Every call of the run is made in a state that allows it. -/
def AllowedRun (step : σ → ι → σ × List ρ) (allowed : σ → ι → Prop) (init : σ)
    (calls : List ι) : Prop :=
  ∀ before call after, calls = before ++ call :: after → allowed (runCalls step init before).1 call

theorem allowedRun_nil {step : σ → ι → σ × List ρ} {allowed : σ → ι → Prop} {init : σ} :
    AllowedRun step allowed init [] :=
  fun _ _ _ heq => absurd heq (by simp)

theorem allowedRun_concat {step : σ → ι → σ × List ρ} {allowed : σ → ι → Prop} {init : σ}
    {calls : List ι} {call : ι} : AllowedRun step allowed init (calls ++ [call]) ↔
      AllowedRun step allowed init calls ∧ allowed (runCalls step init calls).1 call := by
  constructor
  · refine fun h => ⟨fun before first after heq => ?_, h calls call [] rfl⟩
    exact h before first (after ++ [call]) (by simp [heq])
  · rintro ⟨h, hlast⟩ before first after heq
    induction after using List.reverseRecOn with
    | nil =>
      obtain ⟨rfl, hcall⟩ := List.append_inj' heq rfl
      obtain rfl := List.singleton_inj.mp hcall
      exact hlast
    | append_singleton after last _ =>
      rw [← List.cons_append, ← List.append_assoc] at heq
      exact h before first after (List.append_inj' heq rfl).1

/-- A run that is allowed is one after each of its calls. -/
theorem AllowedRun.of_append {step : σ → ι → σ × List ρ} {allowed : σ → ι → Prop} {init : σ}
    {calls more : List ι} (h : AllowedRun step allowed init (calls ++ more)) :
    AllowedRun step allowed init calls ∧
      AllowedRun step allowed (runCalls step init calls).1 more := by
  constructor
  · exact fun before call after heq => h before call (after ++ more) (by simp [heq])
  · intro before call after heq
    rw [← runCalls_append_fst]
    exact h (calls ++ before) call after (by simp [heq])

/-- What holds at first, and is kept by every allowed call, holds after every allowed run. -/
theorem AllowedRun.invariant {step : σ → ι → σ × List ρ} {allowed : σ → ι → Prop} {init : σ}
    {calls : List ι} (h : AllowedRun step allowed init calls) {P : σ → List ρ → Prop}
    (hinit : P init []) (hstep : ∀ state log call, allowed state call → P state log →
      P (step state call).1 (log ++ (step state call).2)) :
    P (runCalls step init calls).1 (runCalls step init calls).2 := by
  induction calls using List.reverseRecOn with
  | nil => exact hinit
  | append_singleton calls call ih =>
    obtain ⟨hcalls, hlast⟩ := allowedRun_concat.mp h
    rw [runCalls_concat]
    exact hstep _ _ call hlast (ih hcalls)

end Runs

section PastTime

variable {ι : Type} {P : List ι → ι → Prop} {Q : List ι → Prop}

/-- Every call was made under `P`. -/
def Throughout (P : List ι → ι → Prop) (calls : List ι) : Prop :=
  ∀ before call after, calls = before ++ call :: after → P before call

theorem throughout_nil : Throughout P [] :=
  fun _ _ _ heq => absurd heq (by simp)

theorem throughout_concat {calls : List ι} {call : ι} :
    Throughout P (calls ++ [call]) ↔ Throughout P calls ∧ P calls call := by
  constructor
  · refine fun h => ⟨fun before first after heq => ?_, h calls call [] rfl⟩
    exact h before first (after ++ [call]) (by simp [heq])
  · rintro ⟨h, hlast⟩ before first after heq
    rcases List.eq_nil_or_concat after with rfl | ⟨after, last, rfl⟩
    · obtain ⟨rfl, hcall⟩ := List.append_inj' heq rfl
      obtain rfl := List.singleton_inj.mp hcall
      exact hlast
    · rw [List.concat_eq_append, ← List.cons_append, ← List.append_assoc] at heq
      exact h before first after (List.append_inj' heq rfl).1

theorem throughout_iff_getElem {calls : List ι} :
    Throughout P calls ↔ ∀ i, (h : i < calls.length) → P (calls.take i) calls[i] := by
  constructor
  · exact fun h i hi => h (calls.take i) calls[i] (calls.drop (i + 1)) (by simp)
  · rintro h before call after rfl
    simpa using h before.length (by simp)

theorem Throughout.of_append {calls more : List ι} (h : Throughout P (calls ++ more)) :
    Throughout P calls :=
  fun before call after heq => h before call (after ++ more) (by simp [heq])

/-- Some call was made under `P`, and `Q` has held after it and after every later one. -/
def Since (P : List ι → ι → Prop) (Q : List ι → Prop) (calls : List ι) : Prop :=
  ∃ before call after, calls = before ++ call :: after ∧ P before call ∧
    ∀ mid rest, after = mid ++ rest → Q (before ++ call :: mid)

theorem not_since_nil : ¬ Since P Q [] := by
  rintro ⟨before, call, after, h, -⟩
  simp at h

theorem Since.now {calls : List ι} (h : Since P Q calls) : Q calls := by
  obtain ⟨before, call, after, rfl, -, hQ⟩ := h
  exact hQ after [] (List.append_nil after).symm

theorem since_concat {calls : List ι} {call : ι} : Since P Q (calls ++ [call]) ↔
    Q (calls ++ [call]) ∧ (P calls call ∨ Since P Q calls) := by
  constructor
  · intro h
    refine ⟨h.now, ?_⟩
    obtain ⟨before, first, after, heq, hP, hQ⟩ := h
    induction after using List.reverseRecOn with
    | nil =>
      obtain ⟨rfl, hc⟩ := List.append_inj' heq rfl
      obtain rfl := List.singleton_inj.mp hc
      exact .inl hP
    | append_singleton after last _ =>
      rw [← List.cons_append, ← List.append_assoc] at heq
      obtain ⟨rfl, -⟩ := List.append_inj' heq rfl
      refine .inr ⟨before, first, after, rfl, hP, fun mid rest h => hQ mid (rest ++ [last]) ?_⟩
      rw [h, List.append_assoc]
  · rintro ⟨hnow, hP | ⟨before, first, after, rfl, hP, hQ⟩⟩
    · refine ⟨calls, call, [], rfl, hP, fun mid rest h => ?_⟩
      obtain ⟨rfl, -⟩ := List.append_eq_nil_iff.mp h.symm
      exact hnow
    · refine ⟨before, first, after ++ [call], by simp, hP, fun mid rest h => ?_⟩
      induction rest using List.reverseRecOn with
      | nil =>
        rw [List.append_nil] at h
        rw [← h]
        simpa using hnow
      | append_singleton rest last _ =>
        rw [← List.append_assoc] at h
        exact hQ mid rest (List.append_inj' h rfl).1

/-- A fact that fails after `base` and holds later was made true by one call between. -/
theorem exists_change : ∀ {base more : List ι}, ¬ Q base → Q (base ++ more) →
    ∃ before call after, more = before ++ call :: after ∧
      ¬ Q (base ++ before) ∧ Q (base ++ before ++ [call])
  | base, [], h, h' => absurd (by rwa [List.append_nil] at h') h
  | base, call :: more, h, h' => by
    by_cases hc : Q (base ++ [call])
    · refine ⟨[], call, more, rfl, ?_, ?_⟩
      · rwa [List.append_nil]
      · rwa [List.append_nil]
    · rw [List.append_cons] at h'
      obtain ⟨before, last, after, rfl, hb, hl⟩ := exists_change hc h'
      refine ⟨call :: before, last, after, rfl, ?_, ?_⟩
      · rwa [List.append_cons]
      · rwa [List.append_cons base call before]

end PastTime

end DataShare
