import Mathlib.Data.List.Chain
import Mathlib.Order.Lattice

/-!
# Bursts of events

Times of events, oldest first. Events less than `gap` apart, each from the one before, are a burst.
`BurstsAtMost gap n` bounds all bursts of a history, `LastBurstAtMost gap n` those that end with its
last event. One event more makes the last burst longer by one (`LastBurstAtMost.concat`), or begins a
new one if it comes late enough (`lastBurstAtMost_one`), and leaves all others as they are
(`BurstsAtMost.concat`).

`WindowsAtMost gap n` bounds the events of any window shorter than `gap`. An event keeps it if fewer
than `n` of those before are less than `gap` ago (`recentCount`, `WindowsAtMost.concat`).
-/

namespace DataShare

variable {τ : Type} [Sub τ] [LinearOrder τ]

/-- Each event comes less than `gap` after the one before. -/
def IsBurst (gap : τ) (times : List τ) : Prop :=
  times.IsChain fun s t => t - s < gap

/-- No burst has more than `n` events. -/
def BurstsAtMost (gap : τ) (n : ℕ) (times : List τ) : Prop :=
  ∀ window, window <:+: times → IsBurst gap window → window.length ≤ n

/-- No burst up to the last event has more than `n` events. -/
def LastBurstAtMost (gap : τ) (n : ℕ) (times : List τ) : Prop :=
  ∀ window, window <:+ times → IsBurst gap window → window.length ≤ n

/-- No window shorter than `gap` has more than `n` events. -/
def WindowsAtMost (gap : τ) (n : ℕ) (times : List τ) : Prop :=
  ∀ window, window <:+: times → (∀ s ∈ window, ∀ t ∈ window, t - s < gap) → window.length ≤ n

/-- How many events are less than `gap` ago. -/
def recentCount (gap now : τ) (times : List τ) : ℕ :=
  times.countP fun s => now - s < gap

/-- Each event comes at least `gap` after the one before. -/
def Spaced (gap : τ) (times : List τ) : Prop :=
  times.IsChain fun s t => gap ≤ t - s

variable {gap : τ} {n : ℕ} {times : List τ} {t : τ}

theorem burstsAtMost_nil : BurstsAtMost gap n [] := by
  intro window hwindow _
  simp [List.eq_nil_of_infix_nil hwindow]

theorem LastBurstAtMost.mono {m : ℕ} (h : LastBurstAtMost gap n times) (hle : n ≤ m) :
    LastBurstAtMost gap m times :=
  fun window hwindow hburst => (h window hwindow hburst).trans hle

/-- A burst that goes on has one event more. -/
theorem LastBurstAtMost.concat (h : LastBurstAtMost gap n times) :
    LastBurstAtMost gap (n + 1) (times ++ [t]) := by
  intro window hwindow hburst
  rcases List.suffix_concat_iff.mp hwindow with rfl | ⟨front, rfl, hfront⟩
  · simp
  · have := h front hfront (List.IsChain.left_of_append hburst)
    simpa using this

/-- An event that comes late begins a burst of its own. -/
theorem lastBurstAtMost_one (h : ∀ s ∈ times.getLast?, gap ≤ t - s) :
    LastBurstAtMost gap 1 (times ++ [t]) := by
  intro window hwindow hburst
  rcases List.suffix_concat_iff.mp hwindow with rfl | ⟨front, rfl, hfront⟩
  · simp
  · rcases List.eq_nil_or_concat front with rfl | ⟨front, last, rfl⟩
    · simp
    · rw [List.concat_eq_append] at hfront hburst
      have hlast : last ∈ times.getLast? := by
        obtain ⟨init, rfl⟩ := hfront
        simp
      have hlt : t - last < gap :=
        (List.isChain_append.mp hburst).2.2 last (by simp) t (by simp)
      exact absurd hlt (not_lt.mpr (h last hlast))

theorem BurstsAtMost.concat (h : BurstsAtMost gap n times)
    (hlast : LastBurstAtMost gap n (times ++ [t])) : BurstsAtMost gap n (times ++ [t]) := by
  intro window hwindow hburst
  rcases List.infix_concat_iff.mp hwindow with hsuffix | hinfix
  · exact hlast window hsuffix hburst
  · exact h window hinfix hburst

theorem spaced_nil : Spaced gap [] :=
  List.isChain_nil

theorem Spaced.concat (h : Spaced gap times) (hlast : ∀ s ∈ times.getLast?, gap ≤ t - s) :
    Spaced gap (times ++ [t]) :=
  List.IsChain.append h (List.isChain_singleton t) fun s hs u hu => by
    obtain rfl : t = u := by simpa using hu
    exact hlast s hs

theorem windowsAtMost_nil : WindowsAtMost gap n [] := by
  intro window hwindow _
  simp [List.eq_nil_of_infix_nil hwindow]

/-- A window that ends with the event holds no event that is not recent. -/
theorem WindowsAtMost.concat (h : WindowsAtMost gap n times) (hrecent : recentCount gap t times < n) :
    WindowsAtMost gap n (times ++ [t]) := by
  intro window hwindow hshort
  rcases List.infix_concat_iff.mp hwindow with hsuffix | hinfix
  · rcases List.suffix_concat_iff.mp hsuffix with rfl | ⟨front, rfl, hfront⟩
    · exact Nat.zero_le n
    · have hall : front.countP (fun s => t - s < gap) = front.length := by
        refine List.countP_eq_length.mpr fun s hs => decide_eq_true ?_
        exact hshort s (List.mem_append_left _ hs) t
          (List.mem_append_right _ (List.mem_singleton.mpr rfl))
      have hle : front.length ≤ recentCount gap t times := by
        rw [← hall]
        exact hfront.sublist.countP_le
      rw [List.length_append, List.length_singleton]
      omega
  · exact h window hinfix hshort

theorem recentCount_concat_le {now : τ} :
    recentCount gap now (times ++ [t]) ≤ recentCount gap now times + 1 := by
  unfold recentCount
  rw [List.countP_append, List.countP_singleton]
  split <;> omega

theorem recentCount_le_of_imp {now later : τ} (h : ∀ s, later - s < gap → now - s < gap) :
    recentCount gap later times ≤ recentCount gap now times :=
  List.countP_mono_left fun s _ hs => decide_eq_true (h s (of_decide_eq_true hs))

end DataShare
