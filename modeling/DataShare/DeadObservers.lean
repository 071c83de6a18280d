import DataShare.RdbKeyMoves
import DataShare.PublishedKeyMoves

/-!
# Dead observers

A registration that is reported as a success leaves an observer the service knows of, in all runs of
either Rust manager that are backed (`noDeadObserver`). The conditions are where the managers differ
from the class of the C++ ones, which registers a key again whenever it has no enabled observer, and
takes back whatever the service refuses : the RDB manager takes nothing back, and the manager of
published data takes disabled observers for registered ones (`deadObserver_of_failure`).
-/

namespace DataShare.Rust

/-- Neither manager has a dead observer, in all runs that add to no dead key. -/
theorem noDeadObserver {ω δ : Type} :
    (∀ (calls : List (RdbSubscriberManager.Exchange ω δ)) (k : RdbObserverMapKey),
        RdbSubscriberManager.BackedRun k calls →
          NoDeadObserver (RdbSubscriberManager.keyEvents k calls)) ∧
      ∀ (calls : List (PublishedDataSubscriberManager.Exchange ω δ)) (k : PublishedObserverMapKey),
        PublishedDataSubscriberManager.BackedRun k calls →
          NoDeadObserver (PublishedDataSubscriberManager.keyEvents k calls) :=
  ⟨fun _ _ => RdbSubscriberManager.noDeadObserver_of_backedRun,
    fun _ _ => PublishedDataSubscriberManager.noDeadObserver_of_backedRun⟩

/-! ## Runs -/

theorem not_deadKey {κ ω : Type} {stuck : Answer → Bool} {events : List (KeyEvent κ ω)}
    (h : ∀ e ∈ events, ∀ r ∈ e.sent, stuck r.answer = false) : ¬ DeadKey stuck events := by
  rintro ⟨before, e, after, rfl, ⟨-, r, hr, hstuck⟩, -⟩
  rw [h e (by simp) r hr] at hstuck
  exact Bool.false_ne_true hstuck

/-- A run in which no registration gets stuck is backed. -/
theorem throughout_backed {κ ω : Type} {stuck : Answer → Bool} {events : List (KeyEvent κ ω)}
    (h : ∀ e ∈ events, ∀ r ∈ e.sent, stuck r.answer = false) :
    Throughout (Backed stuck) events := by
  rintro before e rest rfl
  refine ⟨fun _ => not_deadKey fun first hfirst => h first ?_, fun _ => h e (by simp)⟩
  exact List.mem_append_left _ hfirst

/-- An observer is disabled before another one is added. -/
def rdbDisabled : List (RdbSubscriberManager.Exchange ℕ ℕ) :=
  [RdbSubscriberManager.accepting (.addObservers 1 ["uri"] RdbSubscriberManager.someTemplate 10),
    RdbSubscriberManager.accepting (.disableObservers 1 ["uri"] RdbSubscriberManager.someTemplate),
    RdbSubscriberManager.accepting (.addObservers 2 ["uri"] RdbSubscriberManager.someTemplate 20)]

/-- An observer is added again that was refused, and then another one. -/
def publishedRefused : List (PublishedDataSubscriberManager.Exchange ℕ ℕ) :=
  [⟨.addObservers 1 ["uri"] 1 10, fun _ => .replied innerError⟩,
    ⟨.addObservers 1 ["uri"] 1 10, fun _ => .replied errOk⟩,
    ⟨.addObservers 2 ["uri"] 1 20, fun _ => .replied errOk⟩]

theorem noDeadObserver_disabled_refused :
    NoDeadObserver (RdbSubscriberManager.keyEvents RdbSubscriberManager.someKey rdbDisabled) ∧
      NoDeadObserver (PublishedDataSubscriberManager.keyEvents (.new "uri" 1) publishedRefused) := by
  refine ⟨noDeadObserver.1 rdbDisabled RdbSubscriberManager.someKey ⟨?_, ?_⟩,
    noDeadObserver.2 publishedRefused (.new "uri" 1) ⟨?_, ?_, ?_⟩⟩
  · simp [rdbDisabled, RdbSubscriberManager.accepting]
  · exact throughout_backed (by decide +kernel)
  · simp [publishedRefused]
  · exact throughout_iff_getElem.mpr (by decide +kernel)
  · exact throughout_backed (by decide +kernel)

/-! ### Dead observers -/

/-- A registration that the service refused is followed by another one. -/
def rdbRefused : List (RdbSubscriberManager.Exchange ℕ ℕ) :=
  [⟨.addObservers 1 ["uri"] RdbSubscriberManager.someTemplate 10, fun _ => .replied innerError⟩,
    RdbSubscriberManager.accepting (.addObservers 2 ["uri"] RdbSubscriberManager.someTemplate 20)]

/-- An observer is disabled before another one is added. -/
def publishedDisabled : List (PublishedDataSubscriberManager.Exchange ℕ ℕ) :=
  [⟨.addObservers 1 ["uri"] 1 10, fun _ => .replied errOk⟩,
    ⟨.disableObservers 1 ["uri"] 1, fun _ => .replied errOk⟩,
    ⟨.addObservers 2 ["uri"] 1 20, fun _ => .replied errOk⟩]

/-- A success that is reported with the last call makes a dead observer of a key that is not held. -/
theorem not_noDeadObserver {κ ω : Type} {events : List (KeyEvent κ ω)} (subscriber : ℕ)
    (hlast : ∃ e ∈ events.getLast?, HoldsEnabled subscriber e.entries ∧ e.Reports subscriber)
    (hheld : heldBy events ≠ ⟨true, true⟩) : ¬ NoDeadObserver events := by
  obtain ⟨e, he, hholds, hreports⟩ := hlast
  obtain ⟨before, rfl⟩ := List.getLast?_eq_some_iff.mp he
  exact fun h => hheld (h.on subscriber (reported_concat.mpr ⟨hholds, .inl hreports⟩))

/-- The second subscriber is told that it is registered, and is not. -/
theorem deadObserver_of_failure :
    ¬ NoDeadObserver (RdbSubscriberManager.keyEvents RdbSubscriberManager.someKey rdbRefused) ∧
      ¬ NoDeadObserver (PublishedDataSubscriberManager.keyEvents (.new "uri" 1)
        publishedDisabled) := by
  constructor
  · exact not_noDeadObserver 2 (by decide +kernel) (by decide +kernel)
  · exact not_noDeadObserver 2 (by decide +kernel) (by decide +kernel)

end DataShare.Rust
