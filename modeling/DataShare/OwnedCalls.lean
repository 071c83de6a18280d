import DataShare.CppSubscriberManager
import DataShare.Ownership
import DataShare.PublishedKeyMoves
import DataShare.RdbKeyMoves

/-!
# What calls do to the nodes of a subscriber

Every call of a subscriber changes its own nodes of a key only, whether it is served by a C++ manager
(`Cpp.changesNodes_outcome`), by the manager of proxy data, or by a Rust one. A node it registers holds
the observer it is called with, and no other call brings an observer.
-/

namespace DataShare

/-! ## C++ nodes -/

section Nodes

variable {σ ω : Type} [DecidableEq σ]

abbrev ChangesNodes (subscriber : σ) (brings : Option ω → Prop)
    (before after : List (ObserverNode σ ω)) : Prop :=
  OwnChange ObserverNode.subscriber ObserverNode.observer subscriber brings before after

variable {subscriber : σ} {observer : Option ω} {brings : Option ω → Prop}

theorem changesNodes_eraseSubscriber (nodes : List (ObserverNode σ ω)) :
    ChangesNodes subscriber brings nodes (eraseSubscriber subscriber nodes) :=
  OwnChange.remove nodes

theorem forall₂_enableFirst : ∀ nodes : List (ObserverNode σ ω),
    List.Forall₂ (fun old node => node.subscriber = old.subscriber ∧ node.observer = old.observer ∧
      (old.subscriber ≠ subscriber → node = old)) nodes (enableFirst subscriber nodes)
  | [] => .nil
  | node :: nodes => by
    rw [enableFirst]
    split
    · next hs =>
      exact .cons ⟨rfl, rfl, fun hne => absurd hs hne⟩
        (List.forall₂_same.mpr fun _ _ => ⟨rfl, rfl, fun _ => rfl⟩)
    · exact .cons ⟨rfl, rfl, fun _ => rfl⟩ (forall₂_enableFirst nodes)

theorem changesNodes_enableFirst (nodes : List (ObserverNode σ ω)) :
    ChangesNodes subscriber brings nodes (enableFirst subscriber nodes) :=
  OwnChange.update (forall₂_enableFirst nodes)

theorem changesNodes_disableEnabled (nodes : List (ObserverNode σ ω)) :
    ChangesNodes subscriber brings nodes (disableEnabled subscriber nodes) := by
  unfold disableEnabled
  split
  · refine OwnChange.map_update fun node => ?_
    by_cases h : node.subscriber = subscriber ∧ node.enabled = true
    · rw [if_pos h]
      exact ⟨rfl, rfl, fun hne => absurd h.1 hne⟩
    · rw [if_neg h]
      exact ⟨rfl, rfl, fun _ => rfl⟩
  · exact .refl nodes

theorem changesNodes_append (nodes : List (ObserverNode σ ω)) (n : ℕ) :
    ChangesNodes subscriber (· = observer) nodes
      (nodes ++ List.replicate n (ObserverNode.new observer subscriber)) :=
  OwnChange.append fun node hnode => by
    rw [List.eq_of_mem_replicate hnode]
    exact ⟨rfl, rfl⟩

end Nodes

namespace CallbacksManager

variable {κ σ ω : Type} [Ord κ] [Std.TransOrd κ] [DecidableEq σ] {subscriber : σ}
  {brings : Option ω → Prop} {answer : ℕ → Answer} {callbacks : Callbacks κ σ ω}

theorem changesNodes_delLocal (codes : DelCodes) (keys : List κ) (k : κ) :
    ChangesNodes subscriber brings (nodesAt callbacks k)
      (nodesAt (delLocal codes keys subscriber callbacks).callbacks k) := by
  rw [nodesAt_delLocal]
  split
  · exact changesNodes_eraseSubscriber _
  · exact .refl _

theorem changesNodes_addObservers (keys : List κ) (observer : Option ω) (k : κ) :
    ChangesNodes subscriber (· = observer) (nodesAt callbacks k)
      (nodesAt (addObservers keys subscriber observer answer callbacks).callbacks k) := by
  rw [nodesAt_addObservers]
  split
  · exact changesNodes_eraseSubscriber _
  · exact changesNodes_append _ _

theorem changesNodes_addProxyDataObservers (keys : List κ) (observer : Option ω) (k : κ) :
    ChangesNodes subscriber (· = observer) (nodesAt callbacks k)
      (nodesAt (addProxyDataObservers keys subscriber observer answer callbacks).callbacks k) := by
  refine .trans ?_ (changesNodes_delLocal _ _ k)
  rw [nodesAt_addLocalProxyData]
  exact changesNodes_append _ _

theorem changesNodes_enableObservers (keys : List κ) (k : κ) :
    ChangesNodes subscriber brings (nodesAt callbacks k)
      (nodesAt (enableObservers keys subscriber answer callbacks).callbacks k) := by
  rw [nodesAt_enableObservers]
  split
  · exact (changesNodes_enableFirst _).trans (changesNodes_disableEnabled _)
  · split
    · exact changesNodes_enableFirst _
    · exact .refl _

theorem changesNodes_disableObservers (keys : List κ) (k : κ) :
    ChangesNodes subscriber brings (nodesAt callbacks k)
      (nodesAt (disableObservers keys subscriber answer callbacks).callbacks k) := by
  rw [nodesAt_disableObservers]
  split
  · exact (changesNodes_disableEnabled _).trans (changesNodes_enableFirst _)
  · split
    · exact changesNodes_disableEnabled _
    · exact .refl _

end CallbacksManager

namespace Cpp

variable {τ κ ν ε γ : Type} [Ord κ] [Std.TransOrd κ]

/-- The subscriber that makes the call. -/
def SubscriberCall.caller : SubscriberCall τ ε → Option ℕ
  | .addObservers subscriber .. | .delObservers subscriber .. | .delAllObservers subscriber
  | .enableObservers subscriber .. | .disableObservers subscriber .. => some subscriber
  | .emit _ => none

theorem changesNodes_outcome {cls : ManagerClass τ κ ν ε γ} {manager : SubscriberManager κ ν}
    {x : SubscriberExchange τ ε} {subscriber : ℕ} (hx : x.call.caller = some subscriber) (k : κ) :
    ChangesNodes subscriber (fun observer => x.call.Adds ∧ observer = some manager.made)
      (CallbacksManager.nodesAt manager.callbacks k)
      (CallbacksManager.nodesAt (x.outcome cls manager).manager.callbacks k) := by
  obtain ⟨call, answer⟩ := x
  cases call with
  | addObservers caller uris scope =>
    obtain rfl := Option.some_inj.mp hx
    exact (CallbacksManager.changesNodes_addObservers _ _ k).mono fun _ h => ⟨trivial, h⟩
  | delObservers caller uris scope =>
    obtain rfl := Option.some_inj.mp hx
    obtain ⟨order, keys, hdel⟩ := delObservers_eq_delKeys cls manager caller uris scope answer
    dsimp only [SubscriberExchange.outcome]
    rw [hdel]
    exact CallbacksManager.changesNodes_delLocal _ _ k
  | delAllObservers caller =>
    obtain rfl := Option.some_inj.mp hx
    exact CallbacksManager.changesNodes_delLocal _ _ k
  | enableObservers caller uris scope =>
    obtain rfl := Option.some_inj.mp hx
    exact CallbacksManager.changesNodes_enableObservers _ k
  | disableObservers caller uris scope =>
    obtain rfl := Option.some_inj.mp hx
    exact CallbacksManager.changesNodes_disableObservers _ k
  | emit change => exact absurd hx (by simp [SubscriberCall.caller])

end Cpp

/-! ## Rust entries -/

namespace Rust

section Entries

variable {ω : Type}

abbrev ChangesEntries (subscriber : ℕ) (brings : ω → Prop)
    (before after : List (SubscriberEntry ω)) : Prop :=
  OwnChange SubscriberEntry.subscriber SubscriberEntry.observer subscriber brings before after

variable {subscriber : ℕ} {observer : ω} {brings : ω → Prop}

theorem changesEntries_retainOthers (entries : List (SubscriberEntry ω)) :
    ChangesEntries subscriber brings entries (retainOthers subscriber entries) :=
  OwnChange.remove entries

theorem changesEntries_enableEntries (entries : List (SubscriberEntry ω)) :
    ChangesEntries subscriber brings entries (enableEntries subscriber entries) := by
  refine OwnChange.map_update fun entry => ?_
  by_cases h : entry.subscriber = subscriber ∧ entry.enabled = false
  · rw [if_pos h]
    exact ⟨rfl, rfl, fun hne => absurd h.1 hne⟩
  · rw [if_neg h]
    exact ⟨rfl, rfl, fun _ => rfl⟩

theorem forall₂_enableFirstEntry : ∀ entries : List (SubscriberEntry ω),
    List.Forall₂ (fun old entry => entry.subscriber = old.subscriber ∧ entry.observer = old.observer ∧
      (old.subscriber ≠ subscriber → entry = old)) entries (enableFirstEntry subscriber entries)
  | [] => .nil
  | entry :: entries => by
    rw [enableFirstEntry]
    split
    · next hs =>
      exact .cons ⟨rfl, rfl, fun hne => absurd hs hne⟩
        (List.forall₂_same.mpr fun _ _ => ⟨rfl, rfl, fun _ => rfl⟩)
    · exact .cons ⟨rfl, rfl, fun _ => rfl⟩ (forall₂_enableFirstEntry entries)

theorem changesEntries_disableEntries (entries : List (SubscriberEntry ω)) :
    ChangesEntries subscriber brings entries (disableEntries subscriber entries) := by
  refine OwnChange.map_update fun entry => ?_
  by_cases h : entry.subscriber = subscriber ∧ entry.enabled = true
  · rw [if_pos h]
    exact ⟨rfl, rfl, fun hne => absurd h.1 hne⟩
  · rw [if_neg h]
    exact ⟨rfl, rfl, fun _ => rfl⟩

theorem changesEntries_disableRefused (entries : List (SubscriberEntry ω)) :
    ChangesEntries subscriber brings entries (disableRefused subscriber entries) := by
  refine OwnChange.map_update fun entry => ?_
  by_cases h : entry.subscriber = subscriber
  · rw [if_pos h]
    exact ⟨rfl, rfl, fun hne => absurd h hne⟩
  · rw [if_neg h]
    exact ⟨rfl, rfl, fun _ => rfl⟩

/-! ### Turns of the loops -/

theorem changesEntries_addOnce (inUse : List (SubscriberEntry ω) → Bool) (view : KeyView ω) :
    ChangesEntries subscriber (· = observer) view.entries
      (addOnce inUse ⟨subscriber, observer, true, false⟩ view).entries :=
  OwnChange.append fun entry hentry => by
    rw [List.mem_singleton.mp hentry]
    exact ⟨rfl, rfl⟩

theorem changesEntries_enableOnce {found already : List (SubscriberEntry ω) → Bool}
    {enable : List (SubscriberEntry ω) → List (SubscriberEntry ω)} {missing : Int}
    (henable : ∀ entries, ChangesEntries subscriber brings entries (enable entries)) (view : KeyView ω) :
    ChangesEntries subscriber brings view.entries
      (enableOnce found already enable missing view).entries := by
  unfold enableOnce
  split
  · exact .refl _
  · split
    · exact .refl _
    · exact henable _

theorem changesEntries_disableOnce (view : List (SubscriberEntry ω) × ℕ) :
    ChangesEntries subscriber brings view.1 (disableOnce subscriber view).1 := by
  unfold disableOnce
  split
  · exact .refl _
  · split
    · exact .refl _
    · exact changesEntries_disableEntries _

end Entries

namespace RdbSubscriberManager

variable {ω δ : Type} {subscriber : ℕ} {brings : ω → Prop} {answer : ℕ → Answer}
  {self : RdbSubscriberManager ω δ}

theorem changesEntries_addObservers (uris : List String) (templateId : TemplateId) (callback : ω)
    (k : RdbObserverMapKey) : ChangesEntries subscriber (· = callback) (entriesOfKey k self)
      (entriesOfKey k (addObservers subscriber uris templateId callback answer self).manager) :=
  OwnChange.loop (addKey_view_turnAt subscriber callback) (changesEntries_addOnce _)
    (keysOf uris templateId) ⟨self.callbacks, [], [], []⟩

theorem changesEntries_delObservers (uris : List String) (templateId : TemplateId)
    (k : RdbObserverMapKey) : ChangesEntries subscriber brings (entriesOfKey k self)
      (entriesOfKey k (delObservers subscriber uris templateId answer self).manager) := by
  have hfind : ((keysOf uris templateId).foldl (delKey subscriber)
      ⟨self.callbacks, []⟩).callbacks.find? k = if Mentions k (keysOf uris templateId) then
        retainKey subscriber (self.callbacks.find? k) else self.callbacks.find? k :=
    find?_delLoop self.callbacks
  unfold entriesOfKey delObservers
  dsimp only
  rw [hfind]
  split
  · rw [getD_retainKey]
    exact changesEntries_retainOthers _
  · exact .refl _

theorem changesEntries_delAllObservers (k : RdbObserverMapKey) :
    ChangesEntries subscriber brings (entriesOfKey k self)
      (entriesOfKey k (delAllObservers subscriber self).manager) := by
  rw [entriesOfKey_delAllObservers]
  exact changesEntries_retainOthers _

theorem changesEntries_enableObservers (uris : List String) (templateId : TemplateId)
    (k : RdbObserverMapKey) : ChangesEntries subscriber brings (entriesOfKey k self)
      (entriesOfKey k (enableObservers subscriber uris templateId answer self).manager) :=
  OwnChange.loop (enableKey_view_turnAt subscriber self.lastChangeNodeMap)
    (changesEntries_enableOnce changesEntries_enableEntries) (keysOf uris templateId)
    ⟨self.callbacks, [], [], []⟩

theorem changesEntries_disableObservers (uris : List String) (templateId : TemplateId)
    (k : RdbObserverMapKey) : ChangesEntries subscriber brings (entriesOfKey k self)
      (entriesOfKey k (disableObservers subscriber uris templateId answer self).manager) :=
  OwnChange.loop (disableKey_view_turnAt subscriber) changesEntries_disableOnce
    (keysOf uris templateId) ⟨self.callbacks, [], []⟩

end RdbSubscriberManager

namespace PublishedDataSubscriberManager

variable {ω δ : Type} {subscriber : ℕ} {brings : ω → Prop} {answer : ℕ → Answer}
  {self : PublishedDataSubscriberManager ω δ}

theorem changesEntries_addObservers (uris : List String) (subscriberId : Int) (callback : ω)
    (k : PublishedObserverMapKey) : ChangesEntries subscriber (· = callback) (entriesOfKey k self)
      (entriesOfKey k (addObservers subscriber uris subscriberId callback answer self).manager) :=
  (OwnChange.loop (addKey_view_turnAt subscriber callback) (changesEntries_addOnce _)
    (publishedKeys uris subscriberId) ⟨self.callbacks, [], []⟩).trans
  (OwnChange.loop (retainAt_turnAt subscriber) changesEntries_retainOthers _ _)

theorem changesEntries_delObservers (uris : List String) (subscriberId : Int)
    (k : PublishedObserverMapKey) : ChangesEntries subscriber brings (entriesOfKey k self)
      (entriesOfKey k (delObservers subscriber uris subscriberId answer self).manager) :=
  OwnChange.loop (delKey_entries_turnAt subscriber) changesEntries_retainOthers
    (publishedKeys uris subscriberId) ⟨self.callbacks, []⟩

theorem changesEntries_delAllObservers (k : PublishedObserverMapKey) :
    ChangesEntries subscriber brings (entriesOfKey k self)
      (entriesOfKey k (delAllObservers subscriber answer self).manager) := by
  rw [entriesOfKey_delAllObservers]
  exact changesEntries_retainOthers _

theorem changesEntries_enableObservers (uris : List String) (subscriberId : Int)
    (k : PublishedObserverMapKey) : ChangesEntries subscriber brings (entriesOfKey k self)
      (entriesOfKey k (enableObservers subscriber uris subscriberId answer self).manager) :=
  (OwnChange.loop (enableKey_view_turnAt subscriber)
    (changesEntries_enableOnce fun entries => OwnChange.update (forall₂_enableFirstEntry entries))
    (publishedKeys uris subscriberId) ⟨self.callbacks, [], .empty, []⟩).trans
  (OwnChange.loop (disableRefusedAt_turnAt subscriber) changesEntries_disableRefused _ _)

theorem changesEntries_disableObservers (uris : List String) (subscriberId : Int)
    (k : PublishedObserverMapKey) : ChangesEntries subscriber brings (entriesOfKey k self)
      (entriesOfKey k (disableObservers subscriber uris subscriberId answer self).manager) :=
  OwnChange.loop (disableKey_view_turnAt subscriber) changesEntries_disableOnce
    (publishedKeys uris subscriberId) ⟨self.callbacks, [], []⟩

end PublishedDataSubscriberManager

end Rust

end DataShare
