import DataShare.OperationResults

/-!
# Enabling what was disabled

`DisableObservers` disables every node of the subscriber at a key with an enabled observer, and
`EnableObservers` enables the first one it finds. One after the other gives the subscriber's nodes
their flags back exactly at the keys where the first call does nothing or the subscriber has one
node (`restores_iff`), and the two calls restore a table exactly if that is so at each of their
keys (`disable_enable_restores_iff`).
-/

namespace DataShare

/-! ## One key -/

section Nodes

variable {σ ω : Type} [DecidableEq σ] {subscriber : σ} {nodes : List (ObserverNode σ ω)}

/-- A node of the subscriber is enabled, up to its notification flag the one of before, and
another's is unchanged. -/
structure Restored (subscriber : σ) (before after : ObserverNode σ ω) : Prop where
  own : after.subscriber = before.subscriber
  observer : after.observer = before.observer
  enabled : before.subscriber = subscriber → after.enabled = true
  other : before.subscriber ≠ subscriber → after = before

/-- How many nodes of the list are the subscriber's. -/
def registrations (subscriber : σ) (nodes : List (ObserverNode σ ω)) : ℕ :=
  nodes.countP fun node => node.subscriber = subscriber

omit [DecidableEq σ] in
theorem restored_self (node : ObserverNode σ ω)
    (h : node.subscriber = subscriber → node.enabled = true) : Restored subscriber node node :=
  ⟨rfl, rfl, h, fun _ => rfl⟩

omit [DecidableEq σ] in
theorem restored_refl (h : ∀ node ∈ nodes, node.subscriber = subscriber → node.enabled = true) :
    List.Forall₂ (Restored subscriber) nodes nodes :=
  List.forall₂_same.mpr fun node hnode => restored_self node (h node hnode)

/-- Without `EnableObservers` the disabled nodes are restored only if there are none. -/
theorem restored_disableSubscriber
    (h : ∀ node ∈ nodes, node.subscriber = subscriber → node.enabled = true) :
    List.Forall₂ (Restored subscriber) nodes (disableSubscriber subscriber nodes) ↔
      registrations subscriber nodes = 0 := by
  induction nodes with
  | nil => simp [disableSubscriber, registrations]
  | cons node nodes ih =>
    obtain ⟨hnode, hnodes⟩ := List.forall_mem_cons.mp h
    unfold registrations disableSubscriber at ih ⊢
    rw [List.map_cons, List.forall₂_cons, ih hnodes]
    by_cases hown : node.subscriber = subscriber
    · rw [List.countP_cons_of_pos (by simpa using hown), if_pos ⟨hown, hnode hown⟩]
      refine iff_of_false ?_ (Nat.succ_ne_zero _)
      rintro ⟨hrestored, -⟩
      exact Bool.false_ne_true (hrestored.enabled hown)
    · rw [List.countP_cons_of_neg (by simpa using hown), if_neg fun h => hown h.1]
      exact and_iff_right (restored_self node hnode)

theorem restored_enableFirst
    (h : ∀ node ∈ nodes, node.subscriber = subscriber → node.enabled = true) :
    List.Forall₂ (Restored subscriber) nodes
        (enableFirst subscriber (disableSubscriber subscriber nodes)) ↔
      registrations subscriber nodes ≤ 1 := by
  induction nodes with
  | nil => simp [disableSubscriber, enableFirst, registrations]
  | cons node nodes ih =>
    obtain ⟨hnode, hnodes⟩ := List.forall_mem_cons.mp h
    have hrest := restored_disableSubscriber hnodes
    unfold registrations disableSubscriber at ih hrest ⊢
    rw [List.map_cons]
    by_cases hown : node.subscriber = subscriber
    · rw [List.countP_cons_of_pos (by simpa using hown), if_pos ⟨hown, hnode hown⟩, enableFirst,
        if_pos hown, List.forall₂_cons, hrest, Nat.add_one_le_iff, Nat.lt_one_iff]
      exact and_iff_right ⟨rfl, rfl, fun _ => rfl, fun hne => absurd hown hne⟩
    · rw [List.countP_cons_of_neg (by simpa using hown), if_neg fun h => hown h.1, enableFirst,
        if_neg hown, List.forall₂_cons, ih hnodes]
      exact and_iff_right (restored_self node hnode)

/-- What the two calls do to a key restores it exactly if nothing was disabled or the subscriber
has one node there. -/
theorem restores_iff (h : ∀ node ∈ nodes, node.subscriber = subscriber → node.enabled = true) :
    List.Forall₂ (Restored subscriber) nodes
        (enableFirst subscriber (disableEnabled subscriber nodes)) ↔
      (HasEnabled nodes → registrations subscriber nodes ≤ 1) := by
  unfold disableEnabled
  split
  · next hE => rw [restored_enableFirst h, imp_iff_right hE]
  · next hE =>
    refine iff_of_true ?_ fun hE' => absurd hE' hE
    have hfirst : ¬ FirstDisabled subscriber nodes := by
      rintro ⟨node, hfind, hdis⟩
      have hown : node.subscriber = subscriber := by simpa using List.find?_some hfind
      exact absurd ((h node (List.mem_of_find?_eq_some hfind) hown).symm.trans hdis) (by simp)
    rw [enableFirst_of_not_firstDisabled hfirst]
    exact restored_refl h

end Nodes

/-! ## The table -/

namespace CallbacksManager

variable {κ σ ω : Type} [Ord κ] [Std.TransOrd κ] [DecidableEq σ]

/-- `DisableObservers` followed by `EnableObservers`. -/
def disableEnable (keys : List κ) (subscriber : σ) (disabling enabling : ℕ → Answer)
    (callbacks : Callbacks κ σ ω) : Callbacks κ σ ω :=
  (enableObservers keys subscriber enabling
    (disableObservers keys subscriber disabling callbacks).callbacks).callbacks

theorem nodesAt_disableEnable {keys : List κ} {subscriber : σ} {disabling enabling : ℕ → Answer}
    {callbacks : Callbacks κ σ ω} (hdisabling : ∀ i, (disabling i).accepted = true)
    (henabling : ∀ i, (enabling i).accepted = true) (k : κ) :
    nodesAt (disableEnable keys subscriber disabling enabling callbacks) k =
      if Mentions k keys then enableFirst subscriber (disableEnabled subscriber (nodesAt callbacks k))
      else nodesAt callbacks k := by
  have hundone {callbacks : Callbacks κ σ ω} :
      (enableLocal [] subscriber callbacks).callbacks = callbacks ∧
        (disableLocal [] subscriber callbacks).callbacks = callbacks := ⟨rfl, rfl⟩
  unfold disableEnable enableObservers disableObservers
  dsimp only
  rw [failedKeys_of_accepted hdisabling, failedKeys_of_accepted henabling, hundone.1, hundone.2,
    nodesAt_enableLocal, nodesAt_disableLocal]
  split <;> rfl

/-- With the service accepting both calls, a table in which the subscriber's nodes are enabled is
restored exactly if the subscriber has at most one node at each of the keys with an enabled
observer : `EnableObservers` enables only the first. -/
theorem disable_enable_restores_iff (keys : List κ) (subscriber : σ) (disabling enabling : ℕ → Answer)
    (callbacks : Callbacks κ σ ω)
    (henabled : ∀ k, ∀ node ∈ nodesAt callbacks k, node.subscriber = subscriber → node.enabled = true)
    (hdisabling : ∀ i, (disabling i).accepted = true)
    (henabling : ∀ i, (enabling i).accepted = true) :
    (∀ k, List.Forall₂ (Restored subscriber) (nodesAt callbacks k)
      (nodesAt (disableEnable keys subscriber disabling enabling callbacks) k)) ↔
    ∀ k ∈ keys, HasEnabled (nodesAt callbacks k) →
      registrations subscriber (nodesAt callbacks k) ≤ 1 := by
  constructor
  · intro hall k hk
    have hrestored := hall k
    rwa [nodesAt_disableEnable hdisabling henabling,
      if_pos ⟨k, hk, Std.ReflCmp.compare_self⟩, restores_iff (henabled k)] at hrestored
  · intro hone k
    rw [nodesAt_disableEnable hdisabling henabling]
    split
    · next hk =>
      obtain ⟨key, hkey, hcmp⟩ := hk
      rw [restores_iff (henabled k), ← nodesAt_congr hcmp]
      exact hone key hkey
    · exact restored_refl (henabled k)

/-- Registered observers are enabled. -/
theorem enabled_addTwice {subscriber subscriber' : ℕ} {observer observer' : Option ℕ} {k : ℕ}
    {node : ObserverNode ℕ ℕ}
    (h : node ∈ nodesAt (addLocal [0] subscriber' observer'
      (addLocal [0] subscriber observer .empty).callbacks).callbacks k) : node.enabled = true := by
  rw [nodesAt_addLocal, nodesAt_addLocal, List.append_assoc, List.mem_append, List.mem_append,
    List.mem_replicate, List.mem_replicate] at h
  rcases h with hnil | ⟨-, rfl⟩ | ⟨-, rfl⟩
  · exact absurd hnil (by exact List.not_mem_nil)
  · rfl
  · rfl

theorem disable_enable_restores_two_subscribers :
    List.Forall₂ (Restored 1) (nodesAt twoSubscribers 0)
      (nodesAt (disableEnable [0] 1 (fun _ => .replied errOk) (fun _ => .replied errOk)
        twoSubscribers) 0) := by
  refine (disable_enable_restores_iff [0] 1 (fun _ => .replied errOk) (fun _ => .replied errOk)
    twoSubscribers (fun k node hnode _ => enabled_addTwice hnode) (fun _ => rfl)
    fun _ => rfl).mpr ?_ 0
  intro k hk _
  rw [List.mem_singleton.mp hk]
  exact Nat.le_refl 1

/-- Subscriber 1 with two observers of a key. -/
def registeredTwice : Callbacks ℕ ℕ ℕ :=
  (addLocal [0] 1 (some 20) (addLocal [0] 1 (some 10) .empty).callbacks).callbacks

/-- The second observer stays disabled. -/
theorem second_observer_stays_disabled :
    ¬ ∀ (keys : List ℕ) (subscriber : ℕ) (disabling enabling : ℕ → Answer)
      (callbacks : Callbacks ℕ ℕ ℕ),
      (∀ k, ∀ node ∈ nodesAt callbacks k, node.subscriber = subscriber → node.enabled = true) →
      (∀ i, (disabling i).accepted = true) → (∀ i, (enabling i).accepted = true) →
      ∀ k, List.Forall₂ (Restored subscriber) (nodesAt callbacks k)
        (nodesAt (disableEnable keys subscriber disabling enabling callbacks) k) := by
  intro hall
  have hrestored : List.Forall₂ (Restored 1) [⟨some 10, true, 1, false⟩, ⟨some 20, true, 1, false⟩]
      [⟨some 10, true, 1, false⟩, (⟨some 20, false, 1, false⟩ : ObserverNode ℕ ℕ)] :=
    hall [0] 1 (fun _ => .replied errOk) (fun _ => .replied errOk) registeredTwice
      (fun k node hnode _ => enabled_addTwice hnode) (fun _ => rfl) (fun _ => rfl) 0
  have hsecond := (List.forall₂_cons.mp (List.forall₂_cons.mp hrestored).2).1
  exact Bool.false_ne_true (hsecond.enabled rfl)

end CallbacksManager

end DataShare
