import DataShare.SubscriptionLedger
import DataShare.History

/-!
# Rollback of refused subscriptions

A key the service refuses is rolled back through the opposite loop : a registration by the
deletion of the subscriber, an enable by its disable, a disable by its enable. That is
the inverse of what the call did for some nodes only. `Undoable` says for which, and
`rollsBack` that the nodes of a refused key come out as they went in exactly then ; the nodes
of a key the service accepts are those the loop made.
-/

namespace DataShare

namespace CallbacksManager

/-! ## What the opposite loop undoes -/

section Undo

variable {σ ω : Type} [DecidableEq σ] {subscriber : σ} {nodes : List (ObserverNode σ ω)}

/-- The first node of the subscriber can be called and is not flagged, and none of its nodes is
enabled. -/
def EnableUndone (subscriber : σ) (nodes : List (ObserverNode σ ω)) : Prop :=
  ∃ node, nodes.find? (fun node => node.subscriber = subscriber) = some node ∧
    node.observer.isSome = true ∧ node.isNotifyOnEnabled = false ∧
    ∀ other ∈ nodes, other.subscriber = subscriber → other.enabled = false

/-- The first node of the subscriber is enabled and not flagged, and the only enabled one of its
nodes. -/
def DisableUndone (subscriber : σ) (nodes : List (ObserverNode σ ω)) : Prop :=
  ∃ node, nodes.find? (fun node => node.subscriber = subscriber) = some node ∧
    node.enabled = true ∧ node.isNotifyOnEnabled = false ∧
    (nodes.filter fun other => other.subscriber = subscriber ∧ other.enabled).length = 1

theorem eraseSubscriber_eq_self : eraseSubscriber subscriber nodes = nodes ↔
    ∀ node ∈ nodes, node.subscriber ≠ subscriber := by
  unfold eraseSubscriber
  rw [List.filter_eq_self]
  simp

theorem enableFirst_append {before after : List (ObserverNode σ ω)} {node : ObserverNode σ ω}
    (hbefore : ∀ other ∈ before, other.subscriber ≠ subscriber)
    (hnode : node.subscriber = subscriber) :
    enableFirst subscriber (before ++ node :: after) =
      before ++ { node with enabled := true } :: after := by
  induction before with
  | nil => rw [List.nil_append, enableFirst, if_pos hnode, List.nil_append]
  | cons first before ih =>
    rw [List.cons_append, enableFirst, if_neg (hbefore first List.mem_cons_self),
      ih fun other h => hbefore other (List.mem_cons_of_mem _ h), List.cons_append]

theorem disableSubscriber_cons (node : ObserverNode σ ω) :
    disableSubscriber subscriber (node :: nodes) =
      (if node.subscriber = subscriber ∧ node.enabled then
        { node with enabled := false, isNotifyOnEnabled := false } else node) ::
          disableSubscriber subscriber nodes :=
  rfl

theorem disableSubscriber_append (before after : List (ObserverNode σ ω)) :
    disableSubscriber subscriber (before ++ after) =
      disableSubscriber subscriber before ++ disableSubscriber subscriber after :=
  List.map_append

theorem disableSubscriber_eq_self : disableSubscriber subscriber nodes = nodes ↔
    ∀ node ∈ nodes, node.subscriber = subscriber → node.enabled = false := by
  have hmap : disableSubscriber subscriber nodes = nodes ↔ ∀ node ∈ nodes,
      (if node.subscriber = subscriber ∧ node.enabled then
        { node with enabled := false, isNotifyOnEnabled := false } else node) = node := by
    conv_lhs => rhs; rw [← List.map_id nodes]
    exact List.map_inj_left
  rw [hmap]
  refine forall₂_congr fun node _ => ?_
  by_cases h : node.subscriber = subscriber ∧ node.enabled = true
  · rw [if_pos h]
    refine ⟨fun heq => ?_, fun hdisabled => ?_⟩
    · rw [← heq] at h
      exact absurd h.2 Bool.false_ne_true
    · rw [hdisabled h.1] at h
      exact absurd h.2 Bool.false_ne_true
  · rw [if_neg h]
    refine ⟨fun _ hsub => ?_, fun _ => rfl⟩
    simpa [hsub] using h

/-- The nodes around the first one of the subscriber. -/
theorem split_at_first {node : ObserverNode σ ω}
    (h : nodes.find? (fun node => node.subscriber = subscriber) = some node) :
    ∃ before after, nodes = before ++ node :: after ∧ node.subscriber = subscriber ∧
      ∀ other ∈ before, other.subscriber ≠ subscriber := by
  obtain ⟨hnode, before, after, rfl, hbefore⟩ := List.find?_eq_some_iff_append.mp h
  exact ⟨before, after, rfl, by simpa using hnode, by simpa using hbefore⟩

/-- Of a key without an enabled observer, disabling gives back what enabling was given, on
these conditions only. -/
theorem disableEnabled_enableFirst_eq_self (hfirst : FirstDisabled subscriber nodes)
    (hnone : ¬ HasEnabled nodes) :
    disableEnabled subscriber (enableFirst subscriber nodes) = nodes ↔
      EnableUndone subscriber nodes := by
  obtain ⟨⟨observer, enabled, owner, flag⟩, hfind, hdisabled⟩ := hfirst
  obtain ⟨before, after, rfl, howner, hbefore⟩ := split_at_first hfind
  obtain rfl : enabled = false := hdisabled
  obtain rfl : owner = subscriber := howner
  have hundone : EnableUndone owner (before ++ ⟨observer, false, owner, flag⟩ :: after) ↔
      observer.isSome = true ∧ flag = false ∧
        ∀ other ∈ after, other.subscriber = owner → other.enabled = false := by
    unfold EnableUndone
    rw [hfind]
    simp only [Option.some.injEq, exists_eq_left', List.forall_mem_append, List.forall_mem_cons]
    refine and_congr_right fun _ => and_congr_right fun _ => ⟨fun h => h.2.2, fun h => ?_⟩
    exact ⟨fun other hother hsub => absurd hsub (hbefore other hother), by simp, h⟩
  rw [enableFirst_append hbefore rfl, hundone]
  dsimp only
  cases observer with
  | none =>
    -- A node without an observer does not count as enabled, so nothing is disabled again.
    have hsame : enabledObservers (before ++ ⟨none, true, owner, flag⟩ :: after) =
        enabledObservers (before ++ ⟨none, false, owner, flag⟩ :: after) := by
      simp [enabledObservers]
    have hstill : ¬ HasEnabled (before ++ ⟨none, true, owner, flag⟩ :: after) := by
      unfold HasEnabled
      rw [hsame]
      exact hnone
    rw [disableEnabled, if_neg hstill]
    simp
  | some observer =>
    have hcalled : HasEnabled (before ++ ⟨some observer, true, owner, flag⟩ :: after) :=
      hasEnabled_iff.mpr ⟨_, List.mem_append_right _ List.mem_cons_self, rfl, rfl⟩
    have hdisable : disableSubscriber owner (before ++ ⟨some observer, true, owner, flag⟩ :: after) =
        before ++ ⟨some observer, false, owner, false⟩ :: disableSubscriber owner after := by
      rw [disableSubscriber_append, disableSubscriber_of_forall_ne hbefore, disableSubscriber_cons,
        if_pos ⟨rfl, rfl⟩]
    rw [disableEnabled, if_pos hcalled, hdisable, List.append_cancel_left_eq, List.cons.injEq,
      disableSubscriber_eq_self, ObserverNode.mk.injEq]
    constructor
    · rintro ⟨⟨-, -, -, rfl⟩, hafter⟩
      exact ⟨rfl, rfl, hafter⟩
    · rintro ⟨-, rfl, hafter⟩
      exact ⟨⟨rfl, rfl, rfl, rfl⟩, hafter⟩

/-- Enabling gives back what disabling was given, on these conditions only. -/
theorem enableFirst_disableSubscriber_eq_self (hlast : LastEnabled subscriber nodes) :
    enableFirst subscriber (disableSubscriber subscriber nodes) = nodes ↔
      DisableUndone subscriber nodes := by
  obtain ⟨enabledNode, hmem, hsub⟩ : ∃ node ∈ nodes, node.subscriber = subscriber := by
    by_contra hnot
    push Not at hnot
    refine hlast.2 ?_
    rw [disableSubscriber_of_forall_ne hnot]
    exact hlast.1
  obtain ⟨⟨observer, enabled, owner, flag⟩, hfind⟩ : ∃ node,
      nodes.find? (fun node => node.subscriber = subscriber) = some node := by
    rw [← Option.isSome_iff_exists, List.find?_isSome]
    exact ⟨enabledNode, hmem, by simpa using hsub⟩
  obtain ⟨before, after, rfl, howner, hbefore⟩ := split_at_first hfind
  obtain rfl : owner = subscriber := howner
  have hnone (others : List (ObserverNode σ ω)) :
      (others.filter fun other => other.subscriber = owner ∧ other.enabled) = [] ↔
        disableSubscriber owner others = others := by
    rw [disableSubscriber_eq_self, List.filter_eq_nil_iff]
    simp
  have hdisable : disableSubscriber owner (before ++ ⟨observer, enabled, owner, flag⟩ :: after) =
      before ++ ⟨observer, false, owner, !enabled && flag⟩ :: disableSubscriber owner after := by
    rw [disableSubscriber_append, disableSubscriber_of_forall_ne hbefore, disableSubscriber_cons]
    cases enabled <;> simp
  have hundone : DisableUndone owner (before ++ ⟨observer, enabled, owner, flag⟩ :: after) ↔
      enabled = true ∧ flag = false ∧ disableSubscriber owner after = after := by
    unfold DisableUndone
    rw [hfind, List.filter_append, (hnone before).mpr (disableSubscriber_of_forall_ne hbefore)]
    simp only [Option.some.injEq, exists_eq_left', List.nil_append]
    refine and_congr_right fun henabled => and_congr_right fun _ => ?_
    rw [List.filter_cons_of_pos (by simpa using henabled), List.length_cons, ← hnone after,
      ← List.length_eq_zero_iff]
    omega
  rw [hdisable, enableFirst_append hbefore rfl, hundone, List.append_cancel_left_eq, List.cons.injEq,
    ObserverNode.mk.injEq]
  constructor
  · rintro ⟨⟨-, rfl, -, hflag⟩, hafter⟩
    exact ⟨rfl, by simpa using hflag.symm, hafter⟩
  · rintro ⟨rfl, rfl, hafter⟩
    exact ⟨⟨rfl, rfl, rfl, rfl⟩, hafter⟩

end Undo

/-! ## Refused and accepted keys -/

section Calls

variable {κ σ ω : Type} [DecidableEq σ]

/-- The opposite loop takes back what the call does to these nodes. -/
def Undoable (nodes : List (ObserverNode σ ω)) : Call κ σ ω → Prop
  | .addObservers _ subscriber _ | .addProxyDataObservers _ subscriber _ =>
    ∀ node ∈ nodes, node.subscriber ≠ subscriber
  | .enableObservers _ subscriber => EnableUndone subscriber nodes
  | .disableObservers _ subscriber => DisableUndone subscriber nodes
  | _ => True

variable [Ord κ]

/-- What the loop of the call makes of the nodes of `k`. -/
def updatedNodes (k : κ) (nodes : List (ObserverNode σ ω)) : Call κ σ ω → List (ObserverNode σ ω)
  | .addObservers keys subscriber observer | .addProxyDataObservers keys subscriber observer =>
    nodes ++ List.replicate (mentionCount k keys) (ObserverNode.new observer subscriber)
  | .enableObservers _ subscriber => enableFirst subscriber nodes
  | .disableObservers _ subscriber => disableSubscriber subscriber nodes
  | _ => nodes

variable [Std.TransOrd κ] {k : κ} {keys : List κ} {subscriber : σ} {observer : Option ω}
  {answer : ℕ → Answer} {callbacks : Callbacks κ σ ω}

/-- What a call does to a key it sends to the service : nothing is left of a refused one exactly if
the rollback undoes the loop. -/
structure RollsBack (c : Call κ σ ω) (k : κ) (before : List (ObserverNode σ ω))
    (sent : List (Request κ)) (after : List (ObserverNode σ ω)) : Prop where
  refused : Refused sent → (after = before ↔ Undoable before c)
  updated : sent ≠ [] → ¬ Refused sent → after = updatedNodes k before c

theorem mentions_of_requestsAt_ne_nil {kind : RequestKind}
    (h : requestsAt k (sendRequests kind keys answer) ≠ []) : Mentions k keys := by
  by_contra hnot
  exact h (requestsAt_sendRequests_eq_nil hnot)

omit [Ord κ] [Std.TransOrd κ] in
theorem ne_nil_of_refused {sent : List (Request κ)} (h : Refused sent) : sent ≠ [] := by
  obtain ⟨r, hr, -⟩ := h
  exact List.ne_nil_of_mem hr

/-- Every call that subscribes, enables or disables. -/
theorem rollsBack (k : κ) (callbacks : Callbacks κ σ ω) (x : Exchange κ σ ω)
    (hcall : ¬ x.call.Deletes) :
    RollsBack x.call k (nodesAt callbacks k) (requestsAt k (step callbacks x).2)
      (nodesAt (step callbacks x).1 k) := by
  obtain ⟨c, answer⟩ := x
  unfold step Exchange.outcome
  cases c with
  | addObservers keys subscriber observer =>
    unfold addObservers
    dsimp only
    rw [nodesAt_delLocal, nodesAt_addLocal, eraseSubscriber_append_replicate]
    refine ⟨fun h => ?_, fun _ h => if_neg fun hfail => h (mentions_failedKeys.mp hfail)⟩
    rw [if_pos (mentions_failedKeys.mpr h)]
    exact eraseSubscriber_eq_self
  | addProxyDataObservers keys subscriber observer =>
    unfold addProxyDataObservers
    dsimp only
    rw [nodesAt_delLocal, nodesAt_addLocalProxyData, eraseSubscriber_append_replicate]
    refine ⟨fun h => ?_, fun _ h => if_neg fun hfail => h (mentions_failedKeys.mp hfail)⟩
    rw [if_pos (mentions_failedKeys.mpr h)]
    exact eraseSubscriber_eq_self
  | enableObservers keys subscriber =>
    unfold enableObservers
    dsimp only
    rw [nodesAt_disableLocal, nodesAt_enableLocal]
    have hsent (h : requestsAt k (sendRequests .enable
        (enableLocal keys subscriber callbacks).sendServiceKeys answer) ≠ []) :=
      mentions_sendServiceKeys.mp (mentions_of_requestsAt_ne_nil h)
    refine ⟨fun h => ?_, fun hne h => ?_⟩
    · obtain ⟨hkeys, hfirst, hnone⟩ := hsent (ne_nil_of_refused h)
      rw [if_pos (mentions_failedKeys.mpr h), if_pos hkeys]
      exact disableEnabled_enableFirst_eq_self hfirst hnone
    · rw [if_neg fun hfail => h (mentions_failedKeys.mp hfail), if_pos (hsent hne).1]
      rfl
  | disableObservers keys subscriber =>
    unfold disableObservers
    dsimp only
    rw [nodesAt_enableLocal, nodesAt_disableLocal]
    have hsent (h : requestsAt k (sendRequests .disable
        (disableLocal keys subscriber callbacks).lastDisabledKeys answer) ≠ []) :=
      mentions_lastDisabledKeys.mp (mentions_of_requestsAt_ne_nil h)
    refine ⟨fun h => ?_, fun hne h => ?_⟩
    · obtain ⟨hkeys, hlast⟩ := hsent (ne_nil_of_refused h)
      rw [if_pos (mentions_failedKeys.mpr h), if_pos hkeys, disableEnabled, if_pos hlast.1]
      exact enableFirst_disableSubscriber_eq_self hlast
    · obtain ⟨hkeys, hlast⟩ := hsent hne
      rw [if_neg fun hfail => h (mentions_failedKeys.mp hfail), if_pos hkeys, disableEnabled,
        if_pos hlast.1]
      rfl
  | delObservers => exact absurd trivial hcall
  | delProxyDataObservers => exact absurd trivial hcall
  | delAllObservers => exact absurd trivial hcall
  | delAllProxyDataObservers => exact absurd trivial hcall

end Calls

/-! ## A refused registration -/

/-- Subscriber 1 has a disabled node for key 5. -/
def oneDisabled : Callbacks ℕ ℕ ℕ :=
  (runCalls step .empty [⟨.addObservers [5] 1 (some 10), fun _ => .replied errOk⟩,
    ⟨.disableObservers [5] 1, fun _ => .replied errOk⟩]).1

/-- It registers another observer, and the service refuses. -/
def refusedAdd : Exchange ℕ ℕ ℕ :=
  ⟨.addObservers [5] 1 (some 11), fun _ => .replied 1⟩

theorem rollsBack_refusedAdd : RollsBack refusedAdd.call 5 (nodesAt oneDisabled 5)
    (requestsAt 5 (step oneDisabled refusedAdd).2) (nodesAt (step oneDisabled refusedAdd).1 5) :=
  rollsBack 5 oneDisabled refusedAdd id

/-- The rollback takes the older node as well. -/
theorem refusedAdd_loses_node : Refused (requestsAt 5 (step oneDisabled refusedAdd).2) ∧
    nodesAt (step oneDisabled refusedAdd).1 5 ≠ nodesAt oneDisabled 5 := by
  have hbefore : (nodesAt oneDisabled 5).length = 1 := by decide
  have hafter : (nodesAt (step oneDisabled refusedAdd).1 5).length = 0 := by decide
  refine ⟨⟨⟨.subscribe, 5, .replied 1⟩, List.mem_cons_self, rfl⟩, fun h => ?_⟩
  rw [h, hbefore] at hafter
  exact absurd hafter Nat.one_ne_zero

end CallbacksManager

end DataShare
