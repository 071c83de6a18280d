import DataShare.SubscriptionLedger
import DataShare.History

/-!
# Subscription bookkeeping

A run of the callbacks manager is a list of calls with the answers of the service. What
`KeyStep` lets a call do to a key gives, over a run :

* `bookkeeping` : what the manager promises about the service, whatever the calls and the
  answers.
* `service_differs` : the service may hold more than the keys with an enabled observer.
  Disabling leaves a key subscribed, removing the last enabled observer of a key that keeps
  disabled ones sends nothing, and a key whose observers are all disabled is subscribed
  again by the next `AddObservers`.
-/

set_option linter.unusedSectionVars false

namespace DataShare

namespace CallbacksManager

/-! ## What a call keeps -/

section Invariants

variable {κ σ ω : Type} [DecidableEq σ] {c : Call κ σ ω} {nodes nodes' : List (ObserverNode σ ω)}
  {sent : List (Request κ)} {sub : Subscription}

/-- The service holds at least what the local observers of the key need. -/
structure Covers (sub : Subscription) (nodes : List (ObserverNode σ ω)) : Prop where
  subscribed : nodes ≠ [] → sub.subscribed = true
  enabled : HasEnabled nodes → sub.enabled = true

theorem KeyStep.covers (h : KeyStep c nodes sent nodes') (ha : Answered sent)
    (hsub : Covers sub nodes) : Covers (sent.foldl Subscription.apply sub) nodes' := by
  obtain ⟨hs, he⟩ := hsub
  cases h with
  | unchanged => exact ⟨hs, he⟩
  | added adds enabled observers => exact ⟨fun _ => hs enabled.ne_nil, fun _ => he enabled⟩
  | subscribed fresh adds kinds answers first nonempty enabled observers =>
    rw [foldl_apply_of_accepted kinds (accepted_of_not_refused answers ha)]
    exact ⟨fun _ => rfl, fun _ => rfl⟩
  | subscribeRefused adds kinds answers first subscriber =>
    refine ⟨fun h => ?_, fun h => ?_⟩
    · refine foldl_apply_of_kept (P := fun sub => sub.subscribed = true) kinds.2
        (fun _ _ => rfl) (hs ?_)
      rintro rfl
      exact h rfl
    · exact foldl_apply_of_kept (P := fun sub => sub.enabled = true) kinds.2 (fun _ _ => rfl)
        (he (h.mono eraseSubscriber_subset))
  | removed deletes subscriber left =>
    refine ⟨fun _ => hs ?_, fun h => he (h.mono eraseSubscriber_subset)⟩
    rintro rfl
    exact left rfl
  | unsubscribed deletes kinds => exact ⟨fun h => absurd rfl h, fun h => absurd rfl h⟩
  | enabledLocally enables subscriber enabled => exact ⟨fun _ => hs enabled.ne_nil, fun _ => he enabled⟩
  | enabledRemotely enables subscriber first kinds answers =>
    rw [foldl_apply_of_accepted kinds (accepted_of_not_refused answers ha)]
    exact ⟨fun h => hs (mt enableFirst_eq_nil.mpr h), fun _ => rfl⟩
  | enableRefused enables subscriber none kinds answers =>
    refine ⟨fun h => ?_, fun h => absurd h (not_hasEnabled_disableEnabled none)⟩
    refine foldl_apply_of_kept (P := fun sub => sub.subscribed = true) kinds.2 (fun _ h => h)
      (hs (mt ?_ h))
    rw [disableEnabled_eq_nil, enableFirst_eq_nil]
    exact id
  | disabledLocally disables subscriber enabled =>
    refine ⟨fun h => hs (mt disableEnabled_eq_nil.mpr h), fun h => he ?_⟩
    by_contra hn
    rw [disableEnabled, if_neg hn] at h
    exact hn h
  | disabledRemotely disables subscriber last kinds answers =>
    refine ⟨fun h => ?_, fun h => ?_⟩
    · exact foldl_apply_of_kept (P := fun sub => sub.subscribed = true) kinds.2 (fun _ h => h)
        (hs last.1.ne_nil)
    · rw [disableEnabled, if_pos last.1] at h
      exact absurd h last.2
  | disableRefused r disables subscriber last kind answer =>
    rw [List.foldl_cons, List.foldl_nil, Subscription.apply, Answer.takesEffect_of_refused answer]
    exact ⟨fun _ => hs last.1.ne_nil, fun _ => he last.1⟩

/-- The service holds the keys with a local observer, and as enabled those with an enabled
one and the `stale` ones. -/
structure Matches (sub : Subscription) (nodes : List (ObserverNode σ ω)) (stale : Prop) : Prop where
  subscribed : sub.subscribed = true ↔ nodes ≠ []
  enabled : sub.enabled = true ↔ HasEnabled nodes ∨ stale

/-- The key has observers, none of them enabled. -/
def AllDisabled (nodes : List (ObserverNode σ ω)) : Prop :=
  nodes ≠ [] ∧ ¬ HasEnabled nodes

/-- The observers registered for the key are not null. -/
def ObserversPresent (nodes : List (ObserverNode σ ω)) : Prop :=
  ∀ node ∈ nodes, node.observer.isSome = true

theorem observersPresent_iff :
    ObserversPresent nodes ↔ ∀ o ∈ nodes.map ObserverNode.observer, o.isSome = true := by
  simp [ObserversPresent]

theorem ObserversPresent.enableFirst {subscriber : σ} (h : ObserversPresent nodes) :
    ObserversPresent (enableFirst subscriber nodes) := by
  rwa [observersPresent_iff, map_observer_enableFirst, ← observersPresent_iff]

theorem ObserversPresent.disableEnabled {subscriber : σ} (h : ObserversPresent nodes) :
    ObserversPresent (disableEnabled subscriber nodes) := by
  unfold DataShare.disableEnabled
  split
  · rwa [observersPresent_iff, map_observer_disableSubscriber, ← observersPresent_iff]
  · exact h

theorem ObserversPresent.append {fresh : List (ObserverNode σ ω)} (h : ObserversPresent nodes)
    (h' : ObserversPresent fresh) : ObserversPresent (nodes ++ fresh) := by
  intro node hn
  rcases List.mem_append.mp hn with hn | hn
  · exact h node hn
  · exact h' node hn

theorem KeyStep.observersPresent (h : KeyStep c nodes sent nodes') (hc : c.NonNull)
    (hn : ObserversPresent nodes) : ObserversPresent nodes' := by
  cases h with
  | unchanged => exact hn
  | added adds enabled observers => exact hn.append (observers hc)
  | subscribed fresh adds kinds answers first nonempty enabled observers => exact hn.append (observers hc)
  | subscribeRefused adds kinds answers first subscriber =>
    exact fun node h => hn node (eraseSubscriber_subset h)
  | removed deletes subscriber left => exact fun node h => hn node (eraseSubscriber_subset h)
  | unsubscribed deletes kinds => exact fun node h => absurd h List.not_mem_nil
  | enabledLocally enables subscriber enabled => exact hn.enableFirst
  | enabledRemotely enables subscriber first kinds answers => exact hn.enableFirst
  | enableRefused enables subscriber none kinds answers => exact hn.enableFirst.disableEnabled
  | disabledLocally disables subscriber enabled => exact hn.disableEnabled
  | disabledRemotely disables subscriber last kinds answers => exact hn.disableEnabled
  | disableRefused r disables subscriber last kind answer => exact hn.disableEnabled.enableFirst

/-- With every request accepted, a call keeps the match, and makes a key stale when it
deletes the last enabled observer of a key that keeps disabled ones. -/
theorem KeyStep.mirrors (h : KeyStep c nodes sent nodes') {stale : Prop} (hacc : Accepted sent)
    (hc : c.NonNull) (hobs : ObserversPresent nodes) (hstale : stale → AllDisabled nodes)
    (hsub : Matches sub nodes stale) :
    Matches (sent.foldl Subscription.apply sub) nodes'
      (AllDisabled nodes' ∧ (c.Deletes ∧ HasEnabled nodes ∨ stale)) := by
  obtain ⟨hs, he⟩ := hsub
  have hnotRefused := not_refused_of_accepted hacc
  -- a key that is enabled before and after is enabled at the service, and not stale
  have hkept {nodes' : List (ObserverNode σ ω)} {P : Prop} (h : HasEnabled nodes)
      (h' : HasEnabled nodes') : Matches sub nodes' (AllDisabled nodes' ∧ P) :=
    ⟨iff_of_true (hs.mpr h.ne_nil) h'.ne_nil, iff_of_true (he.mpr (.inl h)) (.inl h')⟩
  cases h with
  | unchanged =>
    refine ⟨hs, he.trans ?_⟩
    constructor
    · rintro (h | h)
      · exact .inl h
      · exact .inr ⟨hstale h, .inr h⟩
    · rintro (h | ⟨hdis, ⟨-, h⟩ | h⟩)
      · exact .inl h
      · exact absurd h hdis.2
      · exact .inr h
  | added adds enabled observers =>
    exact hkept enabled (enabled.mono (List.subset_append_left _ _))
  | subscribed fresh adds kinds answers first nonempty enabled observers =>
    rw [foldl_apply_of_accepted kinds hacc]
    obtain ⟨node, hnode⟩ := List.exists_mem_of_ne_nil fresh nonempty
    have hE : HasEnabled (nodes ++ fresh) := hasEnabled_iff.mpr
      ⟨node, List.mem_append_right _ hnode, enabled node hnode, observers hc node hnode⟩
    exact ⟨iff_of_true rfl hE.ne_nil, iff_of_true rfl (.inl hE)⟩
  | subscribeRefused adds kinds answers first subscriber => exact absurd answers hnotRefused
  | removed deletes subscriber left =>
    have hne : nodes ≠ [] := by
      rintro rfl
      exact left rfl
    refine ⟨iff_of_true (hs.mpr hne) left, he.trans ?_⟩
    by_cases hE : HasEnabled (eraseSubscriber subscriber nodes)
    · exact iff_of_true (.inl (hE.mono eraseSubscriber_subset)) (.inl hE)
    · constructor
      · exact fun h => .inr ⟨⟨left, hE⟩, h.imp (fun h => ⟨deletes, h⟩) id⟩
      · rintro (h | ⟨-, h⟩)
        · exact absurd h hE
        · exact h.imp And.right id
  | unsubscribed deletes kinds =>
    rw [foldl_apply_of_accepted kinds hacc]
    refine ⟨iff_of_false Bool.false_ne_true fun h => h rfl, iff_of_false Bool.false_ne_true ?_⟩
    rintro (h | ⟨hdis, -⟩)
    · exact h rfl
    · exact hdis.1 rfl
  | enabledLocally enables subscriber enabled => exact hkept enabled enabled.enableFirst
  | enabledRemotely enables subscriber first kinds answers =>
    rw [foldl_apply_of_accepted kinds hacc]
    have hE := hasEnabled_enableFirst hobs first
    refine ⟨iff_of_true (hs.mpr ?_) hE.ne_nil, iff_of_true rfl (.inl hE)⟩
    exact mt enableFirst_eq_nil.mpr hE.ne_nil
  | enableRefused enables subscriber none kinds answers => exact absurd answers hnotRefused
  | disabledLocally disables subscriber enabled =>
    by_cases hE : HasEnabled nodes
    · exact hkept hE (enabled hE)
    · have hdel : ¬ c.Deletes := by
        cases c <;> simp_all [Call.Disables, Call.Deletes]
      rw [disableEnabled, if_neg hE]
      refine ⟨hs, he.trans (or_congr_right ?_)⟩
      exact ⟨fun h => ⟨hstale h, .inr h⟩, fun h => h.2.resolve_left fun h => hdel h.1⟩
  | disabledRemotely disables subscriber last kinds answers =>
    have hdel : ¬ c.Deletes := by
      cases c <;> simp_all [Call.Disables, Call.Deletes]
    rw [foldl_apply_of_accepted kinds hacc, disableEnabled, if_pos last.1]
    refine ⟨iff_of_true (hs.mpr last.1.ne_nil) (mt disableSubscriber_eq_nil.mp last.1.ne_nil),
      iff_of_false Bool.false_ne_true ?_⟩
    rintro (h | ⟨-, h | h⟩)
    · exact last.2 h
    · exact hdel h.1
    · exact (hstale h).2 last.1
  | disableRefused r disables subscriber last kind answer =>
    exact absurd ⟨r, List.mem_cons_self, answer⟩ hnotRefused

/-- Only a deletion, a disabling or a refused `AddObservers` of proxy data takes the last
enabled observer of a key. -/
theorem KeyStep.disabled_by (h : KeyStep c nodes sent nodes') (hE : HasEnabled nodes)
    (hE' : ¬ HasEnabled nodes') :
    c.Deletes ∨ c.Disables ∨ (c.Adds ∧ ¬ c.AddsLocally ∧ Refused sent) := by
  cases h with
  | unchanged => exact absurd hE hE'
  | added adds enabled observers => exact absurd (hE.mono (List.subset_append_left _ _)) hE'
  | subscribed fresh adds kinds answers first nonempty enabled observers =>
    exact absurd (hE.mono (List.subset_append_left _ _)) hE'
  | subscribeRefused adds kinds answers first subscriber =>
    exact .inr (.inr ⟨adds, fun h => first h hE, answers⟩)
  | removed deletes subscriber left => exact .inl deletes
  | unsubscribed deletes kinds => exact .inl deletes
  | enabledLocally enables subscriber enabled => exact absurd hE.enableFirst hE'
  | enabledRemotely enables subscriber first kinds answers => exact absurd hE.enableFirst hE'
  | enableRefused enables subscriber none kinds answers => exact absurd hE none
  | disabledLocally disables subscriber enabled => exact .inr (.inl disables)
  | disabledRemotely disables subscriber last kinds answers => exact .inr (.inl disables)
  | disableRefused r disables subscriber last kind answer => exact .inr (.inl disables)

/-- A deletion sends an unsubscription exactly when it leaves no observer, enabled or not. -/
theorem KeyStep.deletes (h : KeyStep c nodes sent nodes') (hc : c.Deletes) (hne : nodes ≠ []) :
    (sent = [] ↔ nodes' ≠ []) ∧ ∀ r ∈ sent, r.kind = .unsubscribe := by
  have hadds : ¬ c.Adds := by
    cases c <;> simp_all [Call.Adds, Call.Deletes]
  have henables : ¬ c.Enables := by
    cases c <;> simp_all [Call.Enables, Call.Deletes]
  have hdisables : ¬ c.Disables := by
    cases c <;> simp_all [Call.Disables, Call.Deletes]
  cases h with
  | unchanged => exact ⟨iff_of_true rfl hne, by simp⟩
  | removed deletes subscriber left => exact ⟨iff_of_true rfl left, by simp⟩
  | unsubscribed deletes kinds => exact ⟨iff_of_false kinds.1 fun h => h rfl, kinds.2⟩
  | added adds | subscribed _ adds | subscribeRefused adds => exact absurd adds hadds
  | enabledLocally enables | enabledRemotely enables | enableRefused enables =>
    exact absurd enables henables
  | disabledLocally disables | disabledRemotely disables | disableRefused _ disables =>
    exact absurd disables hdisables

/-- Accepted subscriptions leave the key with an enabled observer. -/
theorem KeyStep.hasEnabled_of_subscribed (h : KeyStep c nodes sent nodes') (hc : c.Adds)
    (hnonNull : c.NonNull) (hne : sent ≠ []) (hacc : Accepted sent) : HasEnabled nodes' := by
  have hdeletes : ¬ c.Deletes := by
    cases c <;> simp_all [Call.Adds, Call.Deletes]
  have henables : ¬ c.Enables := by
    cases c <;> simp_all [Call.Enables, Call.Adds]
  have hdisables : ¬ c.Disables := by
    cases c <;> simp_all [Call.Disables, Call.Adds]
  cases h with
  | unchanged | added => exact absurd rfl hne
  | subscribed fresh adds kinds answers first nonempty enabled observers =>
    obtain ⟨node, hnode⟩ := List.exists_mem_of_ne_nil fresh nonempty
    exact hasEnabled_iff.mpr ⟨node, List.mem_append_right _ hnode, enabled node hnode,
      observers hnonNull node hnode⟩
  | subscribeRefused adds kinds answers => exact absurd answers (not_refused_of_accepted hacc)
  | removed deletes | unsubscribed deletes => exact absurd deletes hdeletes
  | enabledLocally enables | enabledRemotely enables | enableRefused enables =>
    exact absurd enables henables
  | disabledLocally disables | disabledRemotely disables | disableRefused _ disables =>
    exact absurd disables hdisables

/-- The overload with local registration subscribes only keys without an enabled observer. -/
theorem KeyStep.not_hasEnabled_of_sent (h : KeyStep c nodes sent nodes') (hc : c.AddsLocally)
    (hne : sent ≠ []) : ¬ HasEnabled nodes := by
  have hdeletes : ¬ c.Deletes := by
    cases c <;> simp_all [Call.AddsLocally, Call.Deletes]
  have henables : ¬ c.Enables := by
    cases c <;> simp_all [Call.Enables, Call.AddsLocally]
  have hdisables : ¬ c.Disables := by
    cases c <;> simp_all [Call.Disables, Call.AddsLocally]
  cases h with
  | unchanged | added => exact absurd rfl hne
  | subscribed fresh adds kinds answers first => exact first hc
  | subscribeRefused adds kinds answers first => exact first hc
  | removed deletes | unsubscribed deletes => exact absurd deletes hdeletes
  | enabledLocally enables | enabledRemotely enables | enableRefused enables =>
    exact absurd enables henables
  | disabledLocally disables | disabledRemotely disables | disableRefused _ disables =>
    exact absurd disables hdisables

end Invariants

/-! ## Runs -/

section Runs

variable {κ σ ω : Type} [Ord κ] [Std.TransOrd κ] [DecidableEq σ]

/-- The callbacks and the log after `calls`, from an empty manager. -/
def after (calls : List (Exchange κ σ ω)) : Callbacks κ σ ω × List (Request κ) :=
  runCalls step .empty calls

/-- The nodes of `k` after `calls`. -/
def nodesAfter (k : κ) (calls : List (Exchange κ σ ω)) : List (ObserverNode σ ω) :=
  nodesAt (after calls).1 k

/-- The requests for `k` that `x` sends after `calls`. -/
def sentBy (k : κ) (calls : List (Exchange κ σ ω)) (x : Exchange κ σ ω) : List (Request κ) :=
  requestsAt k (step (after calls).1 x).2

/-- All requests for `k`. -/
def sentIn (k : κ) (calls : List (Exchange κ σ ω)) : List (Request κ) :=
  requestsAt k (after calls).2

/-- What the service holds for `k`. -/
def heldAfter (k : κ) (calls : List (Exchange κ σ ω)) : Subscription :=
  serviceAt k (after calls).2

/-- A deletion took the last enabled observer of the key, and all it has had since are
disabled ones. -/
def LeftDisabled (k : κ) : List (Exchange κ σ ω) → Prop :=
  Since (fun before x => x.call.Deletes ∧ HasEnabled (nodesAfter k before))
    fun history => AllDisabled (nodesAfter k history)

variable {k : κ} {calls : List (Exchange κ σ ω)} {x : Exchange κ σ ω}

theorem leftDisabled_concat : LeftDisabled k (calls ++ [x]) ↔
    AllDisabled (nodesAfter k (calls ++ [x])) ∧
      (x.call.Deletes ∧ HasEnabled (nodesAfter k calls) ∨ LeftDisabled k calls) := by
  unfold LeftDisabled
  exact since_concat

theorem keyStep_concat (k : κ) (calls : List (Exchange κ σ ω)) (x : Exchange κ σ ω) :
    KeyStep x.call (nodesAfter k calls) (sentBy k calls x) (nodesAfter k (calls ++ [x])) := by
  have hstep := keyStep_step k (after calls).1 x
  unfold nodesAfter sentBy after at *
  rwa [runCalls_concat]

theorem sentIn_concat : sentIn k (calls ++ [x]) = sentIn k calls ++ sentBy k calls x := by
  unfold sentIn sentBy after
  rw [runCalls_concat, advance, requestsAt_append]

theorem heldAfter_concat : heldAfter k (calls ++ [x]) =
    (sentBy k calls x).foldl Subscription.apply (heldAfter k calls) := by
  unfold heldAfter sentBy after
  rw [runCalls_concat, advance, serviceAt_append]

theorem covers_heldAfter (h : Answered (sentIn k calls)) :
    Covers (heldAfter k calls) (nodesAfter k calls) := by
  induction calls using List.reverseRecOn with
  | nil => exact ⟨fun h => absurd rfl h, fun h => absurd rfl h⟩
  | append_singleton calls x ih =>
    rw [sentIn_concat] at h
    rw [heldAfter_concat]
    exact (keyStep_concat k calls x).covers (fun r hr => h r (List.mem_append_right _ hr))
      (ih fun r hr => h r (List.mem_append_left _ hr))

theorem observersPresent_nodesAfter (h : ∀ x ∈ calls, x.call.NonNull) :
    ObserversPresent (nodesAfter k calls) := by
  induction calls using List.reverseRecOn with
  | nil => exact fun node h => absurd h List.not_mem_nil
  | append_singleton calls x ih =>
    exact (keyStep_concat k calls x).observersPresent (h x (by simp))
      (ih fun y hy => h y (List.mem_append_left _ hy))

theorem matches_heldAfter (h : Accepted (sentIn k calls)) (hnonNull : ∀ x ∈ calls, x.call.NonNull) :
    Matches (heldAfter k calls) (nodesAfter k calls) (LeftDisabled k calls) := by
  induction calls using List.reverseRecOn with
  | nil =>
    refine ⟨iff_of_false Bool.false_ne_true fun h => h rfl, iff_of_false Bool.false_ne_true ?_⟩
    exact fun h => h.elim (fun h => h rfl) not_since_nil
  | append_singleton calls x ih =>
    rw [sentIn_concat] at h
    rw [heldAfter_concat]
    have hcalls : ∀ y ∈ calls, y.call.NonNull := fun y hy =>
      hnonNull y (List.mem_append_left _ hy)
    have hbefore := ih (fun r hr => h r (List.mem_append_left _ hr)) hcalls
    have hstale : LeftDisabled k calls → AllDisabled (nodesAfter k calls) := Since.now
    have hstep := (keyStep_concat k calls x).mirrors (fun r hr => h r (List.mem_append_right _ hr))
      (hnonNull x (by simp)) (observersPresent_nodesAfter hcalls) hstale hbefore
    exact ⟨hstep.subscribed, hstep.enabled.trans (or_congr_right leftDisabled_concat.symm)⟩

/-- What the manager promises about a key over a run. -/
structure Bookkeeping (k : κ) (calls : List (Exchange κ σ ω)) : Prop where
  /-- No reply lost : a key with a local observer is subscribed, one with an enabled observer
  is enabled. -/
  covers : Answered (sentIn k calls) → Covers (heldAfter k calls) (nodesAfter k calls)
  /-- Every request accepted : a key is subscribed exactly while it has a local observer, and
  enabled exactly while one of them is or a deletion left it with disabled ones. -/
  mirrors : Accepted (sentIn k calls) → (∀ x ∈ calls, x.call.NonNull) →
    Matches (heldAfter k calls) (nodesAfter k calls) (LeftDisabled k calls)
  /-- A deletion unsubscribes a key exactly when it leaves no observer, enabled or not. -/
  deletes : ∀ before x rest, calls = before ++ x :: rest → x.call.Deletes →
    nodesAfter k before ≠ [] →
      (sentBy k before x = [] ↔ nodesAfter k (before ++ [x]) ≠ []) ∧
        ∀ r ∈ sentBy k before x, r.kind = .unsubscribe
  /-- Between two subscriptions of a key its last enabled observer was deleted, disabled or
  taken back. -/
  resubscribes : ∀ before first mid last rest, calls = before ++ first :: (mid ++ last :: rest) →
    first.call.Adds → first.call.NonNull → sentBy k before first ≠ [] →
    Accepted (sentBy k before first) → last.call.AddsLocally →
    sentBy k (before ++ first :: mid) last ≠ [] →
      ∃ mid₁ x mid₂, mid = mid₁ ++ x :: mid₂ ∧
        HasEnabled (nodesAfter k (before ++ first :: mid₁)) ∧
        ¬ HasEnabled (nodesAfter k (before ++ first :: (mid₁ ++ [x]))) ∧
        (x.call.Deletes ∨ x.call.Disables ∨
          x.call.Adds ∧ ¬ x.call.AddsLocally ∧ Refused (sentBy k (before ++ first :: mid₁) x))

theorem bookkeeping (k : κ) (calls : List (Exchange κ σ ω)) : Bookkeeping k calls where
  covers := covers_heldAfter
  mirrors := matches_heldAfter
  deletes := fun before x rest _ hx hne => (keyStep_concat k before x).deletes hx hne
  resubscribes := by
    intro before first mid last rest _ hadds hnonNull hsent hacc hlast hsent'
    have hfirst : HasEnabled (nodesAfter k (before ++ [first])) :=
      (keyStep_concat k before first).hasEnabled_of_subscribed hadds hnonNull hsent hacc
    have hnone : ¬ HasEnabled (nodesAfter k (before ++ [first] ++ mid)) := by
      rw [List.append_assoc]
      exact (keyStep_concat k _ last).not_hasEnabled_of_sent hlast hsent'
    obtain ⟨mid₁, x, mid₂, rfl, hbefore, hafter⟩ := exists_change
      (Q := fun history => ¬ HasEnabled (nodesAfter k history)) (not_not.mpr hfirst) hnone
    rw [not_not] at hbefore
    have hby := (keyStep_concat k _ x).disabled_by hbefore hafter
    rw [List.append_assoc] at hbefore hby
    rw [List.append_assoc, List.append_assoc] at hafter
    exact ⟨mid₁, x, mid₂, rfl, hbefore, hafter, hby⟩

end Runs

/-! ## Where the service holds more -/

/-- A call whose requests are all accepted. -/
def accepting (call : Call ℕ ℕ ℕ) : Exchange ℕ ℕ ℕ :=
  ⟨call, fun _ => .replied errOk⟩

/-- Two subscribers register, the second disables its observer and the first deletes its
own. -/
def disableThenDelete : List (Exchange ℕ ℕ ℕ) :=
  [accepting (.addObservers [0] 1 (some 10)), accepting (.addObservers [0] 2 (some 20)),
    accepting (.disableObservers [0] 2), accepting (.delObservers [0] 1)]

theorem bookkeeping_disableThenDelete :
    (heldAfter 0 disableThenDelete).enabled = true ↔
      HasEnabled (nodesAfter 0 disableThenDelete) ∨ LeftDisabled 0 disableThenDelete := by
  have hacc : Accepted (sentIn 0 disableThenDelete) := by
    unfold Accepted
    decide
  have hnonNull : ∀ x ∈ disableThenDelete, x.call.NonNull := by
    simp [disableThenDelete, accepting, Call.NonNull]
  exact ((bookkeeping 0 disableThenDelete).mirrors hacc hnonNull).enabled

/-- A subscriber disables its observer and registers again. -/
def disableThenAdd : List (Exchange ℕ ℕ ℕ) :=
  [accepting (.addObservers [0] 1 (some 10)), accepting (.disableObservers [0] 1),
    accepting (.addObservers [0] 1 (some 20))]

/-- The key stays subscribed and enabled with no enabled observer, its last enabled observer
is deleted without a request, and a key is subscribed twice with no unsubscription. -/
theorem service_differs :
    (heldAfter 0 disableThenDelete = ⟨true, true⟩ ∧
        ¬ HasEnabled (nodesAfter 0 disableThenDelete)) ∧
      (sentIn 0 disableThenDelete).map Request.kind = [.subscribe] ∧
      (sentIn 0 disableThenAdd).map Request.kind = [.subscribe, .disable, .subscribe] := by
  decide

end CallbacksManager

end DataShare
