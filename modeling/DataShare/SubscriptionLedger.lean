import DataShare.CallbacksManagerKeys

/-!
# Calls, requests and the service

The log of the requests gives what the service holds for a key (`serviceAt`) : a request
takes effect when it is accepted, or when it is applied and only the reply is lost.

A `Call` with the answers to its requests is a step of the callbacks manager. `KeyStep` is
all that a call can do to one key, and `keyStep_step` that every call does one of these
things to every key.
-/

set_option linter.unusedSectionVars false

namespace DataShare

/-! ## The service -/

/-- What the service holds for a key. -/
structure Subscription where
  subscribed : Bool
  enabled : Bool
  deriving DecidableEq, Repr

def RequestKind.effect : RequestKind → Subscription → Subscription
  | .subscribe, _ => ⟨true, true⟩
  | .unsubscribe, _ => ⟨false, false⟩
  | .enable, sub => { sub with enabled := true }
  | .disable, sub => { sub with enabled := false }

def Answer.takesEffect : Answer → Bool
  | .replied errCode => errCode = errOk
  | .lost applied => applied

section Service

variable {κ : Type} {sub : Subscription} {sent : List (Request κ)}

def Subscription.apply (sub : Subscription) (r : Request κ) : Subscription :=
  if r.answer.takesEffect then r.kind.effect sub else sub

/-- The requests that concern `k`. -/
def requestsAt [Ord κ] (k : κ) (sent : List (Request κ)) : List (Request κ) :=
  sent.filter fun r => compare k r.key = .eq

def serviceAt [Ord κ] (k : κ) (sent : List (Request κ)) : Subscription :=
  (requestsAt k sent).foldl Subscription.apply ⟨false, false⟩

theorem requestsAt_append [Ord κ] (k : κ) (sent sent' : List (Request κ)) :
    requestsAt k (sent ++ sent') = requestsAt k sent ++ requestsAt k sent' :=
  List.filter_append _ _

theorem serviceAt_append [Ord κ] (k : κ) (sent sent' : List (Request κ)) :
    serviceAt k (sent ++ sent') =
      (requestsAt k sent').foldl Subscription.apply (serviceAt k sent) := by
  unfold serviceAt
  rw [requestsAt_append, List.foldl_append]

/-- Every request got a reply. -/
def Answered (sent : List (Request κ)) : Prop :=
  ∀ r ∈ sent, r.answer.isLost = false

/-- Every request was accepted. -/
def Accepted (sent : List (Request κ)) : Prop :=
  ∀ r ∈ sent, r.answer.accepted = true

/-- The service refused one of the requests. -/
def Refused (sent : List (Request κ)) : Prop :=
  ∃ r ∈ sent, r.answer.refused = true

/-- The requests are of one kind, and there is one. -/
def AllOf (kind : RequestKind) (sent : List (Request κ)) : Prop :=
  sent ≠ [] ∧ ∀ r ∈ sent, r.kind = kind

theorem Answer.takesEffect_of_accepted {a : Answer} (h : a.accepted = true) :
    a.takesEffect = true := by
  cases a with
  | replied errCode => simpa [accepted, takesEffect] using h
  | lost applied => simp [accepted] at h

theorem Answer.takesEffect_of_refused {a : Answer} (h : a.refused = true) :
    a.takesEffect = false := by
  cases a with
  | replied errCode => simpa [refused, takesEffect] using h
  | lost applied => simp [refused] at h

theorem accepted_of_not_refused (h : ¬ Refused sent) (ha : Answered sent) : Accepted sent := by
  intro r hr
  have hrefused : ¬ r.answer.refused = true := fun hx => h ⟨r, hr, hx⟩
  have hlost := ha r hr
  cases hans : r.answer with
  | replied errCode => simpa [hans, Answer.refused, Answer.accepted] using hrefused
  | lost applied => simp [hans, Answer.isLost] at hlost

theorem not_refused_of_accepted (h : Accepted sent) : ¬ Refused sent := by
  rintro ⟨r, hr, hrefused⟩
  have hacc := h r hr
  cases hans : r.answer with
  | replied errCode => simp_all [Answer.accepted, Answer.refused]
  | lost applied => simp [hans, Answer.accepted] at hacc

/-- A service that accepts everything accepts all requests. -/
theorem accepted_sendRequests (kind : RequestKind) (keys : List κ) :
    Accepted (sendRequests kind keys fun _ => .replied errOk) := by
  intro r hr
  obtain ⟨i, hi, rfl⟩ := List.mem_mapIdx.mp hr
  rfl

/-- What the service holds after requests of one kind that took effect is the effect of one. -/
theorem foldl_apply_of_takesEffect {kind : RequestKind} : ∀ {sent : List (Request κ)}
    (_ : AllOf kind sent) (_ : ∀ r ∈ sent, r.answer.takesEffect = true) (sub : Subscription),
    sent.foldl Subscription.apply sub = kind.effect sub
  | [], h, _, _ => absurd rfl h.1
  | [r], h, heff, sub => by
    have hkind : r.kind = kind := h.2 r List.mem_cons_self
    rw [List.foldl_cons, List.foldl_nil, Subscription.apply, if_pos (heff r List.mem_cons_self),
      hkind]
  | r :: r' :: sent, h, heff, sub => by
    have htail : AllOf kind (r' :: sent) :=
      ⟨List.cons_ne_nil _ _, fun x hx => h.2 x (List.mem_cons_of_mem _ hx)⟩
    have hkind : r.kind = kind := h.2 r List.mem_cons_self
    have htwice : kind.effect (kind.effect sub) = kind.effect sub := by cases kind <;> rfl
    rw [List.foldl_cons, Subscription.apply, if_pos (heff r List.mem_cons_self), hkind,
      foldl_apply_of_takesEffect htail (fun x hx => heff x (List.mem_cons_of_mem _ hx)), htwice]

theorem foldl_apply_of_accepted {kind : RequestKind} (h : AllOf kind sent) (hacc : Accepted sent)
    (sub : Subscription) : sent.foldl Subscription.apply sub = kind.effect sub :=
  foldl_apply_of_takesEffect h (fun r hr => Answer.takesEffect_of_accepted (hacc r hr)) sub

/-- Requests that keep a fact about the subscription keep it together, whatever the answers. -/
theorem foldl_apply_induction {P : Subscription → Prop}
    (hP : ∀ r ∈ sent, ∀ sub, P sub → P (r.kind.effect sub)) (h : P sub) :
    P (sent.foldl Subscription.apply sub) := by
  refine List.foldlRecOn sent _ h fun sub hsub r hr => ?_
  unfold Subscription.apply
  split
  · exact hP r hr sub hsub
  · exact hsub

theorem foldl_apply_of_kept {kind : RequestKind} {P : Subscription → Prop}
    (hkind : ∀ r ∈ sent, r.kind = kind) (hP : ∀ sub, P sub → P (kind.effect sub)) (h : P sub) :
    P (sent.foldl Subscription.apply sub) := by
  refine foldl_apply_induction (fun r hr sub hsub => ?_) h
  rw [hkind r hr]
  exact hP sub hsub

end Service

namespace CallbacksManager

/-! ## Calls -/

inductive Call (κ σ ω : Type) where
  | addObservers (keys : List κ) (subscriber : σ) (observer : Option ω)
  | addProxyDataObservers (keys : List κ) (subscriber : σ) (observer : Option ω)
  | delObservers (keys : List κ) (subscriber : σ)
  | delProxyDataObservers (keys : List κ) (subscriber : σ)
  | delAllObservers (subscriber : σ)
  | delAllProxyDataObservers (subscriber : σ)
  | enableObservers (keys : List κ) (subscriber : σ)
  | disableObservers (keys : List κ) (subscriber : σ)

/-- A call, with the answer to its `i`-th request. -/
structure Exchange (κ σ ω : Type) where
  call : Call κ σ ω
  answer : ℕ → Answer

section Calls

variable {κ σ ω : Type}

def Call.Adds : Call κ σ ω → Prop
  | .addObservers .. | .addProxyDataObservers .. => True
  | _ => False

/-- The overload of `AddObservers` that subscribes only keys without an enabled observer. -/
def Call.AddsLocally : Call κ σ ω → Prop
  | .addObservers .. => True
  | _ => False

def Call.Deletes : Call κ σ ω → Prop
  | .delObservers .. | .delProxyDataObservers .. | .delAllObservers _
  | .delAllProxyDataObservers _ => True
  | _ => False

def Call.Enables : Call κ σ ω → Prop
  | .enableObservers .. => True
  | _ => False

def Call.Disables : Call κ σ ω → Prop
  | .disableObservers .. => True
  | _ => False

/-- The observer a call registers is not null. -/
def Call.NonNull : Call κ σ ω → Prop
  | .addObservers _ _ observer | .addProxyDataObservers _ _ observer => observer.isSome = true
  | _ => True

variable [Ord κ] [Std.TransOrd κ] [DecidableEq σ]

def Exchange.outcome (callbacks : Callbacks κ σ ω) : Exchange κ σ ω → Outcome κ σ ω
  | ⟨.addObservers keys subscriber observer, answer⟩ =>
    addObservers keys subscriber observer answer callbacks
  | ⟨.addProxyDataObservers keys subscriber observer, answer⟩ =>
    addProxyDataObservers keys subscriber observer answer callbacks
  | ⟨.delObservers keys subscriber, answer⟩ => delObservers keys subscriber answer callbacks
  | ⟨.delProxyDataObservers keys subscriber, answer⟩ =>
    delProxyDataObservers keys subscriber answer callbacks
  | ⟨.delAllObservers subscriber, answer⟩ => delAllObservers subscriber answer callbacks
  | ⟨.delAllProxyDataObservers subscriber, answer⟩ =>
    delAllProxyDataObservers subscriber answer callbacks
  | ⟨.enableObservers keys subscriber, answer⟩ => enableObservers keys subscriber answer callbacks
  | ⟨.disableObservers keys subscriber, answer⟩ =>
    disableObservers keys subscriber answer callbacks

/-- One call of a run : the callbacks after it, and the requests it sent. -/
def step (callbacks : Callbacks κ σ ω) (x : Exchange κ σ ω) :
    Callbacks κ σ ω × List (Request κ) :=
  ((x.outcome callbacks).callbacks, (x.outcome callbacks).requests)

end Calls

/-! ## What a call does to one key -/

/-- All that call `c` can do to a key : its nodes before, the requests sent for it, and its
nodes after. -/
inductive KeyStep {κ σ ω : Type} [DecidableEq σ] (c : Call κ σ ω) :
    List (ObserverNode σ ω) → List (Request κ) → List (ObserverNode σ ω) → Prop
  | unchanged {nodes} : KeyStep c nodes [] nodes
  | added {nodes fresh} (adds : c.Adds) (enabled : HasEnabled nodes)
      (observers : c.NonNull → ∀ node ∈ fresh, node.observer.isSome = true) :
      KeyStep c nodes [] (nodes ++ fresh)
  | subscribed {nodes sent} (fresh) (adds : c.Adds) (kinds : AllOf .subscribe sent)
      (answers : ¬ Refused sent) (first : c.AddsLocally → ¬ HasEnabled nodes)
      (nonempty : fresh ≠ []) (enabled : ∀ node ∈ fresh, node.enabled = true)
      (observers : c.NonNull → ∀ node ∈ fresh, node.observer.isSome = true) :
      KeyStep c nodes sent (nodes ++ fresh)
  | subscribeRefused {nodes sent} (adds : c.Adds) (kinds : AllOf .subscribe sent)
      (answers : Refused sent) (first : c.AddsLocally → ¬ HasEnabled nodes) (subscriber : σ) :
      KeyStep c nodes sent (eraseSubscriber subscriber nodes)
  | removed {nodes} (deletes : c.Deletes) (subscriber : σ)
      (left : eraseSubscriber subscriber nodes ≠ []) :
      KeyStep c nodes [] (eraseSubscriber subscriber nodes)
  | unsubscribed {nodes sent} (deletes : c.Deletes) (kinds : AllOf .unsubscribe sent) :
      KeyStep c nodes sent []
  | enabledLocally {nodes} (enables : c.Enables) (subscriber : σ) (enabled : HasEnabled nodes) :
      KeyStep c nodes [] (enableFirst subscriber nodes)
  | enabledRemotely {nodes sent} (enables : c.Enables) (subscriber : σ)
      (first : FirstDisabled subscriber nodes) (kinds : AllOf .enable sent)
      (answers : ¬ Refused sent) : KeyStep c nodes sent (enableFirst subscriber nodes)
  | enableRefused {nodes sent} (enables : c.Enables) (subscriber : σ)
      (none : ¬ HasEnabled nodes) (kinds : AllOf .enable sent)
      (answers : Refused sent) :
      KeyStep c nodes sent (disableEnabled subscriber (enableFirst subscriber nodes))
  | disabledLocally {nodes} (disables : c.Disables) (subscriber : σ)
      (enabled : HasEnabled nodes → HasEnabled (disableEnabled subscriber nodes)) :
      KeyStep c nodes [] (disableEnabled subscriber nodes)
  | disabledRemotely {nodes sent} (disables : c.Disables) (subscriber : σ)
      (last : LastEnabled subscriber nodes) (kinds : AllOf .disable sent)
      (answers : ¬ Refused sent) : KeyStep c nodes sent (disableEnabled subscriber nodes)
  | disableRefused {nodes} (r) (disables : c.Disables) (subscriber : σ)
      (last : LastEnabled subscriber nodes) (kind : r.kind = .disable)
      (answer : r.answer.refused = true) :
      KeyStep c nodes [r] (enableFirst subscriber (disableEnabled subscriber nodes))

section KeyStep

variable {κ σ ω : Type} [Ord κ] [Std.TransOrd κ] [DecidableEq σ] {k : κ} {keys : List κ}
  {subscriber : σ} {observer : Option ω} {answer : ℕ → Answer} {callbacks : Callbacks κ σ ω}

theorem kind_of_mem_sendRequests {kind : RequestKind} {r : Request κ}
    (h : r ∈ sendRequests kind keys answer) : r.kind = kind := by
  obtain ⟨i, hi, rfl⟩ := List.mem_mapIdx.mp h
  rfl

theorem map_key_sendRequests (kind : RequestKind) (keys : List κ) (answer : ℕ → Answer) :
    (sendRequests kind keys answer).map Request.key = keys := by
  refine List.ext_getElem (by simp [sendRequests]) fun i hi hi' => ?_
  simp [sendRequests]

theorem length_requestsAt_sendRequests {kind : RequestKind} :
    (requestsAt k (sendRequests kind keys answer)).length = mentionCount k keys := by
  conv_rhs => rw [← map_key_sendRequests kind keys answer]
  rw [requestsAt, mentionCount, List.countP_map, List.countP_eq_length_filter]
  rfl

theorem allOf_requestsAt_sendRequests {kind : RequestKind} (h : Mentions k keys) :
    AllOf kind (requestsAt k (sendRequests kind keys answer)) := by
  refine ⟨?_, fun r hr => kind_of_mem_sendRequests (List.mem_of_mem_filter hr)⟩
  rw [← List.length_pos_iff, length_requestsAt_sendRequests]
  exact mentionCount_pos.mpr h

theorem requestsAt_sendRequests_eq_nil {kind : RequestKind} (h : ¬ Mentions k keys) :
    requestsAt k (sendRequests kind keys answer) = [] := by
  rw [← List.length_eq_zero_iff, length_requestsAt_sendRequests]
  exact Nat.eq_zero_of_not_pos fun hpos => h (mentionCount_pos.mp hpos)

theorem mentions_failedKeys {sent : List (Request κ)} :
    Mentions k (failedKeys sent) ↔ Refused (requestsAt k sent) := by
  unfold Mentions failedKeys Refused requestsAt
  simp only [List.mem_map, List.mem_filter, decide_eq_true_eq]
  constructor
  · rintro ⟨_, ⟨r, ⟨hr, hrefused⟩, rfl⟩, hk⟩
    exact ⟨r, ⟨hr, hk⟩, hrefused⟩
  · rintro ⟨r, ⟨hr, hk⟩, hrefused⟩
    exact ⟨r.key, ⟨r, ⟨hr, hrefused⟩, rfl⟩, hk⟩

theorem not_refused_nil : ¬ Refused ([] : List (Request κ)) := by
  rintro ⟨r, hr, -⟩
  cases hr

/-- A registration loop with its service call and the removal of the refused keys, where
`registered` are the keys sent to the service. -/
theorem keyStep_of_registered {c : Call κ σ ω} {registered : List κ} {n : ℕ}
    (adds : c.Adds) (hnonNull : c.NonNull → observer.isSome = true)
    (hreg : Mentions k registered → 0 < n ∧ (c.AddsLocally → ¬ HasEnabled (nodesAt callbacks k)))
    (hlocal : ¬ Mentions k registered → 0 < n → HasEnabled (nodesAt callbacks k)) :
    KeyStep c (nodesAt callbacks k)
      (requestsAt k (sendRequests .subscribe registered answer))
      (if Mentions k (failedKeys (sendRequests .subscribe registered answer)) then
        eraseSubscriber subscriber
          (nodesAt callbacks k ++ List.replicate n (ObserverNode.new observer subscriber))
      else nodesAt callbacks k ++ List.replicate n (ObserverNode.new observer subscriber)) := by
  have hobs (h : c.NonNull) : ∀ node ∈ List.replicate n (ObserverNode.new observer subscriber),
      node.observer.isSome = true := fun node hn => by
    rw [List.eq_of_mem_replicate hn]
    exact hnonNull h
  by_cases hr : Mentions k registered
  · obtain ⟨hn, hfirst⟩ := hreg hr
    have hkinds : AllOf .subscribe (requestsAt k (sendRequests .subscribe registered answer)) :=
      allOf_requestsAt_sendRequests hr
    by_cases hfail : Mentions k (failedKeys (sendRequests .subscribe registered answer))
    · rw [if_pos hfail, eraseSubscriber_append_replicate]
      exact .subscribeRefused adds hkinds (mentions_failedKeys.mp hfail) hfirst subscriber
    · rw [if_neg hfail]
      refine .subscribed _ adds hkinds (fun h => hfail (mentions_failedKeys.mpr h)) hfirst ?_ ?_ hobs
      · rw [ne_eq, List.replicate_eq_nil_iff]
        omega
      · intro node hnode
        rw [List.eq_of_mem_replicate hnode]
        rfl
  · have hnil : requestsAt k (sendRequests .subscribe registered answer) = [] :=
      requestsAt_sendRequests_eq_nil hr
    have hfail : ¬ Mentions k (failedKeys (sendRequests .subscribe registered answer)) := by
      rw [mentions_failedKeys, hnil]
      exact not_refused_nil
    rw [hnil, if_neg hfail]
    by_cases hn : 0 < n
    · exact .added adds (hlocal hr hn) hobs
    · obtain rfl : n = 0 := by omega
      rw [List.replicate_zero, List.append_nil]
      exact .unchanged

theorem keyStep_delKeys {c : Call κ σ ω} (deletes : c.Deletes) (codes : DelCodes)
    (keys : List κ) : KeyStep c (nodesAt callbacks k)
      (requestsAt k (delKeys codes keys subscriber answer callbacks).requests)
      (nodesAt (delKeys codes keys subscriber answer callbacks).callbacks k) := by
  unfold delKeys
  dsimp only
  by_cases hlast : Mentions k (delLocal codes keys subscriber callbacks).lastDelKeys
  · obtain ⟨hkeys, nodes, hfind, hnil⟩ := mentions_lastDelKeys.mp hlast
    rw [nodesAt_delLocal, if_pos hkeys, nodesAt_of_find? hfind, hnil]
    exact .unsubscribed deletes (allOf_requestsAt_sendRequests hlast)
  · rw [requestsAt_sendRequests_eq_nil hlast, nodesAt_delLocal]
    by_cases hkeys : Mentions k keys
    · rw [if_pos hkeys]
      by_cases hempty : nodesAt callbacks k = []
      · rw [hempty]
        exact .unchanged
      · rw [mentions_lastDelKeys_of_ne_nil hempty] at hlast
        exact .removed deletes subscriber fun hnil => hlast ⟨hkeys, hnil⟩
    · rw [if_neg hkeys]
      exact .unchanged

theorem keyStep_enableObservers {c : Call κ σ ω} (enables : c.Enables) (keys : List κ) :
    KeyStep c (nodesAt callbacks k)
      (requestsAt k (enableObservers keys subscriber answer callbacks).requests)
      (nodesAt (enableObservers keys subscriber answer callbacks).callbacks k) := by
  unfold enableObservers
  dsimp only
  rw [nodesAt_disableLocal, nodesAt_enableLocal]
  by_cases hsend : Mentions k (enableLocal keys subscriber callbacks).sendServiceKeys
  · obtain ⟨hkeys, hfirst, hnone⟩ := mentions_sendServiceKeys.mp hsend
    have hkinds : AllOf .enable (requestsAt k
        (sendRequests .enable (enableLocal keys subscriber callbacks).sendServiceKeys answer)) :=
      allOf_requestsAt_sendRequests hsend
    rw [if_pos hkeys]
    split
    · next hfail => exact .enableRefused enables subscriber hnone hkinds (mentions_failedKeys.mp hfail)
    · next hfail =>
      exact .enabledRemotely enables subscriber hfirst hkinds fun h => hfail (mentions_failedKeys.mpr h)
  · have hnil : requestsAt k
        (sendRequests .enable (enableLocal keys subscriber callbacks).sendServiceKeys answer) = [] :=
      requestsAt_sendRequests_eq_nil hsend
    rw [hnil, if_neg (by rw [mentions_failedKeys, hnil]; exact not_refused_nil)]
    by_cases hkeys : Mentions k keys
    · rw [if_pos hkeys]
      by_cases hE : HasEnabled (nodesAt callbacks k)
      · exact .enabledLocally enables subscriber hE
      · rw [enableFirst_of_not_firstDisabled fun hfirst =>
          hsend (mentions_sendServiceKeys.mpr ⟨hkeys, hfirst, hE⟩)]
        exact .unchanged
    · rw [if_neg hkeys]
      exact .unchanged

theorem keyStep_disableObservers {c : Call κ σ ω} (disables : c.Disables) (keys : List κ) :
    KeyStep c (nodesAt callbacks k)
      (requestsAt k (disableObservers keys subscriber answer callbacks).requests)
      (nodesAt (disableObservers keys subscriber answer callbacks).callbacks k) := by
  unfold disableObservers
  dsimp only
  rw [nodesAt_enableLocal, nodesAt_disableLocal]
  by_cases hsend : Mentions k (disableLocal keys subscriber callbacks).lastDisabledKeys
  · obtain ⟨hkeys, hlast⟩ := mentions_lastDisabledKeys.mp hsend
    have hkinds : AllOf .disable (requestsAt k
        (sendRequests .disable (disableLocal keys subscriber callbacks).lastDisabledKeys answer)) :=
      allOf_requestsAt_sendRequests hsend
    rw [if_pos hkeys]
    split
    · next hfail =>
      -- a key is sent once, so its one request is the refused one
      have hlen : (requestsAt k (sendRequests .disable
          (disableLocal keys subscriber callbacks).lastDisabledKeys answer)).length ≤ 1 := by
        rw [length_requestsAt_sendRequests]
        exact mentionCount_lastDisabledKeys
      obtain ⟨r, hr, hrefused⟩ := mentions_failedKeys.mp hfail
      have hone := List.length_eq_one_iff.mp
        (Nat.le_antisymm hlen (List.length_pos_of_mem hr))
      obtain ⟨r', hr'⟩ := hone
      rw [hr'] at hr hkinds ⊢
      obtain rfl := List.mem_singleton.mp hr
      exact .disableRefused r disables subscriber hlast (hkinds.2 r List.mem_cons_self) hrefused
    · next hfail =>
      exact .disabledRemotely disables subscriber hlast hkinds fun h =>
        hfail (mentions_failedKeys.mpr h)
  · have hnil : requestsAt k
        (sendRequests .disable (disableLocal keys subscriber callbacks).lastDisabledKeys answer) = [] :=
      requestsAt_sendRequests_eq_nil hsend
    rw [hnil, if_neg (by rw [mentions_failedKeys, hnil]; exact not_refused_nil)]
    by_cases hkeys : Mentions k keys
    · rw [if_pos hkeys]
      refine .disabledLocally disables subscriber fun hE => ?_
      by_contra hnot
      rw [disableEnabled, if_pos hE] at hnot
      exact hsend (mentions_lastDisabledKeys.mpr ⟨hkeys, hE, hnot⟩)
    · rw [if_neg hkeys]
      exact .unchanged

/-- Every call does to a key one of the things of `KeyStep`. -/
theorem keyStep_step (k : κ) (callbacks : Callbacks κ σ ω) (x : Exchange κ σ ω) :
    KeyStep x.call (nodesAt callbacks k) (requestsAt k (step callbacks x).2)
      (nodesAt (step callbacks x).1 k) := by
  obtain ⟨c, answer⟩ := x
  unfold step Exchange.outcome
  cases c with
  | addObservers keys subscriber observer =>
    unfold addObservers
    dsimp only
    rw [nodesAt_delLocal, nodesAt_addLocal]
    refine keyStep_of_registered trivial id (fun h => ?_) fun h hpos => ?_
    · rw [mentions_firstRegisterKey] at h
      exact ⟨mentionCount_pos.mpr h.1, fun _ => h.2⟩
    · rw [mentions_firstRegisterKey, not_and, not_not] at h
      exact h (mentionCount_pos.mp hpos)
  | addProxyDataObservers keys subscriber observer =>
    unfold addProxyDataObservers
    dsimp only
    rw [nodesAt_delLocal, nodesAt_addLocalProxyData]
    exact keyStep_of_registered trivial id (fun h => ⟨mentionCount_pos.mpr h, False.elim⟩)
      fun h hpos => absurd (mentionCount_pos.mp hpos) h
  | delObservers keys subscriber =>
    exact keyStep_delKeys (c := .delObservers keys subscriber) trivial _ _
  | delProxyDataObservers keys subscriber =>
    exact keyStep_delKeys (c := .delProxyDataObservers keys subscriber) trivial _ _
  | delAllObservers subscriber =>
    exact keyStep_delKeys (c := .delAllObservers subscriber) trivial _ _
  | delAllProxyDataObservers subscriber =>
    exact keyStep_delKeys (c := .delAllProxyDataObservers subscriber) trivial _ _
  | enableObservers keys subscriber =>
    exact keyStep_enableObservers (c := .enableObservers keys subscriber) trivial keys
  | disableObservers keys subscriber =>
    exact keyStep_disableObservers (c := .disableObservers keys subscriber) trivial keys

end KeyStep

end CallbacksManager

end DataShare
