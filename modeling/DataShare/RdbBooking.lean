import DataShare.CppRdbSubscriberManager
import DataShare.SubscriptionBookkeeping
import DataShare.DeferredMessages

/-!
# Interleaved subscriptions

The calls of `RdbSubscriberManager` that register, delete, enable and disable observers change the
table of `CallbacksManager` under its lock, and then call the service without it (`lockedUpdate`). The
calls for two observers of a key can so reach the service in another order than they changed the table.

A key is booked as it should be when all calls have returned, in all runs in which no request overtakes
one it undoes, or is undone by (`booked_of_inOrder`). `not_booked_overtaken` is the run in which the
unsubscription by the last observer comes after the subscription for the next one.
-/

namespace DataShare

/-! ## The service as a receiver -/

/-- A greater subscription is for the same keys, and enabled where the other is. -/
instance : Preorder Subscription where
  le sub sub' := sub'.subscribed = sub.subscribed ∧
    (sub.subscribed = true → sub.enabled = true → sub'.enabled = true)
  le_refl _ := ⟨rfl, fun _ => id⟩
  le_trans _ _ _ h h' :=
    ⟨h'.1.trans h.1, fun hs he => h'.2 (h.1.trans hs) (h.2 hs he)⟩

/-- The first of these requests, when it comes before the second, takes from the service what the
observers need or leaves what they do not. -/
def RequestKind.overtakes : RequestKind → RequestKind → Bool
  | .subscribe, .unsubscribe => true
  | .subscribe, .disable => true
  | .enable, .disable => true
  | .unsubscribe, .subscribe => true
  | _, _ => false

theorem RequestKind.effect_mono (kind : RequestKind) : Monotone kind.effect := by
  rintro sub sub' ⟨hs, he⟩
  cases kind with
  | subscribe => exact le_refl _
  | unsubscribe => exact le_refl _
  | enable => exact ⟨hs, fun _ _ => rfl⟩
  | disable => exact ⟨hs, fun _ h => h⟩

theorem RequestKind.effect_swap {kind earlier : RequestKind} (h : kind.overtakes earlier = false)
    (sub : Subscription) : kind.effect (earlier.effect sub) ≤ earlier.effect (kind.effect sub) := by
  constructor
  · cases kind <;> cases earlier <;> first | rfl | exact absurd h (by decide)
  · cases kind <;> cases earlier <;> simp_all [RequestKind.effect, RequestKind.overtakes]

section Receiver

variable {κ : Type}

theorem apply_mono (r : Request κ) : Monotone fun sub : Subscription => sub.apply r := by
  intro sub sub' h
  dsimp only [Subscription.apply]
  split
  · exact r.kind.effect_mono h
  · exact h

theorem apply_swap {r earlier : Request κ} (h : r.kind.overtakes earlier.kind = false)
    (sub : Subscription) : (sub.apply earlier).apply r ≤ (sub.apply r).apply earlier := by
  unfold Subscription.apply
  split
  · split
    · exact RequestKind.effect_swap h sub
    · exact le_refl _
  · exact le_refl _

variable [Ord κ]

/-- What the service holds for a key, as it receives requests. -/
def serviceOf (k : κ) : Receiver Subscription (Request κ) where
  receive sub r := if compare k r.key = .eq then sub.apply r else sub
  monotone r sub sub' h := by
    dsimp only
    split
    · exact apply_mono r h
    · exact h
  overtakes r earlier := compare k r.key = .eq ∧ compare k earlier.key = .eq ∧
    r.kind.overtakes earlier.kind = true
  swap sub r earlier h := by
    split
    · next hr =>
      split
      · next hearlier =>
        exact apply_swap (Bool.eq_false_iff.mpr fun hkind => h ⟨hr, hearlier, hkind⟩) sub
      · exact le_refl _
    · exact le_refl _

instance (k : κ) (r earlier : Request κ) : Decidable ((serviceOf k).overtakes r earlier) :=
  inferInstanceAs (Decidable (_ ∧ _ ∧ _))

theorem received_serviceOf (k : κ) (sent : List (Request κ)) :
    Deferred.received (serviceOf k) ⟨false, false⟩ sent = serviceAt k sent := by
  unfold Deferred.received serviceAt requestsAt serviceOf
  rw [List.foldl_filter]
  simp only [decide_eq_true_eq]

end Receiver

namespace Cpp

namespace RdbSubscriberManager

open CallbacksManager (Call Exchange addLocal delLocal delCodes enableLocal disableLocal)

/-! ## Steps -/

abbrev RdbCallbacks := CallbacksManager.Callbacks RdbObserverMapKey ℕ ℕ

/-- The calls that subscribe, with the observer they register. Without uris, `DelObservers` is about
every key. -/
inductive BookingCall where
  | addObservers (subscriber : ℕ) (uris : List StdString) (templateId : TemplateId) (observer : ℕ)
  | delObservers (subscriber : ℕ) (uris : List StdString) (templateId : TemplateId)
  | enableObservers (subscriber : ℕ) (uris : List StdString) (templateId : TemplateId)
  | disableObservers (subscriber : ℕ) (uris : List StdString) (templateId : TemplateId)
  deriving DecidableEq

def keysOf (uris : List StdString) (templateId : TemplateId) : List RdbObserverMapKey :=
  uris.map fun uri => .new uri templateId

def acceptedRequest (kind : RequestKind) (key : RdbObserverMapKey) : Request RdbObserverMapKey :=
  ⟨kind, key, .replied errOk⟩

/-- One call of the service for all keys, if there are any. -/
def serviceCall (kind : RequestKind) (keys : List RdbObserverMapKey) :
    List (List (Request RdbObserverMapKey)) :=
  if keys.isEmpty then [] else [keys.map (acceptedRequest kind)]

/-- What a call does to the table under the lock, and the calls of the service it makes then. -/
def lockedUpdate (callbacks : RdbCallbacks) : BookingCall →
    RdbCallbacks × List (List (Request RdbObserverMapKey))
  | .addObservers subscriber uris templateId observer =>
    let added := addLocal (keysOf uris templateId) subscriber (some observer) callbacks
    (added.callbacks, serviceCall .subscribe added.firstRegisterKey)
  | .delObservers subscriber uris templateId =>
    if uris.isEmpty then
      let deleted := delLocal delCodes callbacks.keys subscriber callbacks
      (deleted.callbacks, deleted.lastDelKeys.map fun key => [acceptedRequest .unsubscribe key])
    else
      let deleted := delLocal delCodes (keysOf uris templateId) subscriber callbacks
      (deleted.callbacks, serviceCall .unsubscribe deleted.lastDelKeys)
  | .enableObservers subscriber uris templateId =>
    let enabled := enableLocal (keysOf uris templateId) subscriber callbacks
    (enabled.callbacks, serviceCall .enable enabled.sendServiceKeys)
  | .disableObservers subscriber uris templateId =>
    let disabled := disableLocal (keysOf uris templateId) subscriber callbacks
    (disabled.callbacks, serviceCall .disable disabled.lastDisabledKeys)

/-- The calls of the manager, interleaved step by step. -/
abbrev bookingProtocol : Protocol RdbCallbacks (List (List (Request RdbObserverMapKey))) BookingCall
    (Request RdbObserverMapKey) :=
  deferring lockedUpdate

/-- The calls under way, from an empty table. -/
def bookingAfter (events : List (ThreadEvent BookingCall)) :
    Pool RdbCallbacks (List (List (Request RdbObserverMapKey))) :=
  (bookingProtocol.run ⟨.empty, []⟩ events).1

/-- The requests in the order the service gets them. -/
def requestsOf (events : List (ThreadEvent BookingCall)) : List (Request RdbObserverMapKey) :=
  (bookingProtocol.run ⟨.empty, []⟩ events).2

/-! ## One call alone -/

/-- The call, with a service that accepts. -/
def BookingCall.exchange (call : BookingCall) : Exchange RdbObserverMapKey ℕ ℕ where
  call := match call with
    | .addObservers subscriber uris templateId observer =>
      .addObservers (keysOf uris templateId) subscriber (some observer)
    | .delObservers subscriber uris templateId =>
      if uris.isEmpty then .delAllObservers subscriber
      else .delObservers (keysOf uris templateId) subscriber
    | .enableObservers subscriber uris templateId =>
      .enableObservers (keysOf uris templateId) subscriber
    | .disableObservers subscriber uris templateId =>
      .disableObservers (keysOf uris templateId) subscriber
  answer := fun _ => .replied errOk

theorem sendRequests_accepted (kind : RequestKind) (keys : List RdbObserverMapKey) :
    sendRequests kind keys (fun _ => .replied errOk) = keys.map (acceptedRequest kind) := by
  refine List.ext_getElem (by simp [sendRequests]) fun i hi hi' => ?_
  simp [sendRequests, acceptedRequest]

theorem failedKeys_accepted (kind : RequestKind) (keys : List RdbObserverMapKey) :
    failedKeys (keys.map (acceptedRequest kind)) = [] := by
  unfold failedKeys
  rw [List.map_eq_nil_iff, List.filter_eq_nil_iff]
  intro r hr
  obtain ⟨key, -, rfl⟩ := List.mem_map.mp hr
  exact Bool.false_ne_true

theorem flatten_serviceCall (kind : RequestKind) (keys : List RdbObserverMapKey) :
    (serviceCall kind keys).flatten = keys.map (acceptedRequest kind) := by
  unfold serviceCall
  split
  · next hempty =>
    rw [List.isEmpty_iff.mp hempty]
    rfl
  · exact List.append_nil _

/-- A call made at once is the call of the callbacks manager. -/
theorem atOnce_eq_step (callbacks : RdbCallbacks) (call : BookingCall) :
    Deferred.atOnce lockedUpdate callbacks call = CallbacksManager.step callbacks call.exchange := by
  unfold Deferred.atOnce CallbacksManager.step
  cases call with
  | addObservers subscriber uris templateId observer =>
    simp only [lockedUpdate, BookingCall.exchange, Exchange.outcome, CallbacksManager.addObservers,
      sendRequests_accepted, failedKeys_accepted, flatten_serviceCall]
    rfl
  | delObservers subscriber uris templateId =>
    by_cases hempty : uris.isEmpty = true
    · simp only [lockedUpdate, BookingCall.exchange, if_pos hempty, Exchange.outcome,
        CallbacksManager.delAllObservers, CallbacksManager.delKeys, sendRequests_accepted]
      exact congrArg _ List.map_eq_flatMap.symm
    · simp only [lockedUpdate, BookingCall.exchange, if_neg hempty, Exchange.outcome,
        CallbacksManager.delObservers, CallbacksManager.delKeys, sendRequests_accepted,
        flatten_serviceCall]
  | enableObservers subscriber uris templateId =>
    simp only [lockedUpdate, BookingCall.exchange, Exchange.outcome,
      CallbacksManager.enableObservers, sendRequests_accepted, failedKeys_accepted,
      flatten_serviceCall]
    rfl
  | disableObservers subscriber uris templateId =>
    simp only [lockedUpdate, BookingCall.exchange, Exchange.outcome,
      CallbacksManager.disableObservers, sendRequests_accepted, failedKeys_accepted,
      flatten_serviceCall]
    rfl

/-- The booking a call of the manager makes. `made` is the number of the next observer. -/
def bookingOf {ε : Type} (made : ℕ) : SubscriberCall TemplateId ε → Option BookingCall
  | .addObservers subscriber uris templateId =>
    some (.addObservers subscriber uris templateId made)
  | .delObservers subscriber uris templateId => some (.delObservers subscriber uris templateId)
  | .delAllObservers subscriber => some (.delObservers subscriber [] someTemplate)
  | .enableObservers subscriber uris templateId =>
    some (.enableObservers subscriber uris templateId)
  | .disableObservers subscriber uris templateId =>
    some (.disableObservers subscriber uris templateId)
  | .emit _ => none

/-- A call of the manager books as the call alone does. -/
theorem outcome_of_booking {δ : Type} {manager : RdbSubscriberManager δ}
    {call : SubscriberCall TemplateId (RdbChangeNode δ)} {booking : BookingCall}
    (h : bookingOf manager.made call = some booking) :
    ∃ idle, bookingProtocol.run ⟨manager.callbacks, []⟩ (.start booking ::
        List.replicate (lockedUpdate manager.callbacks booking).2.length (.advance 0)) =
      (⟨(SubscriberExchange.outcome cls manager ⟨call, fun _ => .replied errOk⟩).manager.callbacks,
        [idle]⟩, (SubscriberExchange.outcome cls manager ⟨call, fun _ => .replied errOk⟩).requests) := by
  refine ⟨[], (Deferred.run_alone _ _).trans ?_⟩
  rw [atOnce_eq_step]
  cases call with
  | emit change => exact absurd h (by simp [bookingOf])
  | delObservers subscriber uris templateId =>
    obtain rfl := Option.some_inj.mp h
    by_cases hempty : uris.isEmpty = true
    · simp only [BookingCall.exchange, CallbacksManager.step, if_pos hempty,
        SubscriberExchange.outcome, SubscriberManager.delObservers]
      rfl
    · simp only [BookingCall.exchange, CallbacksManager.step, if_neg hempty,
        SubscriberExchange.outcome, SubscriberManager.delObservers]
      rfl
  | addObservers | delAllObservers | enableObservers | disableObservers =>
    obtain rfl := Option.some_inj.mp h
    rfl

/-! ## Runs -/

/-- What a run leaves of a key. -/
structure Booked (k : RdbObserverMapKey) (callbacks : RdbCallbacks)
    (requests : List (Request RdbObserverMapKey)) : Prop where
  /-- A key with an enabled observer is subscribed and enabled. -/
  enabled : HasEnabled (CallbacksManager.nodesAt callbacks k) → serviceAt k requests = ⟨true, true⟩
  /-- A key without observers is not subscribed. -/
  unsubscribed : CallbacksManager.nodesAt callbacks k = [] →
    (serviceAt k requests).subscribed = false

theorem accepted_exchange (callbacks : RdbCallbacks) (call : BookingCall) :
    Accepted (CallbacksManager.step callbacks call.exchange).2 := by
  cases call with
  | addObservers | enableObservers | disableObservers => exact accepted_sendRequests _ _
  | delObservers subscriber uris templateId =>
    unfold CallbacksManager.step BookingCall.exchange
    by_cases hempty : uris.isEmpty = true
    · simp only [if_pos hempty]
      exact accepted_sendRequests _ _
    · simp only [if_neg hempty]
      exact accepted_sendRequests _ _

/-- The sequential run of the calls that started. -/
theorem inOrderOf_eq_after (events : List (ThreadEvent BookingCall)) :
    Deferred.inOrderOf lockedUpdate .empty events =
      CallbacksManager.after ((Deferred.startedCalls events).map BookingCall.exchange) := by
  unfold Deferred.inOrderOf CallbacksManager.after runCalls
  rw [List.foldl_map]
  congr 1
  funext run call
  unfold advance
  rw [atOnce_eq_step]

section Sequential

variable (k : RdbObserverMapKey) (calls : List BookingCall)

theorem accepted_sentIn : Accepted (CallbacksManager.sentIn k (calls.map BookingCall.exchange)) := by
  induction calls using List.reverseRecOn with
  | nil => exact fun r hr => absurd hr List.not_mem_nil
  | append_singleton calls call ih =>
    rw [List.map_append, List.map_singleton, CallbacksManager.sentIn_concat]
    intro r hr
    rcases List.mem_append.mp hr with hr | hr
    · exact ih r hr
    · exact accepted_exchange _ _ r (List.mem_of_mem_filter hr)

/-- The manager registers observers it has made. -/
theorem nonNull_exchange (call : BookingCall) : call.exchange.call.NonNull := by
  cases call with
  | addObservers => rfl
  | delObservers subscriber uris templateId =>
    unfold BookingCall.exchange
    dsimp only
    split <;> trivial
  | enableObservers | disableObservers => trivial

/-- Made one after another, the calls book every key. -/
theorem matches_sequential : CallbacksManager.Matches
    (CallbacksManager.heldAfter k (calls.map BookingCall.exchange))
    (CallbacksManager.nodesAfter k (calls.map BookingCall.exchange))
    (CallbacksManager.LeftDisabled k (calls.map BookingCall.exchange)) := by
  refine CallbacksManager.matches_heldAfter (accepted_sentIn k calls) fun x hx => ?_
  obtain ⟨call, -, rfl⟩ := List.mem_map.mp hx
  exact nonNull_exchange call

end Sequential

/-- Whatever the threads, a key is booked when all calls have returned, if no request for it overtook
one. -/
theorem booked_of_inOrder {k : RdbObserverMapKey} {events : List (ThreadEvent BookingCall)}
    (h : AllowedRun bookingProtocol.step (Deferred.InOrder (serviceOf k)) ⟨.empty, []⟩ events)
    (hfinished : Deferred.Finished (bookingAfter events)) :
    Booked k (bookingAfter events).shared (requestsOf events) := by
  have hsequential := inOrderOf_eq_after events
  have htable : (bookingAfter events).shared =
      (CallbacksManager.after ((Deferred.startedCalls events).map BookingCall.exchange)).1 := by
    rw [← hsequential]
    exact Deferred.shared_run events
  have hheld : CallbacksManager.heldAfter k
      ((Deferred.startedCalls events).map BookingCall.exchange) ≤ serviceAt k (requestsOf events) := by
    have hreceived := Deferred.received_of_inOrder (a := ⟨false, false⟩) h
    have hnone : Deferred.unsent (bookingProtocol.run ⟨.empty, []⟩ events).1.threads = [] :=
      Deferred.unsent_of_finished hfinished
    rw [hnone, List.append_nil, hsequential, received_serviceOf, received_serviceOf] at hreceived
    exact hreceived
  obtain ⟨hsubscribed, henabled⟩ := hheld
  have hmatches := matches_sequential k (Deferred.startedCalls events)
  refine ⟨fun hhas => ?_, fun hnil => ?_⟩
  · rw [htable] at hhas
    have hsub := hmatches.subscribed.mpr hhas.ne_nil
    exact congrArg₂ Subscription.mk (hsubscribed.trans hsub)
      (henabled hsub (hmatches.enabled.mpr (.inl hhas)))
  · rw [htable] at hnil
    rw [hsubscribed, ← Bool.not_eq_true]
    exact fun hsub => hmatches.subscribed.mp hsub hnil

def someKey : RdbObserverMapKey :=
  .new [117] someTemplate

/-- The last observer of a key is deleted while another one registers. -/
def deletedInOrder : List (ThreadEvent BookingCall) :=
  [.start (.addObservers 1 [[117]] someTemplate 10), .advance 0,
    .start (.delObservers 1 [[117]] someTemplate),
    .start (.addObservers 2 [[117]] someTemplate 20), .advance 1, .advance 2]

theorem booked_deletedInOrder :
    Booked someKey (bookingAfter deletedInOrder).shared (requestsOf deletedInOrder) := by
  have hallowed : AllowedRun bookingProtocol.step (Deferred.InOrder (serviceOf someKey))
      ⟨.empty, []⟩ deletedInOrder := throughout_iff_getElem.mpr (by decide +kernel)
  exact booked_of_inOrder hallowed (by decide +kernel)

/-- The same calls, where the deletion calls the service last. -/
def deletedOvertaken : List (ThreadEvent BookingCall) :=
  [.start (.addObservers 1 [[117]] someTemplate 10), .advance 0,
    .start (.delObservers 1 [[117]] someTemplate),
    .start (.addObservers 2 [[117]] someTemplate 20), .advance 2, .advance 1]

/-- The observer that registered is enabled, and its key is not subscribed. -/
theorem not_booked_overtaken :
    ¬ ∀ (k : RdbObserverMapKey) (events : List (ThreadEvent BookingCall)),
      Deferred.Finished (bookingAfter events) →
        Booked k (bookingAfter events).shared (requestsOf events) := by
  intro h
  have hbooked := h someKey deletedOvertaken (by decide +kernel)
  exact absurd (hbooked.enabled (by decide +kernel)) (by decide +kernel)

end RdbSubscriberManager

end Cpp

end DataShare
