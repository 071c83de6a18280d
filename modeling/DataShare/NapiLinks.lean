import DataShare.NapiEmission
import DataShare.OperationResults
import DataShare.OwnedCalls
import Mathlib.Data.List.Nodup

/-!
# JS keys and native keys

A JS manager keeps its observers by the whole uri, the native manager by the uri without its query.
The keys with JS observers are linked with the native nodes of their helper (`Linked`) if no two of
them have the native key in common, each has exactly one enabled native node of the helper, with an
observer that emits to the JS manager, and the helper has no other nodes.

Calls of other helpers and changes keep the link (`Linked.other`). The helper keeps it if it
subscribes keys that have neither JS observers nor a native key in common with others
(`Linked.subscribed`), up to those that the service refuses, and if it unsubscribes keys that lose
their JS observers (`Linked.unsubscribed`).
-/

namespace DataShare

/-! ## The loops of the JS manager -/

namespace NapiCallbacksManager

variable {κ : Type} [Ord κ] [Std.TransOrd κ] {k : κ} {keys : List κ} {observer : Observer}
  {callbacks : Callbacks κ}

/-- The members in the entry of a key. -/
def entryAt (callbacks : Callbacks κ) (k : κ) : Option (List (Observer × Bool)) :=
  (callbacks.find? k).map members

omit [Std.TransOrd κ] in
theorem getD_entryAt (callbacks : Callbacks κ) (k : κ) :
    (entryAt callbacks k).getD [] = membersAt callbacks k :=
  find?_members callbacks k

theorem entryAt_congr {key : κ} (h : compare k key = .eq) (callbacks : Callbacks κ) :
    entryAt callbacks key = entryAt callbacks k := by
  unfold entryAt
  rw [OrderedMap.find?_congr h]

theorem entryAt_emplaceBack (callbacks : Callbacks κ) (key k : κ) (node : Node) :
    entryAt (emplaceBack callbacks key node) k =
      if compare k key = .eq then
        some (membersAt callbacks key ++ [(node.observer, node.enabled)])
      else entryAt callbacks k := by
  unfold emplaceBack entryAt
  rw [OrderedMap.find?_upsert]
  split
  · rw [Option.map_some, members, List.map_append]
    rfl
  · rfl

omit [Std.TransOrd κ] in
theorem any_callback_iff_isRegistered (nodes : List Node) :
    ((members nodes).any fun member => member.1.callback = observer.callback) =
      isRegistered observer nodes := by
  rw [members, List.any_map]
  rfl

/-- The observer joins its key, in whichever branch. -/
theorem entryAt_registerObserver (acc : Registered κ) (key k : κ) :
    entryAt (registerObserver observer acc key).callbacks k =
      if compare k key = .eq then some (join observer (membersAt acc.callbacks key))
      else entryAt acc.callbacks k := by
  unfold registerObserver
  by_cases hnone : (getEnabledObservers acc.callbacks key).isEmpty = true
  · have hjoin : join observer (membersAt acc.callbacks key) =
        membersAt acc.callbacks key ++ [(observer, true)] :=
      if_neg fun h => isEmpty_getEnabledObservers.mp hnone h.1
    rw [if_pos hnone, hjoin]
    exact entryAt_emplaceBack acc.callbacks key k _
  · have henabled := not_not.mp (mt isEmpty_getEnabledObservers.mpr hnone)
    have hsame : ((membersAt acc.callbacks key).any fun member =>
        member.1.callback = observer.callback) =
          isRegistered observer ((acc.callbacks.find? key).getD []) :=
      any_callback_iff_isRegistered _
    rw [if_neg hnone]
    split
    · next hregistered =>
      have hjoin : join observer (membersAt acc.callbacks key) = membersAt acc.callbacks key :=
        if_pos ⟨henabled, hsame.trans hregistered⟩
      rw [hjoin]
      split
      · next hk =>
        rw [entryAt_congr (Std.OrientedCmp.eq_symm hk)]
        unfold membersAt entryAt at *
        cases hfound : acc.callbacks.find? key with
        | none => simp [hfound, members] at henabled
        | some nodes => rfl
      · rfl
    · next hregistered =>
      have hjoin : join observer (membersAt acc.callbacks key) =
          membersAt acc.callbacks key ++ [(observer, true)] :=
        if_neg fun h => hregistered (hsame.symm.trans h.2)
      rw [hjoin]
      exact entryAt_emplaceBack acc.callbacks key k _

theorem firstRegisterKey_registerObserver (acc : Registered κ) (key : κ) :
    (registerObserver observer acc key).firstRegisterKey =
      if (membersAt acc.callbacks key).any fun member => member.2 then acc.firstRegisterKey
      else acc.firstRegisterKey ++ [key] := by
  unfold registerObserver
  by_cases hnone : (getEnabledObservers acc.callbacks key).isEmpty = true
  · rw [if_pos hnone, if_neg (isEmpty_getEnabledObservers.mp hnone)]
  · rw [if_neg hnone, if_pos (not_not.mp (mt isEmpty_getEnabledObservers.mpr hnone))]
    split <;> rfl

theorem registerObserver_turnAt : TurnAt k (registerObserver observer)
    (fun acc => (entryAt acc.callbacks k, mentionCount k acc.firstRegisterKey))
    fun view => (some (join observer (view.1.getD [])),
      if (view.1.getD []).any fun member => member.2 then view.2 else view.2 + 1) := by
  intro acc key
  dsimp only
  rw [entryAt_registerObserver, firstRegisterKey_registerObserver, getD_entryAt]
  by_cases hk : compare k key = .eq
  · rw [if_pos hk, if_pos hk, membersAt_congr hk]
    by_cases henabled : ((membersAt acc.callbacks k).any fun member => member.2) = true
    · rw [if_pos henabled, if_pos henabled]
    · rw [if_neg henabled, if_neg henabled, mentionCount_concat, if_pos hk]
  · rw [if_neg hk, if_neg hk]
    split
    · rfl
    · rw [mentionCount_concat, if_neg hk, Nat.add_zero]

variable (k keys observer callbacks) in
theorem registerLocal_at : (entryAt (registerLocal keys observer callbacks).callbacks k,
      mentionCount k (registerLocal keys observer callbacks).firstRegisterKey) =
    if Mentions k keys then (some (join observer (membersAt callbacks k)),
      if (membersAt callbacks k).any fun member => member.2 then 0 else 1)
    else (entryAt callbacks k, 0) := by
  unfold registerLocal
  refine (registerObserver_turnAt.foldl_of_idempotent (fun view => ?_) keys
    ⟨callbacks, [], [], []⟩).trans ?_
  · dsimp only
    rw [Option.getD_some, join_join, if_pos (any_join observer _)]
  · dsimp only
    rw [getD_entryAt]
    rfl

/-- What a deletion by keys leaves of an entry. -/
theorem entryAt_delLocal {deleted : Option Observer} {codes : CallbacksManager.DelCodes}
    (h : ¬ (keys = [] ∧ deleted = none)) :
    entryAt (delLocal codes keys deleted callbacks).callbacks k =
      if Mentions k keys then leaveEntry deleted (entryAt callbacks k) else entryAt callbacks k := by
  have hturn : TurnAt k (delObserver codes deleted)
      (fun acc => (acc.callbacks.find? k).map members) (leaveEntry deleted) := delObserver_turnAt
  rw [delLocal_of_keys h]
  exact hturn.foldl_of_idempotent leaveEntry_leaveEntry keys ⟨callbacks, [], []⟩

/-- An entry has members, all of them enabled and with callbacks of their own. -/
def Sound (found : Option (List (Observer × Bool))) : Prop :=
  ∀ joined, found = some joined → joined ≠ [] ∧ (∀ member ∈ joined, member.2 = true) ∧
    (joined.map fun member => member.1.callback).Nodup

theorem Sound.any_iff {found : Option (List (Observer × Bool))} (h : Sound found) :
    ((found.getD []).any fun member => member.2) = true ↔ found.getD [] ≠ [] := by
  cases found with
  | none => simp
  | some joined =>
    obtain ⟨hne, henabled, -⟩ := h joined rfl
    refine iff_of_true ?_ hne
    obtain ⟨member, hmember⟩ := List.exists_mem_of_ne_nil joined hne
    exact List.any_eq_true.mpr ⟨member, hmember, henabled member hmember⟩

theorem join_ne_nil (observer : Observer) (joined : List (Observer × Bool)) :
    join observer joined ≠ [] := by
  intro hnil
  have hany := any_join observer joined
  rw [hnil] at hany
  exact Bool.false_ne_true hany

theorem Sound.join {found : Option (List (Observer × Bool))} (h : Sound found)
    (observer : Observer) : Sound (some (join observer (found.getD []))) := by
  rintro _ ⟨⟩
  refine ⟨join_ne_nil observer _, ?_⟩
  have hany := h.any_iff
  unfold NapiCallbacksManager.join
  cases found with
  | none =>
    refine ⟨fun member hmember => ?_, List.nodup_singleton _⟩
    rw [List.mem_singleton.mp hmember]
  | some joined =>
    obtain ⟨hne, henabled, hnodup⟩ := h joined rfl
    rw [Option.getD_some] at hany ⊢
    split
    · exact ⟨henabled, hnodup⟩
    · next hnew =>
      have hnot := fun hsame => hnew ⟨hany.mpr hne, hsame⟩
      rw [List.any_eq_true] at hnot
      refine ⟨fun member hmember => ?_, ?_⟩
      · rcases List.mem_append.mp hmember with hold | hlast
        · exact henabled member hold
        · rw [List.mem_singleton.mp hlast]
      · rw [List.map_append]
        refine List.Nodup.append hnodup (List.nodup_singleton _) ?_
        rw [List.map_singleton, List.disjoint_singleton]
        intro hmem
        obtain ⟨member, hmember, heq⟩ := List.mem_map.mp hmem
        exact hnot ⟨member, hmember, decide_eq_true heq⟩

theorem Sound.leaveEntry {found : Option (List (Observer × Bool))} (h : Sound found)
    (deleted : Option Observer) : Sound (leaveEntry deleted found) := by
  intro left hleft
  obtain ⟨joined, rfl, hleave⟩ := Option.bind_eq_some_iff.mp hleft
  obtain ⟨hne, henabled, hnodup⟩ := h joined rfl
  split at hleave
  · exact absurd hleave (by simp)
  · next hstays =>
    obtain rfl := Option.some_inj.mp hleave
    refine ⟨fun hnil => hstays ⟨hnil, .inr hne⟩, ?_⟩
    cases deleted with
    | none => exact absurd ⟨rfl, .inl rfl⟩ hstays
    | some observer =>
      refine ⟨fun member hmember => henabled member (List.mem_of_mem_filter hmember), ?_⟩
      exact hnodup.sublist (List.filter_sublist.map _)

end NapiCallbacksManager

/-! ## The native table -/

namespace CallbacksManager

variable {κ σ ω : Type} [Ord κ] [Std.TransOrd κ]

theorem errCode_addLocal (keys : List κ) (subscriber : σ) (observer : Option ω)
    (callbacks : Callbacks κ σ ω) :
    ∀ r ∈ (addLocal keys subscriber observer callbacks).result, r.errCode = errOk := by
  unfold addLocal
  induction keys using List.reverseRecOn with
  | nil => exact fun r hr => absurd hr List.not_mem_nil
  | append_singleton keys key ih =>
    rw [List.foldl_append, List.foldl_cons, List.foldl_nil]
    unfold addObserver
    dsimp only
    split
    · exact ih
    · intro r hr
      rcases List.mem_append.mp hr with hr | hr
      · exact ih r hr
      · rw [List.mem_singleton.mp hr]

variable [DecidableEq σ]

/-- A registration fails for the keys that the service refuses. -/
theorem mem_failed_addObservers {keys : List κ} {subscriber : σ} {observer : Option ω}
    {answer : ℕ → Answer} {callbacks : Callbacks κ σ ω} {key : κ} :
    (∃ r ∈ (addObservers keys subscriber observer answer callbacks).result,
      r.errCode ≠ errOk ∧ r.key = key) ↔
    ∃ r ∈ (addObservers keys subscriber observer answer callbacks).requests,
      r.answer.refused = true ∧ r.key = key := by
  unfold addObservers
  dsimp only
  constructor
  · rintro ⟨r, hr, herr, hkey⟩
    rcases List.mem_append.mp hr with hlocal | hreply
    · exact absurd (errCode_addLocal keys subscriber observer callbacks r hlocal) herr
    · obtain ⟨request, hrequest, hsome⟩ := List.mem_filterMap.mp hreply
      refine ⟨request, hrequest, ?_⟩
      cases hanswer : request.answer with
      | replied errCode =>
        rw [hanswer] at hsome
        obtain rfl := Option.some_inj.mp hsome
        exact ⟨decide_eq_true herr, hkey⟩
      | lost applied =>
        rw [hanswer] at hsome
        exact absurd hsome (by simp)
  · rintro ⟨request, hrequest, hrefused, hkey⟩
    cases hanswer : request.answer with
    | replied errCode =>
      rw [hanswer] at hrefused
      refine ⟨⟨request.key, errCode⟩, List.mem_append_right _ (List.mem_filterMap.mpr
        ⟨request, hrequest, ?_⟩), of_decide_eq_true hrefused, hkey⟩
      rw [hanswer]
    | lost applied =>
      rw [hanswer] at hrefused
      exact absurd hrefused Bool.false_ne_true

theorem key_mem_of_mem_requests {keys : List κ} {subscriber : σ} {observer : Option ω}
    {answer : ℕ → Answer} {callbacks : Callbacks κ σ ω} {r : Request κ}
    (hr : r ∈ (addObservers keys subscriber observer answer callbacks).requests) : r.key ∈ keys := by
  have hkeys := perm_addLocal keys subscriber observer callbacks
  refine hkeys.subset (List.mem_append_right _ ?_)
  have hsent := map_key_sendRequests .subscribe
    (addLocal keys subscriber observer callbacks).firstRegisterKey answer
  exact hsent ▸ List.mem_map_of_mem hr

end CallbacksManager

namespace Napi

open Cpp (StdString clearUriOf SubscriberManager SubscriberExchange SubscriberCall)
open CallbacksManager (nodesAt)
open NapiCallbacksManager (Observer membersAt entryAt join leave Deletes Sound)

/-- The roles of the native nodes of a key. -/
def rolesAt {κ ν : Type} [Ord κ] (native : SubscriberManager κ ν) (k : κ) :
    List (ℕ × Option ℕ × Bool) :=
  (nodesAt native.callbacks k).map role

/-- Those of one subscriber. -/
def ownRoles {κ ν : Type} [Ord κ] (subscriber : ℕ) (native : SubscriberManager κ ν) (k : κ) :
    List (ℕ × Option ℕ × Bool) :=
  (rolesAt native k).filter fun r => r.1 = subscriber

section Native

variable {τ κ ν : Type} [Ord τ] [Ord κ] [Std.TransOrd κ] {cls : NapiClass τ κ ν}
  {times : ObserverMapKey τ → ν → ℕ} {subscriber : ℕ} {native : SubscriberManager κ ν} {k : κ}

theorem role_eraseSubscriber (nodes : List (ObserverNode ℕ ℕ)) :
    (eraseSubscriber subscriber nodes).map role =
      (nodes.map role).filter fun r => r.1 ≠ subscriber := by
  rw [eraseSubscriber, List.filter_map]
  rfl

variable (cls native subscriber k) in
open Classical in
theorem rolesAt_addObservers (uris : List StdString) (scope : τ) (answer : ℕ → Answer) :
    rolesAt (native.addObservers cls.native subscriber uris scope answer).manager k =
      if Refused (requestsAt k (native.addObservers cls.native subscriber uris scope answer).requests)
      then (rolesAt native k).filter fun r => r.1 ≠ subscriber
      else rolesAt native k ++ List.replicate
        (mentionCount k (uris.map fun uri => cls.native.keyOf uri scope))
        (subscriber, some native.made, true) := by
  unfold rolesAt SubscriberManager.addObservers
  dsimp only
  rw [CallbacksManager.nodesAt_addObservers]
  split
  · exact role_eraseSubscriber _
  · rw [List.map_append, List.map_replicate]
    rfl

variable (cls native subscriber k) in
theorem rolesAt_delObservers {uris : List StdString} (hne : uris ≠ []) (scope : τ)
    (answer : ℕ → Answer) :
    rolesAt (native.delObservers cls.native subscriber uris scope answer).manager k =
      if Mentions k (uris.map fun uri => cls.native.keyOf uri scope) then
        (rolesAt native k).filter fun r => r.1 ≠ subscriber
      else rolesAt native k := by
  unfold rolesAt SubscriberManager.delObservers
  rw [if_neg (by simpa using hne), Cpp.nodesAt_delKeys rfl]
  split
  · exact role_eraseSubscriber _
  · rfl

variable (native) in
theorem made_outcome (h : cls.Lawful times) (x : SubscriberExchange τ ν) :
    (x.outcome cls.native native).manager.made = native.made ∨
      (x.outcome cls.native native).manager.made = native.made + 1 := by
  obtain ⟨call, answer⟩ := x
  cases call with
  | addObservers caller uris scope => exact .inr rfl
  | delObservers caller uris scope =>
    obtain ⟨order, keys, hdel⟩ := Cpp.delObservers_eq_delKeys cls.native native caller uris scope
      answer
    refine .inl ?_
    dsimp only [SubscriberExchange.outcome]
    rw [hdel]
    rfl
  | delAllObservers caller => exact .inl rfl
  | enableObservers caller uris scope => exact .inl rfl
  | disableObservers caller uris scope => exact .inl rfl
  | emit change => exact .inl (h.made_native change native)

/-- A call of another helper leaves the nodes of this one as they are. -/
theorem ownRoles_other {x : SubscriberExchange τ ν} {caller : ℕ} (hx : x.call.caller = some caller)
    (hne : caller ≠ subscriber) :
    ownRoles subscriber (x.outcome cls.native native).manager k = ownRoles subscriber native k := by
  have hothers := (@Cpp.changesNodes_outcome τ κ ν ν ν _ _ cls.native native x caller hx k).others
  have hfilter (nodes : List (ObserverNode ℕ ℕ)) :
      ((nodes.map role).filter fun r => r.1 = subscriber) =
        ((nodes.filter fun node => node.subscriber ≠ caller).map role).filter
          fun r => r.1 = subscriber := by
    rw [List.filter_map, List.filter_map, List.filter_filter]
    refine congrArg (List.map role) (List.filter_congr fun node _ => ?_)
    rw [Function.comp_apply, Bool.eq_iff_iff, Bool.and_eq_true, decide_eq_true_eq, decide_eq_true_eq]
    exact ⟨fun hs => ⟨hs, fun hs' => hne (hs'.symm.trans hs)⟩, fun hs => hs.1⟩
  unfold ownRoles rolesAt
  rw [hfilter, hothers, ← hfilter]

/-- A change, or a call of another helper. -/
theorem rolesAt_other (h : cls.Lawful times) {x : SubscriberExchange τ ν}
    (hx : x.call.caller ≠ some subscriber) (k : κ) :
    ownRoles subscriber (x.outcome cls.native native).manager k = ownRoles subscriber native k ∧
      ∀ r ∈ rolesAt (x.outcome cls.native native).manager k,
        (∃ r' ∈ rolesAt native k, r'.1 = r.1 ∧ r'.2.1 = r.2.1) ∨
        r.2.1 = some native.made ∧
          (x.outcome cls.native native).manager.made = native.made + 1 := by
  cases hcaller : x.call.caller with
  | none =>
    have hroles : rolesAt (x.outcome cls.native native).manager k = rolesAt native k := by
      obtain ⟨call, answer⟩ := x
      cases call with
      | emit change => exact h.emit_native change native k
      | _ => exact absurd hcaller (by simp [SubscriberCall.caller])
    unfold ownRoles
    rw [hroles]
    exact ⟨rfl, fun r hr => .inl ⟨r, hr, rfl, rfl⟩⟩
  | some caller =>
    refine ⟨ownRoles_other hcaller fun hs => hx (hs ▸ hcaller), fun r hr => ?_⟩
    have hchange := @Cpp.changesNodes_outcome τ κ ν ν ν _ _ cls.native native x caller hcaller k
    obtain ⟨node, hnode, rfl⟩ := List.mem_map.mp hr
    by_cases hs : node.subscriber = caller
    · rcases hchange.own node hnode hs with ⟨hadds, hbrings⟩ | ⟨old, hold, hs', hwhat⟩
      · refine .inr ⟨hbrings, ?_⟩
        obtain ⟨call, answer⟩ := x
        cases call with
        | addObservers caller uris scope => rfl
        | _ => exact absurd hadds (by exact id)
      · exact .inl ⟨role old, List.mem_map_of_mem hold, hs'.trans hs.symm, hwhat⟩
    · have hkept : node ∈ (nodesAt native.callbacks k).filter fun node => node.subscriber ≠ caller :=
        hchange.others ▸ List.mem_filter.mpr ⟨hnode, decide_eq_true hs⟩
      exact .inl ⟨role node, List.mem_map_of_mem (List.mem_of_mem_filter hkept), rfl, rfl⟩

end Native

/-! ## Keys in step -/

section Linked

variable {τ κ ν : Type} [Ord τ] [Ord κ] {cls : NapiClass τ κ ν} {times : ObserverMapKey τ → ν → ℕ}
  {subscriber : ℕ} {live : ObserverMapKey τ → Prop} {subscriptions : List ℕ}
  {native : SubscriberManager κ ν}

/-- Keys with the same native key : they differ in the query of their uris at most. -/
def SameNative (key key' : ObserverMapKey τ) : Prop :=
  clearUriOf key.uri = clearUriOf key'.uri ∧ key.scope = key'.scope

theorem NapiClass.Lawful.compare_nativeKey (h : cls.Lawful times) {key key' : ObserverMapKey τ} :
    compare (cls.nativeKey key) (cls.nativeKey key') = .eq ↔ SameNative key key' :=
  h.compare_keyOf _ _ _ _

/-- The keys with JS observers are those with a native node of the helper. -/
structure Linked (cls : NapiClass τ κ ν) (subscriber : ℕ) (live : ObserverMapKey τ → Prop)
    (subscriptions : List ℕ) (native : SubscriberManager κ ν) : Prop where
  separate : ∀ key key', live key → live key' → SameNative key key' → key = key'
  live_own : ∀ key, live key → ∃ o ∈ subscriptions,
    ownRoles subscriber native (cls.nativeKey key) = [(subscriber, some o, true)]
  dead_own : ∀ k, (∀ key, live key → compare k (cls.nativeKey key) ≠ .eq) →
    ownRoles subscriber native k = []
  owned : ∀ k, ∀ r ∈ rolesAt native k, ∀ o ∈ subscriptions, r.2.1 = some o → r.1 = subscriber
  made : ∀ k, ∀ r ∈ rolesAt native k, ∀ o, r.2.1 = some o → o < native.made
  subscriptions_made : ∀ o ∈ subscriptions, o < native.made

namespace Linked

theorem congr {live' : ObserverMapKey τ → Prop} (h : Linked cls subscriber live subscriptions native)
    (hlive : ∀ key, live' key ↔ live key) :
    Linked cls subscriber live' subscriptions native := by
  obtain rfl : live' = live := funext fun key => propext (hlive key)
  exact h

variable [Std.TransOrd κ]

theorem other (h : Linked cls subscriber live subscriptions native) (hcls : cls.Lawful times)
    {x : SubscriberExchange τ ν} (hx : x.call.caller ≠ some subscriber) :
    Linked cls subscriber live subscriptions (x.outcome cls.native native).manager := by
  have hmade : native.made ≤ (x.outcome cls.native native).manager.made := by
    rcases made_outcome native hcls x with heq | heq <;> omega
  refine ⟨h.separate, fun key hkey => ?_, fun k hk => ?_, fun k r hr o ho hro => ?_,
    fun k r hr o hro => ?_, fun o ho => lt_of_lt_of_le (h.subscriptions_made o ho) hmade⟩
  · rw [(rolesAt_other hcls hx _).1]
    exact h.live_own key hkey
  · rw [(rolesAt_other hcls hx k).1]
    exact h.dead_own k hk
  · rcases (rolesAt_other hcls hx k).2 r hr with ⟨r', hr', hfst, hobs⟩ | ⟨hnew, -⟩
    · rw [← hfst]
      exact h.owned k r' hr' o ho (hobs.trans hro)
    · obtain rfl := Option.some_inj.mp (hnew.symm.trans hro)
      exact absurd (h.subscriptions_made _ ho) (Nat.lt_irrefl _)
  · rcases (rolesAt_other hcls hx k).2 r hr with ⟨r', hr', -, hobs⟩ | ⟨hnew, hlast⟩
    · exact lt_of_lt_of_le (h.made k r' hr' o (hobs.trans hro)) hmade
    · obtain rfl := Option.some_inj.mp (hnew.symm.trans hro)
      omega

omit [Std.TransOrd κ] in
variable (cls) in
theorem map_keyOf_uri {keys : List (ObserverMapKey τ)} {scope : τ}
    (hkeys : ∀ key ∈ keys, key.scope = scope) :
    ((keys.map ObserverMapKey.uri).map fun uri => cls.native.keyOf uri scope) =
      keys.map cls.nativeKey := by
  rw [List.map_map]
  refine List.map_congr_left fun key hkey => ?_
  rw [Function.comp_apply, NapiClass.nativeKey, hkeys key hkey]

theorem filter_others_own (roles : List (ℕ × Option ℕ × Bool)) :
    ((roles.filter fun r => r.1 ≠ subscriber).filter fun r => r.1 = subscriber) = [] := by
  rw [List.filter_filter, List.filter_eq_nil_iff]
  intro r _
  simp

/-- The helper unsubscribes some of its keys. -/
theorem unsubscribed (h : Linked cls subscriber live subscriptions native) (hcls : cls.Lawful times)
    {keys : List (ObserverMapKey τ)} {scope : τ} (hne : keys ≠ [])
    (hkeys : ∀ key ∈ keys, live key ∧ key.scope = scope) (answer : ℕ → Answer) :
    Linked cls subscriber (fun key => live key ∧ key ∉ keys) subscriptions
      (native.delObservers cls.native subscriber (keys.map ObserverMapKey.uri) scope
        answer).manager := by
  have huris : keys.map ObserverMapKey.uri ≠ [] := mt List.map_eq_nil_iff.mp hne
  have hmapped := map_keyOf_uri cls fun key hkey => (hkeys key hkey).2
  have hroles (k : κ) := rolesAt_delObservers cls subscriber native k huris scope answer
  simp only [hmapped] at hroles
  have hsub (k : κ) : rolesAt (native.delObservers cls.native subscriber
      (keys.map ObserverMapKey.uri) scope answer).manager k ⊆ rolesAt native k := by
    rw [hroles]
    split
    · exact List.filter_subset_self _
    · exact List.Subset.refl _
  have hmade : (native.delObservers cls.native subscriber (keys.map ObserverMapKey.uri) scope
      answer).manager.made = native.made := by
    obtain ⟨order, dels, hdel⟩ := Cpp.delObservers_eq_delKeys cls.native native subscriber
      (keys.map ObserverMapKey.uri) scope answer
    rw [hdel]
    rfl
  refine ⟨fun key key' hkey hkey' => h.separate key key' hkey.1 hkey'.1, fun key hkey => ?_,
    fun k hk => ?_, fun k r hr => h.owned k r (hsub k hr), fun k r hr => ?_, ?_⟩
  · have hnot : ¬ Mentions (cls.nativeKey key) (keys.map cls.nativeKey) := by
      rintro ⟨_, hmem, hcmp⟩
      obtain ⟨key', hkey', rfl⟩ := List.mem_map.mp hmem
      obtain rfl := h.separate key key' hkey.1 (hkeys key' hkey').1 (hcls.compare_nativeKey.mp hcmp)
      exact hkey.2 hkey'
    unfold ownRoles
    rw [hroles, if_neg hnot]
    exact h.live_own key hkey.1
  · unfold ownRoles
    rw [hroles]
    split
    · exact filter_others_own _
    · next hnot =>
      refine h.dead_own k fun key hkey hcmp => ?_
      by_cases hmem : key ∈ keys
      · exact hnot ⟨_, List.mem_map_of_mem hmem, hcmp⟩
      · exact hk key ⟨hkey, hmem⟩ hcmp
  · rw [hmade]
    exact h.made k r (hsub k hr)
  · rw [hmade]
    exact h.subscriptions_made

omit [Ord τ] in
theorem requestsAt_congr {k key : κ} (h : compare k key = .eq) (sent : List (Request κ)) :
    requestsAt k sent = requestsAt key sent := by
  refine List.filter_congr fun r _ => ?_
  rw [Std.TransCmp.congr_left h]

/-- The helper subscribes keys that have no JS observers, nor a native key in common with others. -/
theorem subscribed [Std.TransOrd τ] [Std.LawfulEqOrd τ]
    (h : Linked cls subscriber live subscriptions native) (hcls : cls.Lawful times)
    {keys : List (ObserverMapKey τ)} {scope : τ}
    (hkeys : ∀ key ∈ keys, ¬ live key ∧ key.scope = scope ∧ mentionCount key keys = 1 ∧
      ∀ key', key' ∈ keys ∨ live key' → SameNative key key' → key = key')
    (answer : ℕ → Answer) :
    Linked cls subscriber
      (fun key => live key ∨ key ∈ keys ∧ ¬ Refused (requestsAt (cls.nativeKey key)
        (native.addObservers cls.native subscriber (keys.map ObserverMapKey.uri) scope
          answer).requests))
      (subscriptions ++ [native.made])
      (native.addObservers cls.native subscriber (keys.map ObserverMapKey.uri) scope
        answer).manager := by
  have hmapped := map_keyOf_uri cls fun key hkey => (hkeys key hkey).2.1
  have hroles (k : κ) := rolesAt_addObservers cls subscriber native k (keys.map ObserverMapKey.uri)
    scope answer
  simp only [hmapped] at hroles
  have hrefused (k : κ) (href : Refused (requestsAt k (native.addObservers cls.native subscriber
      (keys.map ObserverMapKey.uri) scope answer).requests)) :
      ∃ key ∈ keys, compare k (cls.nativeKey key) = .eq := by
    obtain ⟨r, hr, -⟩ := href
    obtain ⟨hr, hcmp⟩ := List.mem_filter.mp hr
    have hmem := CallbacksManager.key_mem_of_mem_requests hr
    rw [hmapped] at hmem
    obtain ⟨key, hkey, heq⟩ := List.mem_map.mp hmem
    exact ⟨key, hkey, heq ▸ of_decide_eq_true hcmp⟩
  have hcount {key : ObserverMapKey τ} (hkey : key ∈ keys) :
      mentionCount (cls.nativeKey key) (keys.map cls.nativeKey) = 1 := by
    rw [← (hkeys key hkey).2.2.1]
    unfold mentionCount
    rw [List.countP_map]
    refine List.countP_congr fun key' hkey' => ?_
    rw [Function.comp_apply, decide_eq_true_eq, decide_eq_true_eq, hcls.compare_nativeKey]
    constructor
    · intro hsame
      obtain rfl := (hkeys key hkey).2.2.2 key' (.inl hkey') hsame
      exact Std.ReflCmp.compare_self
    · intro hcmp
      obtain rfl := Std.LawfulEqOrd.eq_of_compare hcmp
      exact ⟨rfl, rfl⟩
  have hzero {k : κ} (hk : ∀ key ∈ keys, compare k (cls.nativeKey key) ≠ .eq) :
      mentionCount k (keys.map cls.nativeKey) = 0 := by
    rw [mentionCount_eq_zero]
    rintro ⟨_, hmem, hcmp⟩
    obtain ⟨key, hkey, rfl⟩ := List.mem_map.mp hmem
    exact hk key hkey hcmp
  have hdead {key : ObserverMapKey τ} (hkey : key ∈ keys) :
      ownRoles subscriber native (cls.nativeKey key) = [] := by
    refine h.dead_own _ fun key' hlive hcmp => ?_
    obtain rfl := (hkeys key hkey).2.2.2 key' (.inr hlive) (hcls.compare_nativeKey.mp hcmp)
    exact (hkeys key hkey).1 hlive
  have hown (k : κ) (hnot : ¬ Refused (requestsAt k (native.addObservers cls.native subscriber
      (keys.map ObserverMapKey.uri) scope answer).requests)) :
      ownRoles subscriber (native.addObservers cls.native subscriber (keys.map ObserverMapKey.uri)
        scope answer).manager k = ownRoles subscriber native k ++
          List.replicate (mentionCount k (keys.map cls.nativeKey))
            (subscriber, some native.made, true) := by
    unfold ownRoles
    rw [hroles, if_neg hnot, List.filter_append, List.filter_replicate_of_pos (by simp)]
  have hmem {k : κ} {r : ℕ × Option ℕ × Bool} (hr : r ∈ rolesAt (native.addObservers cls.native
      subscriber (keys.map ObserverMapKey.uri) scope answer).manager k) :
      r ∈ rolesAt native k ∨ r = (subscriber, some native.made, true) := by
    rw [hroles] at hr
    split at hr
    · exact .inl (List.mem_of_mem_filter hr)
    · exact (List.mem_append.mp hr).imp_right List.eq_of_mem_replicate
  refine ⟨fun key key' hkey hkey' hsame => ?_, fun key hkey => ?_, fun k hk => ?_,
    fun k r hr o ho hro => ?_, fun k r hr o hro => ?_, fun o ho => ?_⟩
  · rcases hkey with hlive | ⟨hkey, -⟩
    · rcases hkey' with hlive' | ⟨hkey', -⟩
      · exact h.separate key key' hlive hlive' hsame
      · exact ((hkeys key' hkey').2.2.2 key (.inr hlive) ⟨hsame.1.symm, hsame.2.symm⟩).symm
    · exact (hkeys key hkey).2.2.2 key' (hkey'.elim .inr fun h => .inl h.1) hsame
  · rcases hkey with hlive | ⟨hkey, hnot⟩
    · have hother (key') (hkey' : key' ∈ keys) :
          compare (cls.nativeKey key) (cls.nativeKey key') ≠ .eq := by
        intro hcmp
        have hsame := hcls.compare_nativeKey.mp hcmp
        obtain rfl := (hkeys key' hkey').2.2.2 key (.inr hlive) ⟨hsame.1.symm, hsame.2.symm⟩
        exact (hkeys key' hkey').1 hlive
      obtain ⟨o, ho, hroles'⟩ := h.live_own key hlive
      refine ⟨o, List.mem_append_left _ ho, ?_⟩
      rw [hown _ fun href => (hrefused _ href).elim fun key' h' => hother key' h'.1 h'.2,
        hzero hother, hroles']
      rfl
    · refine ⟨native.made, List.mem_append_right _ (List.mem_singleton_self _), ?_⟩
      rw [hown _ hnot, hdead hkey, hcount hkey]
      rfl
  · by_cases href : Refused (requestsAt k (native.addObservers cls.native subscriber
        (keys.map ObserverMapKey.uri) scope answer).requests)
    · unfold ownRoles
      rw [hroles, if_pos href]
      exact filter_others_own _
    · have hnone (key) (hkey : key ∈ keys) : compare k (cls.nativeKey key) ≠ .eq := by
        intro hcmp
        refine hk key (.inr ⟨hkey, ?_⟩) hcmp
        rwa [← requestsAt_congr hcmp]
      rw [hown k href, hzero hnone, h.dead_own k fun key hkey => hk key (.inl hkey)]
      rfl
  · rcases hmem hr with hold | rfl
    · rcases List.mem_append.mp ho with ho | ho
      · exact h.owned k r hold o ho hro
      · obtain rfl := List.mem_singleton.mp ho
        exact absurd (h.made k r hold _ hro) (Nat.lt_irrefl _)
    · rfl
  · have hmade : (native.addObservers cls.native subscriber (keys.map ObserverMapKey.uri) scope
        answer).manager.made = native.made + 1 := rfl
    rw [hmade]
    rcases hmem hr with hold | rfl
    · exact Nat.lt_succ_of_lt (h.made k r hold o hro)
    · obtain rfl := Option.some_inj.mp hro
      exact Nat.lt_succ_self _
  · refine Nat.lt_succ_iff.mpr ?_
    rcases List.mem_append.mp ho with ho | ho
    · exact (h.subscriptions_made o ho).le
    · exact (List.mem_singleton.mp ho).le

end Linked

end Linked

end Napi

end DataShare
