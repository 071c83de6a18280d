import DataShare.RdbSubscriberManager
import DataShare.History

/-!
# Cleanup of RDB subscriptions

What is left of a key once its last observer is gone : whether the service still holds its
subscription, and whether a change node cached for the old observers can reach a new one.
`KeyChange` is all that a call can do to the entries and the cached node of a key, and
`cleanedUp` says that over any run both are cleaned up, as long as no `del_all_observers`
removes the last observer of the key and its unsubscriptions take effect.

`del_all_observers` itself only removes the entries (`stale_after_delAll`) : the key stays
subscribed, and the second observer registered after it is handed the old node.
-/

set_option linter.unusedSectionVars false

namespace DataShare

namespace Rust

namespace RdbSubscriberManager

variable {ω δ : Type}

/-! ## Calls -/

inductive Call (ω δ : Type) where
  | addObservers (subscriber : ℕ) (uris : List String) (templateId : TemplateId) (callback : ω)
  | delObservers (subscriber : ℕ) (uris : List String) (templateId : TemplateId)
  | delAllObservers (subscriber : ℕ)
  | enableObservers (subscriber : ℕ) (uris : List String) (templateId : TemplateId)
  | disableObservers (subscriber : ℕ) (uris : List String) (templateId : TemplateId)
  | recoverObservers
  | emit (changeNode : RdbChangeNode δ)

/-- A call, with the answer to its `i`-th request. -/
structure Exchange (ω δ : Type) where
  call : Call ω δ
  answer : ℕ → Answer

def Exchange.outcome (self : RdbSubscriberManager ω δ) : Exchange ω δ → RdbOutcome ω δ
  | ⟨.addObservers subscriber uris templateId callback, answer⟩ =>
    addObservers subscriber uris templateId callback answer self
  | ⟨.delObservers subscriber uris templateId, answer⟩ =>
    delObservers subscriber uris templateId answer self
  | ⟨.delAllObservers subscriber, _⟩ => delAllObservers subscriber self
  | ⟨.enableObservers subscriber uris templateId, answer⟩ =>
    enableObservers subscriber uris templateId answer self
  | ⟨.disableObservers subscriber uris templateId, answer⟩ =>
    disableObservers subscriber uris templateId answer self
  | ⟨.recoverObservers, answer⟩ => recoverObservers answer self
  | ⟨.emit changeNode, _⟩ => emit changeNode self

/-- No key of the map has an empty list of entries. -/
def NoEmptyEntries (self : RdbSubscriberManager ω δ) : Prop :=
  ∀ k entries, self.callbacks.find? k = some entries → entries ≠ []

theorem compare_eq_iff {k k' : RdbObserverMapKey} :
    compare k k' = .eq ↔ k.clearUri = k'.clearUri ∧ k.templateId = k'.templateId := by
  show compareLex _ _ k k' = .eq ↔ _
  rw [compareLex_eq_eq, compareLex_eq_eq]
  simp only [compareOn, Std.LawfulEqOrd.compare_eq_iff_eq]
  cases k.templateId
  cases k'.templateId
  simp

/-! ## What a call does to one key -/

/-- All that call `c` can do to a key, from its entries and its cached node before to those
after, with the requests sent for it. -/
inductive KeyChange (k : RdbObserverMapKey) (c : Call ω δ)
    (entries : Option (List (SubscriberEntry ω))) (node : Option (RdbChangeNode δ)) :
    List (Request RdbObserverMapKey) → Option (List (SubscriberEntry ω)) →
    Option (RdbChangeNode δ) → Prop
  | registered {sent entries'} (present : entries'.isSome)
      (kinds : ∀ r ∈ sent, r.kind = .subscribe) : KeyChange k c entries node sent entries' node
  | kept {sent entries'} (present : entries'.isSome = entries.isSome)
      (kinds : ∀ r ∈ sent, r.kind ≠ .subscribe) : KeyChange k c entries node sent entries' node
  | removed {sent} (kinds : AllOf .unsubscribe sent) : KeyChange k c entries node sent none none
  | dropped (subscriber : ℕ) (call : c = .delAllObservers subscriber)
      (last : ∀ es, entries = some es → retainOthers subscriber es = []) :
      KeyChange k c entries node [] none node
  | notified {entries'} (changeNode : RdbChangeNode δ) (call : c = .emit changeNode)
      (matching : k.clearUri = clearUriOf changeNode.uri) (present : entries'.isSome) :
      KeyChange k c entries node [] entries' (some changeNode)

section Loops

variable {k : RdbObserverMapKey} {keys : List RdbObserverMapKey} {subscriber : ℕ} {callback : ω}

/-- What a deletion leaves of a key. -/
def retainKey (subscriber : ℕ) (entries : Option (List (SubscriberEntry ω))) :
    Option (List (SubscriberEntry ω)) :=
  (entries.map (retainOthers subscriber)).filter fun left => !left.isEmpty

theorem addKey_turnAt (subscriber : ℕ) (callback : ω) : TurnAt k (addKey subscriber callback)
    (fun acc => acc.callbacks.find? k)
    fun entries => some (entries.getD [] ++ [⟨subscriber, callback, true, false⟩]) := by
  intro acc key
  have hupsert := OrderedMap.find?_upsert key k
    (fun old => old.getD [] ++ [(⟨subscriber, callback, true, false⟩ : SubscriberEntry ω)])
    acc.callbacks
  have hcb : (addKey subscriber callback acc key).callbacks = acc.callbacks.upsert key fun old =>
      old.getD [] ++ [⟨subscriber, callback, true, false⟩] := by
    unfold addKey
    dsimp only
    split <;> rfl
  dsimp only
  rw [hcb, hupsert]
  split
  · next hk => rw [OrderedMap.find?_congr hk]
  · rfl

theorem isSome_addLoop (acc : Adding ω) (h : Mentions k keys) :
    ((keys.foldl (addKey subscriber callback) acc).callbacks.find? k).isSome = true := by
  have hloop := (addKey_turnAt subscriber callback).foldl (k := k) keys acc
  obtain ⟨n, hn⟩ := Nat.exists_eq_succ_of_ne_zero (Nat.pos_iff_ne_zero.mp (mentionCount_pos.mpr h))
  rw [hloop, hn, Function.iterate_succ_apply']
  rfl

theorem mentions_firstAddKeys (acc : Adding ω)
    (h : Mentions k (keys.foldl (addKey subscriber callback) acc).firstAddKeys) :
    Mentions k acc.firstAddKeys ∨ Mentions k keys := by
  refine List.foldlRecOn (motive := fun result : Adding ω =>
      Mentions k result.firstAddKeys → Mentions k acc.firstAddKeys ∨ Mentions k keys)
    keys _ .inl (fun result ih key hkey h => ?_) h
  unfold addKey at h
  dsimp only at h
  split at h
  · exact ih h
  · rcases mentions_append.mp h with h | h
    · exact ih h
    · exact .inr ⟨key, hkey, (mentions_cons.mp h).resolve_right (not_mentions_nil k)⟩

theorem retainOthers_idem (entries : List (SubscriberEntry ω)) :
    retainOthers subscriber (retainOthers subscriber entries) = retainOthers subscriber entries := by
  simp [retainOthers]

theorem retainKey_some (entries : List (SubscriberEntry ω)) :
    retainKey subscriber (some entries) =
      if retainOthers subscriber entries = [] then none
      else some (retainOthers subscriber entries) := by
  unfold retainKey
  by_cases h : retainOthers subscriber entries = [] <;> simp [h]

theorem retainKey_idem (entries : Option (List (SubscriberEntry ω))) :
    retainKey subscriber (retainKey subscriber entries) = retainKey subscriber entries := by
  cases entries with
  | none => rfl
  | some entries =>
    rw [retainKey_some]
    split
    · rfl
    · next h => rw [retainKey_some, retainOthers_idem, if_neg h]

theorem delKey_turnAt (subscriber : ℕ) : TurnAt k (delKey subscriber)
    (fun acc : Deleting ω => acc.callbacks.find? k) (retainKey subscriber) := by
  intro acc key
  unfold delKey
  cases hfind : acc.callbacks.find? key with
  | none =>
    show acc.callbacks.find? k = if _ then retainKey subscriber (acc.callbacks.find? k)
      else acc.callbacks.find? k
    split
    · next hk => rw [OrderedMap.find?_congr hk, hfind]; rfl
    · rfl
  | some entries =>
    dsimp only
    by_cases hleft : retainOthers subscriber entries = []
    · rw [hleft, if_pos List.isEmpty_nil]
      dsimp only
      rw [OrderedMap.find?_erase]
      split
      · next hk => rw [OrderedMap.find?_congr hk, hfind, retainKey_some, if_pos hleft]
      · rfl
    · rw [if_neg (by simpa using hleft)]
      dsimp only
      rw [OrderedMap.find?_assign]
      split
      · next hk => rw [OrderedMap.find?_congr hk, hfind, retainKey_some, if_neg hleft]
      · rfl

theorem delKey_collectsAt (subscriber : ℕ) : CollectsAt k (delKey subscriber)
    (fun acc : Deleting ω => acc.callbacks.find? k) Deleting.keysToErase
    fun entries => entries.isSome = true ∧ retainKey subscriber entries = none := by
  intro acc key
  unfold delKey
  have hk : compare k key = .eq → acc.callbacks.find? k = acc.callbacks.find? key := fun hk =>
    OrderedMap.find?_congr hk _
  cases hfind : acc.callbacks.find? key with
  | none =>
    refine (or_iff_left ?_).symm
    rintro ⟨heq, hsome, -⟩
    have hsome' : (acc.callbacks.find? k).isSome = true := hsome
    rw [hk heq, hfind] at hsome'
    exact Bool.false_ne_true hsome'
  | some entries =>
    rw [hfind] at hk
    dsimp only
    by_cases hleft : retainOthers subscriber entries = []
    · rw [hleft, if_pos List.isEmpty_nil]
      dsimp only
      rw [mentions_append, mentions_cons]
      simp only [not_mentions_nil, or_false]
      refine or_congr_right ⟨fun heq => ⟨heq, ?_⟩, And.left⟩
      rw [hk heq, retainKey_some, if_pos hleft]
      exact ⟨rfl, rfl⟩
    · rw [if_neg (by simpa using hleft)]
      dsimp only
      refine (or_iff_left ?_).symm
      rintro ⟨heq, -, hnone⟩
      rw [hk heq, retainKey_some, if_neg hleft] at hnone
      exact absurd hnone (by simp)

theorem find?_delLoop (callbacks : Callbacks ω) :
    (keys.foldl (delKey subscriber) ⟨callbacks, []⟩).callbacks.find? k =
      if Mentions k keys then retainKey subscriber (callbacks.find? k) else callbacks.find? k :=
  (delKey_turnAt subscriber).foldl_of_idempotent retainKey_idem keys _

theorem mentions_keysToErase (callbacks : Callbacks ω) :
    Mentions k (keys.foldl (delKey subscriber) ⟨callbacks, []⟩).keysToErase ↔
      Mentions k keys ∧ (callbacks.find? k).isSome = true ∧
        retainKey subscriber (callbacks.find? k) = none := by
  rw [(delKey_collectsAt subscriber).foldl (delKey_turnAt subscriber)]
  · simp
  · rintro entries ⟨hsome, hnone⟩
    rw [retainKey_idem] at hnone
    rw [hnone] at hsome
    exact absurd hsome Bool.false_ne_true

/-- Neither the enabling nor the disabling loop adds or removes entries. -/
theorem length_enableLoop (lastMap : NodeMap δ) (acc : Enabling ω δ) :
    ((keys.foldl (enableKey subscriber lastMap) acc).callbacks.find? k).map List.length =
      (acc.callbacks.find? k).map List.length := by
  refine List.foldlRecOn (motive := fun result : Enabling ω δ =>
    (result.callbacks.find? k).map List.length = _) keys _ rfl fun result ih key _ => ?_
  rw [← ih]
  unfold enableKey
  cases hfind : result.callbacks.find? key with
  | none => rfl
  | some entries =>
    dsimp only
    split
    · rfl
    · split
      · rfl
      · dsimp only
        rw [OrderedMap.find?_assign]
        split
        · next hk =>
          rw [OrderedMap.find?_congr hk, hfind]
          simp [enableEntries]
        · rfl

theorem length_disableLoop (acc : Disabling ω) :
    ((keys.foldl (disableKey subscriber) acc).callbacks.find? k).map List.length =
      (acc.callbacks.find? k).map List.length := by
  refine List.foldlRecOn (motive := fun result : Disabling ω =>
    (result.callbacks.find? k).map List.length = _) keys _ rfl fun result ih key _ => ?_
  rw [← ih]
  have hassign (entries : List (SubscriberEntry ω)) (hfind : result.callbacks.find? key = some entries) :
      ((result.callbacks.assign key (disableEntries subscriber entries)).find? k).map List.length =
        (result.callbacks.find? k).map List.length := by
    rw [OrderedMap.find?_assign]
    split
    · next hk =>
      rw [OrderedMap.find?_congr hk, hfind]
      simp [disableEntries]
    · rfl
  unfold disableKey
  cases hfind : result.callbacks.find? key with
  | none => rfl
  | some entries =>
    dsimp only
    split
    · rfl
    · split
      · rfl
      · split <;> exact hassign entries hfind

/-- A change is cached for the registered keys it is about. -/
theorem find?_emitLoop (changeNode : RdbChangeNode δ) (callbacks : Callbacks ω)
    (lastMap : NodeMap δ) :
    ((matchingKeys (clearUriOf changeNode.uri) callbacks).foldl
      (fun lastMap key => lastMap.assign key changeNode) lastMap).find? k =
        if k.clearUri = clearUriOf changeNode.uri ∧ (callbacks.find? k).isSome then some changeNode
        else lastMap.find? k := by
  have hturn : TurnAt k (fun lastMap key => lastMap.assign key changeNode)
      (fun lastMap : NodeMap δ => lastMap.find? k) fun _ => some changeNode := fun acc key =>
    OrderedMap.find?_assign key k changeNode acc
  have hmentions : Mentions k (matchingKeys (clearUriOf changeNode.uri) callbacks) ↔
      k.clearUri = clearUriOf changeNode.uri ∧ (callbacks.find? k).isSome := by
    rw [OrderedMap.isSome_find?_iff]
    unfold Mentions matchingKeys
    constructor
    · rintro ⟨key, hkey, heq⟩
      obtain ⟨hmem, huri⟩ := List.mem_filter.mp hkey
      exact ⟨(compare_eq_iff.mp heq).1.trans (by simpa using huri), key, hmem, heq⟩
    · rintro ⟨huri, key, hmem, heq⟩
      refine ⟨key, List.mem_filter.mpr ⟨hmem, ?_⟩, heq⟩
      simpa using (compare_eq_iff.mp heq).1.symm.trans huri
  rw [hturn.foldl_of_idempotent (fun _ => rfl)]
  simp only [hmentions]

end Loops

section Changes

variable {k : RdbObserverMapKey} {self : RdbSubscriberManager ω δ}

theorem kind_of_mem_requestsAt {kind : RequestKind} {keys : List RdbObserverMapKey}
    {answer : ℕ → Answer} : ∀ r ∈ requestsAt k (sendRequests kind keys answer), r.kind = kind :=
  fun _ hr => CallbacksManager.kind_of_mem_sendRequests (List.mem_of_mem_filter hr)

theorem isSome_of_length_eq {o o' : Option (List (SubscriberEntry ω))}
    (h : o.map List.length = o'.map List.length) : o.isSome = o'.isSome := by
  have := congrArg Option.isSome h
  rwa [Option.isSome_map, Option.isSome_map] at this

/-- A call changes each key in one of the ways of `KeyChange`. -/
theorem keyChange_outcome (k : RdbObserverMapKey) (self : RdbSubscriberManager ω δ)
    (x : Exchange ω δ) :
    KeyChange k x.call (self.callbacks.find? k) (self.lastChangeNodeMap.find? k)
      (requestsAt k (x.outcome self).requests) ((x.outcome self).manager.callbacks.find? k)
      ((x.outcome self).manager.lastChangeNodeMap.find? k) := by
  obtain ⟨c, answer⟩ := x
  unfold Exchange.outcome
  cases c with
  | addObservers subscriber uris templateId callback =>
    unfold addObservers
    dsimp only
    by_cases hkeys : Mentions k (keysOf uris templateId)
    · exact .registered (isSome_addLoop _ hkeys) kind_of_mem_requestsAt
    · have hfirst : ¬ Mentions k ((keysOf uris templateId).foldl (addKey subscriber callback)
          ⟨self.callbacks, [], [], []⟩).firstAddKeys := fun h =>
        (mentions_firstAddKeys _ h).elim (not_mentions_nil k) hkeys
      have hloop := (addKey_turnAt subscriber callback).foldl (k := k) (keysOf uris templateId)
        ⟨self.callbacks, [], [], []⟩
      have hcount : mentionCount k (keysOf uris templateId) = 0 :=
        Nat.eq_zero_of_not_pos fun h => hkeys (mentionCount_pos.mp h)
      rw [CallbacksManager.requestsAt_sendRequests_eq_nil hfirst, hloop, hcount]
      exact .kept rfl (by simp)
  | delObservers subscriber uris templateId =>
    unfold delObservers
    dsimp only
    rw [find?_delLoop, find?_eraseLoop]
    by_cases herase : Mentions k ((keysOf uris templateId).foldl (delKey subscriber)
        ⟨self.callbacks, []⟩).keysToErase
    · obtain ⟨hkeys, -, hnone⟩ := (mentions_keysToErase _).mp herase
      rw [if_pos herase, if_pos hkeys, hnone]
      exact .removed (CallbacksManager.allOf_requestsAt_sendRequests herase)
    · rw [if_neg herase, CallbacksManager.requestsAt_sendRequests_eq_nil herase]
      refine .kept ?_ (by simp)
      split
      · next hkeys =>
        rw [mentions_keysToErase] at herase
        cases hfind : self.callbacks.find? k with
        | none => rfl
        | some entries =>
          rw [hfind] at herase
          refine Option.isSome_iff_ne_none.mpr fun hnone => herase ⟨hkeys, rfl, hnone⟩
      · rfl
  | delAllObservers subscriber =>
    unfold delAllObservers
    dsimp only
    have hfind : (((self.callbacks.mapValues fun _ entries => retainOthers subscriber entries)
        |>.filterValues fun entries => !entries.isEmpty).find? k) =
          retainKey subscriber (self.callbacks.find? k) := by
      rw [OrderedMap.find?_filterValues, OrderedMap.find?_mapValues _ fun _ => rfl]
      rfl
    rw [hfind]
    by_cases hnone : retainKey subscriber (self.callbacks.find? k) = none
    · rw [hnone]
      refine .dropped subscriber rfl fun es hes => ?_
      rw [hes, retainKey_some] at hnone
      by_contra hne
      rw [if_neg hne] at hnone
      exact absurd hnone (by simp)
    · refine .kept ?_ (by simp [requestsAt])
      cases hfind : self.callbacks.find? k with
      | none => rw [hfind] at hnone; exact absurd rfl hnone
      | some entries => rw [hfind] at hnone; exact Option.isSome_iff_ne_none.mpr hnone
  | enableObservers subscriber uris templateId =>
    unfold enableObservers
    refine .kept (isSome_of_length_eq (length_enableLoop _ _)) fun r hr => ?_
    rw [kind_of_mem_requestsAt r hr]
    exact RequestKind.noConfusion
  | disableObservers subscriber uris templateId =>
    unfold disableObservers
    refine .kept (isSome_of_length_eq (length_disableLoop _)) fun r hr => ?_
    rw [kind_of_mem_requestsAt r hr]
    exact RequestKind.noConfusion
  | recoverObservers =>
    unfold recoverObservers
    dsimp only
    by_cases hfind : (self.callbacks.find? k).isSome = true
    · exact .registered hfind kind_of_mem_requestsAt
    · rw [OrderedMap.isSome_find?_iff] at hfind
      rw [CallbacksManager.requestsAt_sendRequests_eq_nil hfind]
      exact .kept rfl (by simp)
  | emit changeNode =>
    unfold emit
    dsimp only
    have hmap := OrderedMap.find?_mapValues (fun (key : RdbObserverMapKey) entries =>
      if key.clearUri = clearUriOf changeNode.uri then notifyEntries entries else entries)
      (fun h => by rw [(compare_eq_iff.mp h).1]) k self.callbacks
    have hsome := congrArg Option.isSome hmap
    rw [Option.isSome_map] at hsome
    rw [find?_emitLoop]
    split
    · next h => exact .notified changeNode rfl h.1 (hsome.trans h.2)
    · exact .kept hsome (by simp [requestsAt])

theorem ne_nil_of_length_eq {o o' : Option (List (SubscriberEntry ω))}
    (h : o.map List.length = o'.map List.length) (ho' : ∀ es, o' = some es → es ≠ []) :
    ∀ es, o = some es → es ≠ [] := by
  rintro es rfl rfl
  obtain ⟨es', hes', hlen⟩ := Option.map_eq_some_iff.mp h.symm
  exact ho' es' hes' (List.length_eq_zero_iff.mp hlen)

theorem ne_nil_of_retainKey {subscriber : ℕ} {o : Option (List (SubscriberEntry ω))} :
    ∀ es, retainKey subscriber o = some es → es ≠ [] := by
  rintro es h rfl
  obtain ⟨-, hne⟩ := Option.filter_eq_some_iff.mp h
  exact absurd hne (by simp)

theorem noEmptyEntries_outcome (h : NoEmptyEntries self) (x : Exchange ω δ) :
    NoEmptyEntries (x.outcome self).manager := by
  intro k
  obtain ⟨c, answer⟩ := x
  unfold Exchange.outcome
  cases c with
  | addObservers subscriber uris templateId callback =>
    unfold addObservers
    refine List.foldlRecOn (motive := fun acc : Adding ω =>
      ∀ es, acc.callbacks.find? k = some es → es ≠ []) _ _ (h k) fun acc ih key _ => ?_
    have hturn := addKey_turnAt subscriber callback acc key (k := k)
    dsimp only at hturn
    rw [hturn]
    split
    · rintro es hes rfl
      simp at hes
    · exact ih
  | delObservers subscriber uris templateId =>
    unfold delObservers
    dsimp only
    rw [find?_delLoop]
    split
    · exact ne_nil_of_retainKey
    · exact h k
  | delAllObservers subscriber =>
    unfold delAllObservers
    dsimp only
    rw [OrderedMap.find?_filterValues, OrderedMap.find?_mapValues _ fun _ => rfl]
    exact ne_nil_of_retainKey
  | enableObservers subscriber uris templateId =>
    exact ne_nil_of_length_eq (length_enableLoop _ _) (h k)
  | disableObservers subscriber uris templateId =>
    exact ne_nil_of_length_eq (length_disableLoop _) (h k)
  | recoverObservers => exact h k
  | emit changeNode =>
    refine ne_nil_of_length_eq ?_ (h k)
    unfold emit
    dsimp only
    rw [OrderedMap.find?_mapValues _ fun h => by rw [(compare_eq_iff.mp h).1], Option.map_map]
    refine Option.map_congr fun es _ => ?_
    rw [Function.comp_apply]
    split
    · exact List.length_map _
    · rfl

/-- The requests of a call have the answers it came with. -/
theorem answer_of_mem_requests (x : Exchange ω δ) : ∀ r ∈ (x.outcome self).requests,
    ∃ i, r.answer = x.answer i := by
  have hsent {kind : RequestKind} {keys : List RdbObserverMapKey} {answer : ℕ → Answer} :
      ∀ r ∈ sendRequests kind keys answer, ∃ i, r.answer = answer i := fun r hr => by
    obtain ⟨i, hi, rfl⟩ := List.mem_mapIdx.mp hr
    exact ⟨i, rfl⟩
  obtain ⟨c, answer⟩ := x
  unfold Exchange.outcome
  cases c with
  | delAllObservers subscriber => exact fun r h => absurd h List.not_mem_nil
  | emit changeNode => exact fun r h => absurd h List.not_mem_nil
  | _ => exact hsent

/-- A replay hands out the node that is cached for its key when the call is made. -/
theorem node_of_mem_replays (x : Exchange ω δ) : ∀ replay ∈ (x.outcome self).replays,
    self.lastChangeNodeMap.find? replay.key = some replay.node := by
  obtain ⟨c, answer⟩ := x
  unfold Exchange.outcome
  cases c with
  | addObservers subscriber uris templateId callback =>
    unfold addObservers
    intro replay hreplay
    obtain ⟨key, -, hmap⟩ := List.mem_filterMap.mp hreplay
    obtain ⟨node, hnode, rfl⟩ := Option.map_eq_some_iff.mp hmap
    exact hnode
  | enableObservers subscriber uris templateId =>
    unfold enableObservers
    refine List.foldlRecOn (motive := fun acc : Enabling ω δ => ∀ replay ∈ acc.replayList,
      self.lastChangeNodeMap.find? replay.key = some replay.node) _ _ (by simp) ?_
    intro acc ih key _
    unfold enableKey
    cases hfind : acc.callbacks.find? key with
    | none => exact ih
    | some entries =>
      dsimp only
      split
      · exact ih
      · split
        · exact ih
        · intro replay hreplay
          rcases List.mem_append.mp hreplay with h | h
          · exact ih replay h
          · obtain ⟨entry, -, hmap⟩ := List.mem_filterMap.mp h
            obtain ⟨node, hnode, rfl⟩ := Option.map_eq_some_iff.mp hmap
            exact hnode
  | delObservers subscriber uris templateId => exact fun replay h => absurd h List.not_mem_nil
  | delAllObservers subscriber => exact fun replay h => absurd h List.not_mem_nil
  | disableObservers subscriber uris templateId => exact fun replay h => absurd h List.not_mem_nil
  | recoverObservers => exact fun replay h => absurd h List.not_mem_nil
  | emit changeNode => exact fun replay h => absurd h List.not_mem_nil

end Changes

/-! ## Runs -/

section Runs

/-- One call of a run : the manager after it, and the requests it sent. -/
def step (self : RdbSubscriberManager ω δ) (x : Exchange ω δ) :
    RdbSubscriberManager ω δ × List (Request RdbObserverMapKey) :=
  ((x.outcome self).manager, (x.outcome self).requests)

/-- The manager after `calls`. -/
def managerAfter (calls : List (Exchange ω δ)) : RdbSubscriberManager ω δ :=
  (runCalls step new calls).1

/-- The entries of `k` after `calls`. -/
def entriesAfter (k : RdbObserverMapKey) (calls : List (Exchange ω δ)) :
    List (SubscriberEntry ω) :=
  ((managerAfter calls).callbacks.find? k).getD []

/-- The requests for `k` that `x` sends after `calls`. -/
def sentBy (k : RdbObserverMapKey) (calls : List (Exchange ω δ)) (x : Exchange ω δ) :
    List (Request RdbObserverMapKey) :=
  requestsAt k (x.outcome (managerAfter calls)).requests

/-- The replays that `x` makes after `calls`. -/
def replaysBy (calls : List (Exchange ω δ)) (x : Exchange ω δ) : List (Replay ω δ) :=
  (x.outcome (managerAfter calls)).replays

/-- What the service holds for `k`. -/
def heldAfter (k : RdbObserverMapKey) (calls : List (Exchange ω δ)) : Subscription :=
  serviceAt k (runCalls step new calls).2

/-- The call is a change `node` of `k`. -/
def Notifies (k : RdbObserverMapKey) (node : RdbChangeNode δ) (x : Exchange ω δ) : Prop :=
  x.call = .emit node ∧ k.clearUri = clearUriOf node.uri

/-- `k` was notified of `node`, and has had an observer ever since. -/
def CurrentFor (k : RdbObserverMapKey) (node : RdbChangeNode δ) :
    List (Exchange ω δ) → Prop :=
  Since (fun _ x => Notifies k node x) fun history => entriesAfter k history ≠ []

/-- The call may be made when the entries of `k` are `entries` : if it is a
`del_all_observers`, it leaves `k` an observer if it has one, and an unsubscription of `k`
takes effect. -/
structure CleanCall (k : RdbObserverMapKey) (before : List (Exchange ω δ)) (x : Exchange ω δ) :
    Prop where
  keepsAnother : ∀ subscriber, x.call = .delAllObservers subscriber →
    entriesAfter k before ≠ [] → retainOthers subscriber (entriesAfter k before) ≠ []
  unsubscribes : ∀ r ∈ sentBy k before x, r.kind = .unsubscribe → r.answer.takesEffect = true

def CleanRun (k : RdbObserverMapKey) (calls : List (Exchange ω δ)) : Prop :=
  ∀ before x rest, calls = before ++ x :: rest → CleanCall k before x

/-- A key without observers is not subscribed, and a cached node is replayed only to
observers of a key that was notified of it and has had an observer ever since. -/
structure CleanedUp (k : RdbObserverMapKey) (calls : List (Exchange ω δ)) : Prop where
  unsubscribed : entriesAfter k calls = [] → (heldAfter k calls).subscribed = false
  current : ∀ before x rest, calls = before ++ x :: rest → ∀ replay ∈ replaysBy before x,
    compare k replay.key = .eq → CurrentFor k replay.node before

variable {k : RdbObserverMapKey} {calls : List (Exchange ω δ)} {x : Exchange ω δ}

theorem managerAfter_concat : managerAfter (calls ++ [x]) = (x.outcome (managerAfter calls)).manager := by
  unfold managerAfter
  rw [runCalls_concat]
  rfl

theorem heldAfter_concat : heldAfter k (calls ++ [x]) =
    (sentBy k calls x).foldl Subscription.apply (heldAfter k calls) := by
  unfold heldAfter sentBy managerAfter
  rw [runCalls_concat, advance, serviceAt_append]
  rfl

theorem noEmptyEntries_managerAfter : NoEmptyEntries (managerAfter calls) := by
  induction calls using List.reverseRecOn with
  | nil => exact fun k entries h => absurd h (by simp [managerAfter, new])
  | append_singleton calls x ih =>
    rw [managerAfter_concat]
    exact noEmptyEntries_outcome ih x

theorem entriesAfter_ne_nil :
    entriesAfter k calls ≠ [] ↔ ((managerAfter calls).callbacks.find? k).isSome = true := by
  unfold entriesAfter
  cases hfind : (managerAfter calls).callbacks.find? k with
  | none => simp
  | some entries => simpa using noEmptyEntries_managerAfter k entries hfind

theorem keyChange_concat (k : RdbObserverMapKey) (calls : List (Exchange ω δ))
    (x : Exchange ω δ) : KeyChange k x.call ((managerAfter calls).callbacks.find? k)
      ((managerAfter calls).lastChangeNodeMap.find? k) (sentBy k calls x)
      ((managerAfter (calls ++ [x])).callbacks.find? k)
      ((managerAfter (calls ++ [x])).lastChangeNodeMap.find? k) := by
  rw [managerAfter_concat]
  exact keyChange_outcome k (managerAfter calls) x

theorem currentFor_concat {node : RdbChangeNode δ} : CurrentFor k node (calls ++ [x]) ↔
    entriesAfter k (calls ++ [x]) ≠ [] ∧ (Notifies k node x ∨ CurrentFor k node calls) := by
  unfold CurrentFor
  exact since_concat

theorem CleanRun.of_concat (h : CleanRun k (calls ++ [x])) :
    CleanRun k calls ∧ CleanCall k calls x := by
  refine ⟨fun before y rest heq => h before y (rest ++ [x]) ?_, h calls x [] rfl⟩
  rw [heq, List.append_assoc, List.cons_append]

/-- The service is not subscribed to a key without observers, and has been told of the change
cached for a key since the key last had none. -/
structure Clean (k : RdbObserverMapKey) (calls : List (Exchange ω δ)) : Prop where
  unsubscribed : entriesAfter k calls = [] → (heldAfter k calls).subscribed = false
  cached : ∀ node, (managerAfter calls).lastChangeNodeMap.find? k = some node →
    CurrentFor k node calls

/-- A clean call keeps the key clean. -/
theorem Clean.concat (hclean : Clean k calls) (hcall : CleanCall k calls x) :
    Clean k (calls ++ [x]) := by
  have hnow (node : RdbChangeNode δ)
      (hnode : (managerAfter calls).lastChangeNodeMap.find? k = some node) :
      ((managerAfter calls).callbacks.find? k).isSome = true :=
    entriesAfter_ne_nil.mp (hclean.cached node hnode).now
  have hheld : heldAfter k (calls ++ [x]) = _ := heldAfter_concat
  have hchange := keyChange_concat k calls x
  have hafter : entriesAfter k (calls ++ [x]) ≠ [] ↔ _ := entriesAfter_ne_nil
  have hcurrent (node : RdbChangeNode δ) : CurrentFor k node (calls ++ [x]) ↔
      entriesAfter k (calls ++ [x]) ≠ [] ∧ (Notifies k node x ∨ CurrentFor k node calls) :=
    currentFor_concat
  generalize (managerAfter (calls ++ [x])).callbacks.find? k = after at hchange hafter
  generalize hnode' : (managerAfter (calls ++ [x])).lastChangeNodeMap.find? k = node' at hchange
  generalize hsent : sentBy k calls x = sent at hchange hheld
  cases hchange with
  | registered present kinds =>
    refine ⟨fun hnil => absurd hnil (hafter.mpr present), fun node hnode => ?_⟩
    exact (hcurrent node).mpr ⟨hafter.mpr present, .inr (hclean.cached node (hnode'.symm.trans hnode))⟩
  | kept present kinds =>
    refine ⟨fun hnil => ?_, fun node hnode => ?_⟩
    · have hbefore : entriesAfter k calls = [] := by
        by_contra hne
        exact hafter.mpr (present.trans (entriesAfter_ne_nil.mp hne)) hnil
      rw [hheld]
      refine foldl_apply_induction (P := fun sub => sub.subscribed = false)
        (fun r hr sub hsub => ?_) (hclean.unsubscribed hbefore)
      have hkind := kinds r hr
      cases hr' : r.kind <;> simp_all [RequestKind.effect]
    · have hbefore := hclean.cached node (hnode'.symm.trans hnode)
      exact (hcurrent node).mpr
        ⟨hafter.mpr (present.trans (entriesAfter_ne_nil.mp hbefore.now)), .inr hbefore⟩
  | removed kinds =>
    refine ⟨fun _ => ?_, fun node hnode => absurd (hnode'.symm.trans hnode) (by simp)⟩
    have heffect := hcall.unsubscribes
    rw [hsent] at heffect
    rw [hheld, foldl_apply_of_takesEffect kinds fun r hr => heffect r hr (kinds.2 r hr)]
    rfl
  | dropped subscriber call last =>
    have hbefore : entriesAfter k calls = [] := by
      by_contra hne
      obtain ⟨es, hes⟩ := Option.isSome_iff_exists.mp (entriesAfter_ne_nil.mp hne)
      refine hcall.keepsAnother subscriber call hne ?_
      rw [entriesAfter, hes, Option.getD_some]
      exact last es hes
    refine ⟨fun _ => ?_, fun node hnode => ?_⟩
    · rw [hheld]
      exact hclean.unsubscribed hbefore
    · exact absurd hbefore (hclean.cached node (hnode'.symm.trans hnode)).now
  | notified changeNode call matching present =>
    refine ⟨fun hnil => absurd hnil (hafter.mpr present), fun node hnode => ?_⟩
    obtain rfl := Option.some_inj.mp (hnode'.symm.trans hnode)
    exact (hcurrent changeNode).mpr ⟨hafter.mpr present, .inl ⟨call, matching⟩⟩

theorem clean_of_cleanRun (h : CleanRun k calls) : Clean k calls := by
  induction calls using List.reverseRecOn with
  | nil => exact ⟨fun _ => rfl, fun node hnode => absurd hnode (by simp [managerAfter, new])⟩
  | append_singleton calls x ih => exact (ih h.of_concat.1).concat h.of_concat.2

/-- Over a clean run, a key that lost its observers is cleaned up. -/
theorem cleanedUp (h : CleanRun k calls) : CleanedUp k calls where
  unsubscribed := (clean_of_cleanRun h).unsubscribed
  current := by
    rintro before x rest rfl replay hreplay hk
    have hbefore : CleanRun k before := fun early y late heq =>
      h early y (late ++ x :: rest) (by simp [heq])
    refine (clean_of_cleanRun hbefore).cached replay.node ?_
    rw [OrderedMap.find?_congr hk]
    exact node_of_mem_replays x replay hreplay

end Runs

/-! ## After `del_all_observers` -/

/-- A call whose requests are all accepted. -/
def accepting (call : Call ℕ ℕ) : Exchange ℕ ℕ :=
  ⟨call, fun _ => .replied errOk⟩

def someTemplate : TemplateId :=
  ⟨1, "bundle"⟩

def someKey : RdbObserverMapKey :=
  .new "uri" someTemplate

/-- An observer is registered, notified and removed by its uri ; then two more join. -/
def delThenAdd : List (Exchange ℕ ℕ) :=
  [accepting (.addObservers 1 ["uri"] someTemplate 10), accepting (.emit ⟨"uri", 7⟩),
    accepting (.delObservers 1 ["uri"] someTemplate),
    accepting (.addObservers 2 ["uri"] someTemplate 20),
    accepting (.addObservers 3 ["uri"] someTemplate 30)]

/-- The same with `del_all_observers`. -/
def delAllThenAdd : List (Exchange ℕ ℕ) :=
  [accepting (.addObservers 1 ["uri"] someTemplate 10), accepting (.emit ⟨"uri", 7⟩),
    accepting (.delAllObservers 1),
    accepting (.addObservers 2 ["uri"] someTemplate 20)]

theorem cleanedUp_delThenAdd : CleanedUp someKey delThenAdd := by
  refine cleanedUp fun before x rest heq => ?_
  have hx : x ∈ delThenAdd := by simp [heq]
  simp only [delThenAdd, List.mem_cons, List.not_mem_nil, or_false] at hx
  refine ⟨fun subscriber hcall => ?_, fun r hr _ => ?_⟩
  · rcases hx with rfl | rfl | rfl | rfl | rfl <;> cases hcall
  · obtain ⟨i, hi⟩ := answer_of_mem_requests x r (List.mem_of_mem_filter hr)
    rw [hi]
    rcases hx with rfl | rfl | rfl | rfl | rfl <;> rfl

/-- The key stays subscribed without an observer, and the second observer after that is
handed the change from before. -/
theorem stale_after_delAll :
    ¬ (entriesAfter someKey (delAllThenAdd.take 3) = [] →
        (heldAfter someKey (delAllThenAdd.take 3)).subscribed = false) ∧
      ¬ ∀ replay ∈ replaysBy delAllThenAdd (accepting (.addObservers 3 ["uri"] someTemplate 30)),
        compare someKey replay.key = .eq → CurrentFor someKey replay.node delAllThenAdd := by
  have hempty : (entriesAfter someKey (delAllThenAdd.take 3)).length = 0 := by decide +kernel
  have hheld : (heldAfter someKey (delAllThenAdd.take 3)).subscribed = true := by decide +kernel
  have hreplay : replaysBy delAllThenAdd (accepting (.addObservers 3 ["uri"] someTemplate 30)) =
      [⟨someKey, 30, ⟨"uri", 7⟩⟩] := by decide +kernel
  have hnil := List.length_eq_zero_iff.mp hempty
  refine ⟨fun h => absurd (h hnil) (by simp [hheld]), fun h => ?_⟩
  rw [hreplay] at h
  have hsince := h _ List.mem_cons_self Std.ReflCmp.compare_self
  have hlast : delAllThenAdd = delAllThenAdd.take 3 ++
      [accepting (.addObservers 2 ["uri"] someTemplate 20)] := rfl
  rw [hlast, currentFor_concat] at hsince
  rcases hsince.2 with ⟨hcall, -⟩ | hsince
  · cases hcall
  · exact hsince.now hnil

end RdbSubscriberManager

end Rust

end DataShare
