import DataShare.KeyViews
import DataShare.RdbSubscriberCleanup

/-!
# The RDB manager at one key

What the calls of the Rust `RdbSubscriberManager` do to a key are moves (`keyMove_keyEvent`). It
subscribes a key without an enabled observer, and no request that fails is undone, so every failed
registration is stuck.
-/

namespace DataShare.Rust

namespace RdbSubscriberManager

variable {ω δ : Type} {k : RdbObserverMapKey} {subscriber : ℕ} {callback : ω}

def addView (k : RdbObserverMapKey) (acc : Adding ω) : KeyView ω :=
  ⟨(acc.callbacks.find? k).getD [], mentionCount k acc.firstAddKeys, codesAt k acc.result⟩

theorem addKey_view_turnAt (subscriber : ℕ) (callback : ω) :
    TurnAt k (addKey subscriber callback) (addView k)
    (addOnce anyEnabled ⟨subscriber, callback, true, false⟩) := by
  intro acc key
  have hupsert := OrderedMap.find?_upsert key k
    (fun old => old.getD [] ++ [(⟨subscriber, callback, true, false⟩ : SubscriberEntry ω)])
    acc.callbacks
  have hinUse : (acc.callbacks.find? key).elim false anyEnabled =
      anyEnabled ((acc.callbacks.find? key).getD []) := by
    cases acc.callbacks.find? key <;> rfl
  unfold addKey addView addOnce
  dsimp only
  rw [hinUse]
  by_cases hk : compare k key = .eq
  · have hfind : acc.callbacks.find? k = acc.callbacks.find? key := OrderedMap.find?_congr hk _
    rw [if_pos hk] at hupsert ⊢
    rw [hfind]
    split <;> simp [codesAt_append, codesAt_singleton, mentionCount_concat, errOk, *]
  · rw [if_neg hk] at hupsert ⊢
    split <;> simp [hupsert, hk, codesAt_append, codesAt_singleton, mentionCount_concat]

def enableView (k : RdbObserverMapKey) (acc : Enabling ω δ) : KeyView ω :=
  ⟨(acc.callbacks.find? k).getD [], mentionCount k acc.sendServiceKeys, codesAt k acc.result⟩

theorem enableKey_view_turnAt (subscriber : ℕ) (lastMap : NodeMap δ) :
    TurnAt k (enableKey subscriber lastMap) (enableView (ω := ω) k)
      (enableOnce (fun entries => entries.any fun e => e.subscriber = subscriber)
        (fun entries => entries.any fun e => e.subscriber = subscriber ∧ e.enabled)
        (enableEntries subscriber) subscriberNotExist) := by
  intro acc key
  have hfind : compare k key = .eq → acc.callbacks.find? k = acc.callbacks.find? key := fun hk =>
    OrderedMap.find?_congr hk _
  unfold enableKey enableView enableOnce
  dsimp only
  cases hkey : acc.callbacks.find? key with
  | none =>
    by_cases hk : compare k key = .eq
    · rw [if_pos hk, hfind hk, hkey]
      simp [codesAt_append, codesAt_singleton, hk]
    · simp [codesAt_append, codesAt_singleton, hk]
  | some entries =>
    dsimp only
    by_cases hk : compare k key = .eq
    · rw [if_pos hk, hfind hk, hkey, Option.getD_some]
      split
      · simp [codesAt_append, codesAt_singleton, hk, hfind hk, hkey]
      · split
        · simp [codesAt_append, codesAt_singleton, hk, hfind hk, hkey, errOk]
        · split <;> simp [hk, OrderedMap.find?_assign, mentionCount_concat]
    · rw [if_neg hk]
      split
      · simp [codesAt_append, codesAt_singleton, hk]
      · split
        · simp [codesAt_append, codesAt_singleton, hk]
        · split <;> simp [hk, OrderedMap.find?_assign, mentionCount_concat]

def disableView (k : RdbObserverMapKey) (acc : Disabling ω) : List (SubscriberEntry ω) × ℕ :=
  ((acc.callbacks.find? k).getD [], mentionCount k acc.lastDisabledKeys)

theorem disableKey_view_turnAt (subscriber : ℕ) :
    TurnAt k (disableKey subscriber) (disableView (ω := ω) k) (disableOnce subscriber) := by
  intro acc key
  have hfind : compare k key = .eq → acc.callbacks.find? k = acc.callbacks.find? key := fun hk =>
    OrderedMap.find?_congr hk _
  unfold disableKey disableView disableOnce
  dsimp only
  cases hkey : acc.callbacks.find? key with
  | none =>
    by_cases hk : compare k key = .eq
    · rw [if_pos hk, hfind hk, hkey]
      rfl
    · rw [if_neg hk]
  | some entries =>
    dsimp only
    by_cases hk : compare k key = .eq
    · rw [if_pos hk, hfind hk, hkey, Option.getD_some]
      split
      · rw [hfind hk, hkey, Option.getD_some]
      · split
        · rw [hfind hk, hkey, Option.getD_some]
        · split <;> simp [hk, OrderedMap.find?_assign, mentionCount_concat]
    · rw [if_neg hk]
      split
      · rfl
      · split
        · rfl
        · split <;> simp [hk, OrderedMap.find?_assign, mentionCount_concat]

/-! ### Events -/

/-- The subscriber of a call that adds or enables observers. -/
def Call.registrant : Call ω δ → ℕ
  | .addObservers subscriber .. | .enableObservers subscriber .. => subscriber
  | _ => 0

/-- How often the call names `k`, if it adds or enables observers. -/
def Call.named (k : RdbObserverMapKey) : Call ω δ → ℕ
  | .addObservers _ uris templateId _ | .enableObservers _ uris templateId =>
    mentionCount k (keysOf uris templateId)
  | _ => 0

def Call.adds (k : RdbObserverMapKey) : Call ω δ → Bool
  | .addObservers _ uris templateId _ => 0 < mentionCount k (keysOf uris templateId)
  | _ => false

def entriesOfKey (k : RdbObserverMapKey) (self : RdbSubscriberManager ω δ) :
    List (SubscriberEntry ω) :=
  (self.callbacks.find? k).getD []

/-- What a call does to `k`. -/
def keyEvent (k : RdbObserverMapKey) (self : RdbSubscriberManager ω δ) (x : Exchange ω δ) :
    KeyEvent RdbObserverMapKey ω where
  subscriber := x.call.registrant
  named := x.call.named k
  adds := x.call.adds k
  sent := requestsAt k (x.outcome self).requests
  codes := codesAt k (x.outcome self).result
  entries := entriesOfKey k (x.outcome self).manager

/-- No failed request takes back what was registered. -/
def stuck (answer : Answer) : Bool :=
  !answer.takesEffect

section Moves

variable {self : RdbSubscriberManager ω δ} {uris : List String} {templateId : TemplateId}
  {answer : ℕ → Answer}

theorem takesBack_stuck {before : List (SubscriberEntry ω)} {e : KeyEvent RdbObserverMapKey ω} :
    TakesBack stuck before e := by
  intro _ r _ heffect hstuck
  rw [stuck, heffect] at hstuck
  exact absurd hstuck (by simp)

theorem keyMove_addObservers : KeyMove stuck (entriesOfKey k self)
    (keyEvent k self ⟨.addObservers subscriber uris templateId callback, answer⟩) := by
  have hview := (addKey_view_turnAt subscriber callback).foldl (k := k) (keysOf uris templateId)
    ⟨self.callbacks, [], [], []⟩
  have hsends : Sends k .subscribe ((keysOf uris templateId).foldl (addKey subscriber callback)
        ⟨self.callbacks, [], [], []⟩).firstAddKeys answer
      ((addOnce anyEnabled ⟨subscriber, callback, true, false⟩)^[mentionCount k
        (keysOf uris templateId)] ⟨entriesOfKey k self, 0, []⟩)
      (keyEvent k self ⟨.addObservers subscriber uris templateId callback, answer⟩) :=
    { asked := congrArg KeyView.asked hview
      sent := rfl
      codes := (codesAt_append _ _).trans (congrArg (KeyView.codes · ++ _) hview)
      kept := fun _ => congrArg KeyView.entries hview }
  exact keyMove_of_adding (fun entries => by simp [anyEnabled]) (fun _ => id) id hsends rfl rfl
    takesBack_stuck

theorem enableEntries_enables {entries : List (SubscriberEntry ω)}
    (hfound : (entries.any fun e => e.subscriber = subscriber) = true) :
    ((enableEntries subscriber entries).any fun e => e.subscriber = subscriber ∧ e.enabled) = true := by
  obtain ⟨e, he, hs⟩ := List.any_eq_true.mp hfound
  have hs : e.subscriber = subscriber := of_decide_eq_true hs
  rw [enableEntries, List.any_map]
  refine List.any_eq_true.mpr ⟨e, he, decide_eq_true ?_⟩
  cases henabled : e.enabled with
  | true => simp [hs, henabled]
  | false => simp [hs, henabled]

theorem keyMove_enableObservers : KeyMove stuck (entriesOfKey k self)
    (keyEvent k self ⟨.enableObservers subscriber uris templateId, answer⟩) := by
  have hview := (enableKey_view_turnAt (ω := ω) subscriber self.lastChangeNodeMap).foldl (k := k)
    (keysOf uris templateId) ⟨self.callbacks, [], [], []⟩
  have hsends : Sends k .enable ((keysOf uris templateId).foldl
        (enableKey subscriber self.lastChangeNodeMap) ⟨self.callbacks, [], [], []⟩).sendServiceKeys
        answer
      ((enableOnce (fun entries => entries.any fun e => e.subscriber = subscriber)
        (fun entries => entries.any fun e => e.subscriber = subscriber ∧ e.enabled)
        (enableEntries subscriber) subscriberNotExist)^[mentionCount k (keysOf uris templateId)]
          ⟨entriesOfKey k self, 0, []⟩)
      (keyEvent k self ⟨.enableObservers subscriber uris templateId, answer⟩) :=
    { asked := congrArg KeyView.asked hview
      sent := rfl
      codes := (codesAt_append _ _).trans (congrArg (KeyView.codes · ++ _) hview)
      kept := fun _ => congrArg KeyView.entries hview }
  refine keyMove_of_enabling ?_ (fun hfound _ => enableEntries_enables hfound) hsends rfl rfl
    takesBack_stuck
  intro hfound hnil
  rw [hnil] at hfound
  exact Bool.false_ne_true hfound

theorem keyMove_disableObservers : KeyMove stuck (entriesOfKey k self)
    (keyEvent k self ⟨.disableObservers subscriber uris templateId, answer⟩) :=
  keyMove_of_disabling ((disableKey_view_turnAt subscriber).foldl (keysOf uris templateId)
    ⟨self.callbacks, [], []⟩) rfl rfl rfl

theorem getD_retainKey (entries : Option (List (SubscriberEntry ω))) :
    (retainKey subscriber entries).getD [] = retainOthers subscriber (entries.getD []) := by
  cases entries with
  | none => rfl
  | some entries =>
    rw [retainKey_some]
    split
    · next hnil => exact hnil.symm
    · rfl

theorem keyMove_delObservers : KeyMove stuck (entriesOfKey k self)
    (keyEvent k self ⟨.delObservers subscriber uris templateId, answer⟩) := by
  have hfind : ((keysOf uris templateId).foldl (delKey subscriber)
      ⟨self.callbacks, []⟩).callbacks.find? k = if Mentions k (keysOf uris templateId) then
        retainKey subscriber (self.callbacks.find? k) else self.callbacks.find? k :=
    find?_delLoop self.callbacks
  by_cases herase : Mentions k ((keysOf uris templateId).foldl (delKey subscriber)
      ⟨self.callbacks, []⟩).keysToErase
  · obtain ⟨hkeys, -, hnone⟩ := (mentions_keysToErase _).mp herase
    rw [if_pos hkeys, hnone] at hfind
    refine keyMove_of_sublist (List.nil_sublist _) (congrArg (Option.getD · []) hfind) rfl rfl ?_
    exact fun r hr => ⟨kind_of_mem_requestsAt r hr, rfl⟩
  · have hsent : (keyEvent k self ⟨.delObservers subscriber uris templateId, answer⟩).sent = [] :=
      CallbacksManager.requestsAt_sendRequests_eq_nil herase
    have hsub : ((if Mentions k (keysOf uris templateId) then
        retainKey subscriber (self.callbacks.find? k) else self.callbacks.find? k).getD []).Sublist
          (entriesOfKey k self) := by
      split
      · rw [getD_retainKey]
        exact List.filter_sublist
      · exact List.Sublist.refl _
    exact keyMove_of_sublist hsub (congrArg (Option.getD · []) hfind) rfl rfl (by simp [hsent])

theorem entriesOfKey_delAllObservers : entriesOfKey k (delAllObservers subscriber self).manager =
    retainOthers subscriber (entriesOfKey k self) := by
  have hfind : (((self.callbacks.mapValues fun _ entries => retainOthers subscriber entries)
      |>.filterValues fun entries => !entries.isEmpty).find? k) =
        retainKey subscriber (self.callbacks.find? k) := by
    rw [OrderedMap.find?_filterValues, OrderedMap.find?_mapValues _ fun _ => rfl]
    rfl
  exact (congrArg (Option.getD · []) hfind).trans (getD_retainKey _)

theorem keyMove_delAllObservers :
    KeyMove stuck (entriesOfKey k self) (keyEvent k self ⟨.delAllObservers subscriber, answer⟩) :=
  keyMove_of_sublist List.filter_sublist entriesOfKey_delAllObservers rfl rfl fun _ hr =>
    absurd hr List.not_mem_nil

theorem entriesOfKey_emit {changeNode : RdbChangeNode δ} :
    entriesOfKey k (emit changeNode self).manager =
      if k.clearUri = clearUriOf changeNode.uri then notifyEntries (entriesOfKey k self)
      else entriesOfKey k self := by
  have hfind := OrderedMap.find?_mapValues (fun (key : RdbObserverMapKey) entries =>
    if key.clearUri = clearUriOf changeNode.uri then notifyEntries entries else entries)
    (fun h => by rw [(compare_eq_iff.mp h).1]) k self.callbacks
  refine (congrArg (Option.getD · []) hfind).trans ?_
  unfold entriesOfKey
  cases self.callbacks.find? k with
  | none => simp [notifyEntries]
  | some entries => rfl

theorem keyMove_emit {changeNode : RdbChangeNode δ} :
    KeyMove stuck (entriesOfKey k self) (keyEvent k self ⟨.emit changeNode, answer⟩) := by
  have hentries : (keyEvent k self ⟨.emit changeNode, answer⟩).entries =
      if k.clearUri = clearUriOf changeNode.uri then notifyEntries (entriesOfKey k self)
      else entriesOfKey k self := entriesOfKey_emit
  refine .taken rfl rfl (fun r hr => absurd hr List.not_mem_nil) ?_ ?_
  · rw [hentries]
    rintro hne hnil
    rw [hnil] at hne
    exact hne (by simp [notifyEntries])
  · rw [hentries]
    split
    · rintro s ⟨entry, hentry, hs, henabled⟩
      obtain ⟨first, hfirst, rfl⟩ := List.mem_map.mp hentry
      exact ⟨first, hfirst, hs, henabled⟩
    · exact fun _ => id

/-- Every call but `recover_observers` makes a move. -/
theorem keyMove_keyEvent (x : Exchange ω δ) (hx : x.call ≠ .recoverObservers) :
    KeyMove stuck (entriesOfKey k self) (keyEvent k self x) := by
  obtain ⟨c, answer⟩ := x
  cases c with
  | addObservers subscriber uris templateId callback => exact keyMove_addObservers
  | delObservers subscriber uris templateId => exact keyMove_delObservers
  | delAllObservers subscriber => exact keyMove_delAllObservers
  | enableObservers subscriber uris templateId => exact keyMove_enableObservers
  | disableObservers subscriber uris templateId => exact keyMove_disableObservers
  | recoverObservers => exact absurd rfl hx
  | emit changeNode => exact keyMove_emit

end Moves

/-- What the calls do to `k`. -/
def keyEvents (k : RdbObserverMapKey) (calls : List (Exchange ω δ)) :
    List (KeyEvent RdbObserverMapKey ω) :=
  eventsOf (fun self x => (x.outcome self).manager) (keyEvent k) new calls

/-- The service is not restarted, and no call adds to a key whose registration failed while it still
has observers, or enables it. -/
structure BackedRun (k : RdbObserverMapKey) (calls : List (Exchange ω δ)) : Prop where
  notRecovering : ∀ x ∈ calls, x.call ≠ .recoverObservers
  backed : Throughout (Backed stuck) (keyEvents k calls)

theorem noDeadObserver_of_backedRun {calls : List (Exchange ω δ)} (h : BackedRun k calls) :
    NoDeadObserver (keyEvents k calls) := by
  refine noDeadObserver_of_backed (fun answer hstuck => by simpa [stuck] using hstuck) ?_ h.backed
  exact keyMoves_of_eventsOf (P := fun _ _ => True) rfl (fun _ _ => rfl)
    (fun self x hx _ => keyMove_keyEvent x (h.notRecovering x hx)) fun _ _ _ _ => trivial

end RdbSubscriberManager

end DataShare.Rust
