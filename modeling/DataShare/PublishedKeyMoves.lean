import DataShare.KeyViews
import DataShare.RdbSubscriberCleanup
import DataShare.RustPublishedData

/-!
# The manager of published data at one key

What the calls of the Rust `PublishedDataSubscriberManager` do to a key are moves (`keyMove_keyEvent`),
as long as no observer is added to a key whose observers are all disabled (`Awake`) : the manager asks
the service only for a key without observers. Refused registrations are undone, and those without a
reply are stuck.
-/

namespace DataShare.Rust

namespace PublishedDataSubscriberManager

variable {ω δ : Type} {k : PublishedObserverMapKey} {subscriber : ℕ} {callback : ω}

def addView (k : PublishedObserverMapKey) (acc : Adding ω) : KeyView ω :=
  ⟨(acc.callbacks.find? k).getD [], mentionCount k acc.firstAddKeys,
    codesAt k (acc.existingKeys.map fun key => ⟨key, 0⟩)⟩

theorem addKey_view_turnAt (subscriber : ℕ) (callback : ω) :
    TurnAt k (addKey subscriber callback) (addView k)
      (addOnce (fun entries => !entries.isEmpty) ⟨subscriber, callback, true, false⟩) := by
  intro acc key
  have hupsert := OrderedMap.find?_upsert key k
    (fun old => old.getD [] ++ [(⟨subscriber, callback, true, false⟩ : SubscriberEntry ω)])
    acc.callbacks
  unfold addKey addView addOnce
  dsimp only
  by_cases hk : compare k key = .eq
  · have hfind : acc.callbacks.find? k = acc.callbacks.find? key := OrderedMap.find?_congr hk _
    rw [if_pos hk] at hupsert ⊢
    rw [hfind]
    split <;> simp [codesAt_append, codesAt_singleton, mentionCount_concat, errOk, *]
  · rw [if_neg hk] at hupsert ⊢
    split <;> simp [hupsert, hk, codesAt_append, codesAt_singleton, mentionCount_concat]

def enableView (k : PublishedObserverMapKey) (acc : Enabling ω) : KeyView ω :=
  ⟨(acc.callbacks.find? k).getD [], mentionCount k acc.sendServiceKeys, codesAt k acc.result⟩

def hasEntry (subscriber : ℕ) (entries : List (SubscriberEntry ω)) : Bool :=
  (entries.find? fun e => e.subscriber = subscriber).isSome

/-- The subscriber has an entry, and its first one is enabled. -/
def firstEnabled (subscriber : ℕ) (entries : List (SubscriberEntry ω)) : Bool :=
  (entries.find? fun e => e.subscriber = subscriber).any SubscriberEntry.enabled

theorem enableKey_view_turnAt (subscriber : ℕ) :
    TurnAt k (enableKey subscriber) (enableView (ω := ω) k)
      (enableOnce (hasEntry subscriber) (firstEnabled subscriber) (enableFirstEntry subscriber)
        subscriberMissing) := by
  intro acc key
  have hfind : compare k key = .eq → acc.callbacks.find? k = acc.callbacks.find? key := fun hk =>
    OrderedMap.find?_congr hk _
  unfold enableKey enableView enableOnce hasEntry firstEnabled
  dsimp only
  cases hkey : acc.callbacks.find? key with
  | none =>
    by_cases hk : compare k key = .eq
    · rw [if_pos hk, hfind hk, hkey]
      simp [codesAt_append, codesAt_singleton, hk]
    · simp [codesAt_append, codesAt_singleton, hk]
  | some entries =>
    dsimp only
    rcases Option.eq_none_or_eq_some (entries.find? fun e => e.subscriber = subscriber) with
      htarget | ⟨target, htarget⟩
    · by_cases hk : compare k key = .eq
      · simp [htarget, codesAt_append, codesAt_singleton, hk, hfind hk, hkey]
      · simp [htarget, codesAt_append, codesAt_singleton, hk]
    · by_cases henabled : target.enabled = true
      · by_cases hk : compare k key = .eq
        · simp [htarget, henabled, codesAt_append, codesAt_singleton, hk, hfind hk, hkey, errOk]
        · simp [htarget, henabled, codesAt_append, codesAt_singleton, hk]
      · by_cases hk : compare k key = .eq
        · by_cases hany : anyEnabled entries = true <;>
            simp [htarget, henabled, hany, hk, hfind hk, hkey, OrderedMap.find?_assign,
              mentionCount_concat]
        · by_cases hany : anyEnabled entries = true <;>
            simp [htarget, henabled, hany, hk, OrderedMap.find?_assign, mentionCount_concat]

def disableView (k : PublishedObserverMapKey) (acc : Disabling ω) : List (SubscriberEntry ω) × ℕ :=
  ((acc.callbacks.find? k).getD [], mentionCount k acc.lastDisabledKeys)

theorem disableKey_view_turnAt (subscriber : ℕ) :
    TurnAt k (disableKey subscriber) (disableView (ω := ω) k) (disableOnce subscriber) := by
  intro acc key
  have hfind : compare k key = .eq → acc.callbacks.find? k = acc.callbacks.find? key := fun hk =>
    OrderedMap.find?_congr hk _
  unfold disableKey disableView disableOnce
  dsimp only
  cases hkey : acc.callbacks.find? key with
  | none =>
    by_cases hk : compare k key = .eq
    · rw [if_pos hk, hfind hk, hkey]
      rfl
    · rw [if_neg hk]
  | some entries =>
    dsimp only
    by_cases hk : compare k key = .eq
    · rw [if_pos hk, hfind hk, hkey, Option.getD_some]
      split
      · rw [hfind hk, hkey, Option.getD_some]
      · split
        · rw [hfind hk, hkey, Option.getD_some]
        · split <;> simp [hk, OrderedMap.find?_assign, mentionCount_concat]
    · rw [if_neg hk]
      split
      · rfl
      · split
        · rfl
        · split <;> simp [hk, OrderedMap.find?_assign, mentionCount_concat]

/-! ### Entries that are taken back -/

theorem retainAt_turnAt (subscriber : ℕ) : TurnAt k (retainAt (ω := ω) subscriber)
    (fun callbacks => (callbacks.find? k).getD []) (retainOthers subscriber) := by
  intro callbacks key
  have hfind : compare k key = .eq → callbacks.find? k = callbacks.find? key := fun hk =>
    OrderedMap.find?_congr hk _
  unfold retainAt
  cases hkey : callbacks.find? key with
  | none =>
    dsimp only
    split
    · next hk => rw [hfind hk, hkey]; rfl
    · rfl
  | some entries =>
    dsimp only
    split
    · next hempty =>
      rw [OrderedMap.find?_erase]
      split
      · next hk =>
        rw [hfind hk, hkey]
        exact (List.isEmpty_iff.mp hempty).symm
      · rfl
    · rw [OrderedMap.find?_assign]
      split
      · next hk => rw [hfind hk, hkey]; rfl
      · rfl

theorem disableRefusedAt_turnAt (subscriber : ℕ) : TurnAt k (disableRefusedAt (ω := ω) subscriber)
    (fun callbacks => (callbacks.find? k).getD []) (disableRefused subscriber) := by
  intro callbacks key
  have hfind : compare k key = .eq → callbacks.find? k = callbacks.find? key := fun hk =>
    OrderedMap.find?_congr hk _
  unfold disableRefusedAt
  cases hkey : callbacks.find? key with
  | none =>
    dsimp only
    split
    · next hk => rw [hfind hk, hkey]; rfl
    · rfl
  | some entries =>
    dsimp only
    rw [OrderedMap.find?_assign]
    split
    · next hk => rw [hfind hk, hkey]; rfl
    · rfl

theorem disableRefused_idem (entries : List (SubscriberEntry ω)) :
    disableRefused subscriber (disableRefused subscriber entries) =
      disableRefused subscriber entries := by
  unfold disableRefused
  rw [List.map_map]
  refine List.map_congr_left fun entry _ => ?_
  by_cases h : entry.subscriber = subscriber <;> simp [h]

/-! ### Events -/

/-- The subscriber of a call that adds or enables observers. -/
def Call.registrant : Call ω δ → ℕ
  | .addObservers subscriber .. | .enableObservers subscriber .. => subscriber
  | _ => 0

/-- How often the call names `k`, if it adds or enables observers. -/
def Call.named (k : PublishedObserverMapKey) : Call ω δ → ℕ
  | .addObservers _ uris subscriberId _ | .enableObservers _ uris subscriberId =>
    mentionCount k (publishedKeys uris subscriberId)
  | _ => 0

def Call.adds (k : PublishedObserverMapKey) : Call ω δ → Bool
  | .addObservers _ uris subscriberId _ => 0 < mentionCount k (publishedKeys uris subscriberId)
  | _ => false

def entriesOfKey (k : PublishedObserverMapKey) (self : PublishedDataSubscriberManager ω δ) :
    List (SubscriberEntry ω) :=
  (self.callbacks.find? k).getD []

/-- What a call does to `k`. -/
def keyEvent (k : PublishedObserverMapKey) (self : PublishedDataSubscriberManager ω δ)
    (x : Exchange ω δ) : KeyEvent PublishedObserverMapKey ω where
  subscriber := x.call.registrant
  named := x.call.named k
  adds := x.call.adds k
  sent := requestsAt k (x.outcome self).requests
  codes := codesAt k (x.outcome self).result
  entries := entriesOfKey k (x.outcome self).manager

/-- Refused requests are taken back, but not those without a reply. -/
def stuck : Answer → Bool
  | .replied _ => false
  | .lost applied => !applied

/-- An observer is not added to a key whose observers are all disabled. -/
def Awake (before : List (SubscriberEntry ω)) (e : KeyEvent PublishedObserverMapKey ω) : Prop :=
  e.adds = true → before ≠ [] → anyEnabled before = true

instance (before : List (SubscriberEntry ω)) (e : KeyEvent PublishedObserverMapKey ω) :
    Decidable (Awake before e) :=
  inferInstanceAs (Decidable (_ → _ → _))

section Moves

variable {self : PublishedDataSubscriberManager ω δ} {uris : List String} {subscriberId : Int}
  {answer : ℕ → Answer}

theorem refused_of_not_stuck {r : Request PublishedObserverMapKey}
    (heffect : r.answer.takesEffect = false) (hstuck : stuck r.answer = false) :
    Refused [r] := by
  refine ⟨r, List.mem_singleton_self r, ?_⟩
  cases hanswer : r.answer with
  | replied errCode =>
    rw [hanswer] at heffect
    simpa [Answer.refused, Answer.takesEffect] using heffect
  | lost applied =>
    rw [hanswer] at heffect hstuck
    rw [Answer.takesEffect] at heffect
    rw [stuck, heffect] at hstuck
    exact absurd hstuck.symm Bool.false_ne_true

/-- What is left of a key by a call whose loop leaves `looped`, and that undoes it for the refused
keys. -/
structure Undone (undoEntries : List (SubscriberEntry ω) → List (SubscriberEntry ω))
    (looped : List (SubscriberEntry ω)) (e : KeyEvent PublishedObserverMapKey ω) : Prop where
  refused : Refused e.sent → e.entries = undoEntries looped
  kept : ¬ Refused e.sent → e.entries = looped

theorem undone_of_turnAt {undo : Callbacks ω → PublishedObserverMapKey → Callbacks ω}
    {undoEntries : List (SubscriberEntry ω) → List (SubscriberEntry ω)}
    (hturn : TurnAt k undo (fun callbacks => (callbacks.find? k).getD []) undoEntries)
    (hidem : ∀ entries, undoEntries (undoEntries entries) = undoEntries entries)
    {e : KeyEvent PublishedObserverMapKey ω} {sent : List (Request PublishedObserverMapKey)}
    {callbacks : Callbacks ω} (hsent : e.sent = requestsAt k sent)
    (hentries : e.entries = (((failedKeys sent).foldl undo callbacks).find? k).getD []) :
    Undone undoEntries ((callbacks.find? k).getD []) e := by
  have hloop := hturn.foldl_of_idempotent hidem (failedKeys sent) callbacks
  constructor
  · intro hrefused
    rw [hsent] at hrefused
    exact hentries.trans (hloop.trans (if_pos (CallbacksManager.mentions_failedKeys.mpr hrefused)))
  · intro hnot
    rw [hsent] at hnot
    exact hentries.trans (hloop.trans (if_neg fun h => hnot (CallbacksManager.mentions_failedKeys.mp h)))

theorem Undone.kept_of_nothing {undoEntries : List (SubscriberEntry ω) → List (SubscriberEntry ω)}
    {looped : List (SubscriberEntry ω)} {e : KeyEvent PublishedObserverMapKey ω}
    (h : Undone undoEntries looped e) (hnil : e.sent = []) : e.entries = looped := by
  refine h.kept ?_
  rw [hnil]
  exact CallbacksManager.not_refused_nil

theorem Undone.entries {undoEntries : List (SubscriberEntry ω) → List (SubscriberEntry ω)}
    {looped : List (SubscriberEntry ω)} {e : KeyEvent PublishedObserverMapKey ω}
    (h : Undone undoEntries looped e) {r : Request PublishedObserverMapKey} (hr : e.sent = [r])
    (heffect : r.answer.takesEffect = false) (hstuck : stuck r.answer = false) :
    e.entries = undoEntries looped := by
  refine h.refused ?_
  rw [hr]
  exact refused_of_not_stuck heffect hstuck

theorem retainOthers_added (n : ℕ) :
    retainOthers subscriber (List.replicate n ⟨subscriber, callback, true, false⟩) = [] := by
  refine List.filter_eq_nil_iff.mpr fun e he => ?_
  rw [List.eq_of_mem_replicate he]
  simp

theorem keyMove_addObservers
    (hawake : Awake (entriesOfKey k self)
      (keyEvent k self ⟨.addObservers subscriber uris subscriberId callback, answer⟩)) :
    KeyMove stuck (entriesOfKey k self)
      (keyEvent k self ⟨.addObservers subscriber uris subscriberId callback, answer⟩) := by
  have hview := (addKey_view_turnAt subscriber callback).foldl (k := k)
    (publishedKeys uris subscriberId) ⟨self.callbacks, [], []⟩
  have hundone : Undone (retainOthers subscriber) (addView k ((publishedKeys uris subscriberId).foldl
      (addKey subscriber callback) ⟨self.callbacks, [], []⟩)).entries
      (keyEvent k self ⟨.addObservers subscriber uris subscriberId callback, answer⟩) :=
    undone_of_turnAt (retainAt_turnAt subscriber) RdbSubscriberManager.retainOthers_idem rfl rfl
  rw [hview] at hundone
  have hinUse (entries : List (SubscriberEntry ω)) :
      (!(entries ++ [(⟨subscriber, callback, true, false⟩ : SubscriberEntry ω)]).isEmpty) = true := by
    simp
  have hsends : Sends k .subscribe ((publishedKeys uris subscriberId).foldl
        (addKey subscriber callback) ⟨self.callbacks, [], []⟩).firstAddKeys answer
      ((addOnce (fun entries => !entries.isEmpty) ⟨subscriber, callback, true, false⟩)^[mentionCount k
        (publishedKeys uris subscriberId)] ⟨entriesOfKey k self, 0, []⟩)
      (keyEvent k self ⟨.addObservers subscriber uris subscriberId callback, answer⟩) :=
    { asked := congrArg KeyView.asked hview
      sent := rfl
      codes := (codesAt_append _ _).trans (congrArg (KeyView.codes · ++ _) hview)
      kept := hundone.kept_of_nothing }
  refine keyMove_of_adding hinUse (fun hn huse => ?_) (fun hnot => ?_) hsends rfl rfl ?_
  · exact hawake (decide_eq_true hn) (by simpa using huse)
  · obtain hnil : entriesOfKey k self = [] := by simpa using hnot
    rw [hnil]
    rfl
  · -- The first observer of the key is removed again.
    intro hn r hr heffect hstuck hdisabled
    have hnil : entriesOfKey k self = [] := by
      by_contra hne
      rw [hawake (decide_eq_true hn) hne] at hdisabled
      exact Bool.false_ne_true hdisabled.symm
    have hentries := hundone.entries hr heffect hstuck
    rw [show addView k _ = ⟨entriesOfKey k self, 0, []⟩ from rfl, iterate_addOnce hinUse, hnil,
      List.nil_append, retainOthers_added] at hentries
    rw [hentries]
    exact ⟨rfl, fun h => absurd rfl h⟩

theorem subscriber_of_mem_enableFirstEntry {entries : List (SubscriberEntry ω)}
    (hdisabled : anyEnabled entries = false) :
    ∀ e ∈ enableFirstEntry subscriber entries, e.enabled = true → e.subscriber = subscriber := by
  induction entries with
  | nil => exact fun e he => absurd he List.not_mem_nil
  | cons first entries ih =>
    have hall : ∀ e ∈ first :: entries, e.enabled = false := by simpa [anyEnabled] using hdisabled
    intro e he henabled
    rw [enableFirstEntry] at he
    split at he
    · next hfirst =>
      rcases List.mem_cons.mp he with rfl | hmem
      · exact hfirst
      · rw [hall e (List.mem_cons_of_mem _ hmem)] at henabled
        exact absurd henabled Bool.false_ne_true
    · rcases List.mem_cons.mp he with rfl | hmem
      · rw [hall e List.mem_cons_self] at henabled
        exact absurd henabled Bool.false_ne_true
      · refine ih ?_ e hmem henabled
        simpa [anyEnabled] using fun e he => hall e (List.mem_cons_of_mem _ he)

theorem firstEnabled_enableFirstEntry {entries : List (SubscriberEntry ω)}
    (hfound : hasEntry subscriber entries = true) :
    firstEnabled subscriber (enableFirstEntry subscriber entries) = true := by
  induction entries with
  | nil => exact absurd hfound Bool.false_ne_true
  | cons first entries ih =>
    unfold firstEnabled enableFirstEntry
    by_cases hfirst : first.subscriber = subscriber
    · simp [hfirst]
    · rw [hasEntry, List.find?_cons_of_neg (by simpa using hfirst)] at hfound
      rw [if_neg hfirst, List.find?_cons_of_neg (by simpa using hfirst)]
      exact ih hfound

theorem anyEnabled_disableRefused {entries : List (SubscriberEntry ω)}
    (h : ∀ e ∈ entries, e.enabled = true → e.subscriber = subscriber) :
    anyEnabled (disableRefused subscriber entries) = false := by
  unfold anyEnabled disableRefused
  rw [List.any_map, List.any_eq_false]
  intro e he henabled
  by_cases hs : e.subscriber = subscriber
  · simp [hs] at henabled
  · simp only [Function.comp_apply, if_neg hs] at henabled
    exact hs (h e he henabled)

theorem keyMove_enableObservers : KeyMove stuck (entriesOfKey k self)
    (keyEvent k self ⟨.enableObservers subscriber uris subscriberId, answer⟩) := by
  have hview := (enableKey_view_turnAt (ω := ω) subscriber).foldl (k := k)
    (publishedKeys uris subscriberId) ⟨self.callbacks, [], .empty, []⟩
  have hundone : Undone (disableRefused subscriber) (enableView k ((publishedKeys uris
      subscriberId).foldl (enableKey subscriber) ⟨self.callbacks, [], .empty, []⟩)).entries
      (keyEvent k self ⟨.enableObservers subscriber uris subscriberId, answer⟩) :=
    undone_of_turnAt (disableRefusedAt_turnAt subscriber) disableRefused_idem rfl rfl
  rw [hview] at hundone
  have hdone : hasEntry subscriber (entriesOfKey k self) = true →
      firstEnabled subscriber (entriesOfKey k self) = false →
        firstEnabled subscriber (enableFirstEntry subscriber (entriesOfKey k self)) = true :=
    fun hfound _ => firstEnabled_enableFirstEntry hfound
  have hsends : Sends k .enable ((publishedKeys uris subscriberId).foldl
        (enableKey subscriber) ⟨self.callbacks, [], .empty, []⟩).sendServiceKeys answer
      ((enableOnce (hasEntry subscriber) (firstEnabled subscriber) (enableFirstEntry subscriber)
        subscriberMissing)^[mentionCount k (publishedKeys uris subscriberId)]
          ⟨entriesOfKey k self, 0, []⟩)
      (keyEvent k self ⟨.enableObservers subscriber uris subscriberId, answer⟩) :=
    { asked := congrArg KeyView.asked hview
      sent := rfl
      codes := (codesAt_append _ _).trans (congrArg (KeyView.codes · ++ _) hview)
      kept := hundone.kept_of_nothing }
  refine keyMove_of_enabling (fun hfound hnil => ?_) hdone hsends rfl rfl ?_
  · rw [hnil] at hfound
    exact Bool.false_ne_true hfound
  · -- The entries of the subscriber, which are the only ones enabled, are disabled again.
    intro _ r hr heffect hstuck hdisabled
    have hentries := hundone.entries hr heffect hstuck
    rw [show enableView k _ = ⟨entriesOfKey k self, 0, []⟩ from rfl] at hentries
    rw [hentries]
    rcases entries_iterate_enableOnce (hasEntry subscriber) (firstEnabled subscriber)
      (enableFirstEntry subscriber) subscriberMissing hdone
      (mentionCount k (publishedKeys uris subscriberId)) with hsame | henabled
    · rw [hsame]
      refine ⟨anyEnabled_disableRefused fun e he henabled => ?_, fun hne hnil => hne ?_⟩
      · exact absurd henabled ((List.any_eq_false.mp hdisabled) e he)
      · rw [hnil]
        rfl
    · rw [henabled]
      refine ⟨anyEnabled_disableRefused (subscriber_of_mem_enableFirstEntry hdisabled),
        fun hne hnil => hne ?_⟩
      rw [hnil]
      rfl

theorem keyMove_disableObservers : KeyMove stuck (entriesOfKey k self)
    (keyEvent k self ⟨.disableObservers subscriber uris subscriberId, answer⟩) :=
  keyMove_of_disabling ((disableKey_view_turnAt subscriber).foldl (publishedKeys uris subscriberId)
    ⟨self.callbacks, [], []⟩) rfl rfl rfl

/-- A key whose last entry is removed is left without entries. -/
theorem entries_of_mentions_lastDelKeys {keys : List PublishedObserverMapKey} {acc : Deleting ω}
    (hacc : Mentions k acc.lastDelKeys → (acc.callbacks.find? k).getD [] = []) :
    Mentions k (keys.foldl (delKey subscriber) acc).lastDelKeys →
      ((keys.foldl (delKey subscriber) acc).callbacks.find? k).getD [] = [] := by
  refine List.foldlRecOn (motive := fun acc : Deleting ω => Mentions k acc.lastDelKeys →
    (acc.callbacks.find? k).getD [] = []) keys _ hacc fun acc ih key _ hmentions => ?_
  have hturn := retainAt_turnAt (k := k) subscriber acc.callbacks key
  change ((retainAt subscriber acc.callbacks key).find? k).getD [] = []
  dsimp only at hturn
  rw [hturn]
  unfold delKey at hmentions
  dsimp only at hmentions
  by_cases hk : compare k key = .eq
  · rw [if_pos hk]
    split at hmentions
    · next hlast =>
      rw [← OrderedMap.find?_congr hk] at hlast
      obtain ⟨entries, hentries, hempty⟩ := (Option.any_eq_true _ _).mp hlast
      rw [hentries]
      exact List.isEmpty_iff.mp hempty
    · rw [ih hmentions]
      rfl
  · rw [if_neg hk]
    refine ih ?_
    split at hmentions
    · simpa [hk] using hmentions
    · exact hmentions

theorem delKey_entries_turnAt (subscriber : ℕ) : TurnAt k (delKey (ω := ω) subscriber)
    (fun acc => (acc.callbacks.find? k).getD []) (retainOthers subscriber) :=
  fun acc key => retainAt_turnAt subscriber acc.callbacks key

theorem keyMove_delObservers : KeyMove stuck (entriesOfKey k self)
    (keyEvent k self ⟨.delObservers subscriber uris subscriberId, answer⟩) := by
  have hentries := (delKey_entries_turnAt (k := k) subscriber).foldl_of_idempotent
    RdbSubscriberManager.retainOthers_idem (publishedKeys uris subscriberId) ⟨self.callbacks, []⟩
  refine keyMove_of_sublist ?_ hentries rfl rfl fun r hr => ?_
  · dsimp only
    split
    · exact List.filter_sublist
    · exact List.Sublist.refl _
  · obtain ⟨hmentions, hkind⟩ := mentions_of_mem_requestsAt hr
    refine ⟨hkind, hentries.symm.trans ?_⟩
    exact entries_of_mentions_lastDelKeys (fun h => absurd h (not_mentions_nil k)) hmentions

theorem mentions_of_keysBySubscriberId {keys : List PublishedObserverMapKey}
    (h : Mentions k (keysBySubscriberId keys)) : Mentions k keys := by
  obtain ⟨key, hkey, hk⟩ := h
  obtain ⟨entry, hentry, hmem⟩ := List.mem_flatMap.mp hkey
  obtain ⟨first, hfirst, -, rfl⟩ := (OrderedMap.exists_mem_entries_group
    PublishedObserverMapKey.subscriberId id).mp ⟨entry, hentry, rfl, hmem⟩
  exact ⟨first, hfirst, hk⟩

theorem find?_retained :
    (self.callbacks.mapValues fun _ entries => retainOthers subscriber entries).find? k =
      (self.callbacks.find? k).map (retainOthers subscriber) :=
  OrderedMap.find?_mapValues _ (fun _ => rfl) k self.callbacks

theorem entriesOfKey_delAllObservers : entriesOfKey k (delAllObservers subscriber answer self).manager =
    retainOthers subscriber (entriesOfKey k self) := by
  change (OrderedMap.find? k (OrderedMap.filterValues _ _)).getD [] = _
  rw [OrderedMap.find?_filterValues, find?_retained, entriesOfKey]
  cases self.callbacks.find? k with
  | none => rfl
  | some entries =>
    rw [Option.map_some, Option.getD_some, Option.filter_some]
    split
    · rfl
    · next hnil => simpa using hnil

theorem keyMove_delAllObservers :
    KeyMove stuck (entriesOfKey k self) (keyEvent k self ⟨.delAllObservers subscriber, answer⟩) := by
  refine keyMove_of_sublist List.filter_sublist entriesOfKey_delAllObservers rfl rfl fun r hr => ?_
  obtain ⟨hmentions, hkind⟩ := mentions_of_mem_requestsAt hr
  have hlast := OrderedMap.isSome_find?_iff.mpr (mentions_of_keysBySubscriberId hmentions)
  rw [OrderedMap.find?_filterValues, find?_retained] at hlast
  refine ⟨hkind, ?_⟩
  unfold entriesOfKey
  cases hfind : self.callbacks.find? k with
  | none => rfl
  | some entries =>
    rw [hfind, Option.map_some, Option.isSome_filter] at hlast
    exact List.isEmpty_iff.mp hlast

variable (k self) in
/-- An item flags entries, and leaves the rest as it is. -/
theorem entriesOfKey_recordItem (ownerBundleName : String) (data : PublishedDataItem δ) :
    entriesOfKey k (recordItem ownerBundleName self data) = flagDisabled (entriesOfKey k self) ∨
      entriesOfKey k (recordItem ownerBundleName self data) = entriesOfKey k self := by
  unfold entriesOfKey recordItem
  cases hfind : self.callbacks.find? data.mapKey with
  | none => exact .inr rfl
  | some entries =>
    dsimp only
    rw [OrderedMap.find?_assign]
    split
    · next hk =>
      rw [OrderedMap.find?_congr hk, hfind]
      exact .inl rfl
    · exact .inr rfl

theorem keyMove_emit {changeNode : PublishedDataChangeNode δ} :
    KeyMove stuck (entriesOfKey k self) (keyEvent k self ⟨.emit changeNode, answer⟩) := by
  have hrecorded : (entriesOfKey k (changeNode.datas.foldl (recordItem changeNode.ownerBundleName) self) ≠
        [] → entriesOfKey k self ≠ []) ∧
      ∀ s, HoldsEnabled s (entriesOfKey k (changeNode.datas.foldl
        (recordItem changeNode.ownerBundleName) self)) → HoldsEnabled s (entriesOfKey k self) := by
    refine List.foldlRecOn (motive := fun manager => (entriesOfKey k manager ≠ [] →
      entriesOfKey k self ≠ []) ∧ ∀ s, HoldsEnabled s (entriesOfKey k manager) →
        HoldsEnabled s (entriesOfKey k self)) changeNode.datas _ ⟨id, fun _ => id⟩ ?_
    intro manager ih data _
    rcases entriesOfKey_recordItem k manager changeNode.ownerBundleName data with
      hflagged | hsame
    · rw [hflagged]
      refine ⟨fun hne => ih.1 fun hnil => hne (by rw [hnil]; rfl), fun s hs => ih.2 s ?_⟩
      obtain ⟨e, he, hsub, henabled⟩ := hs
      obtain ⟨first, hfirst, rfl⟩ := List.mem_map.mp he
      split at henabled
      · next hyes =>
        rw [if_pos hyes] at hsub
        exact ⟨first, hfirst, hsub, hyes⟩
      · next hnot => exact absurd henabled hnot
    · rw [hsame]
      exact ih
  exact .taken rfl rfl (fun r hr => absurd hr List.not_mem_nil) hrecorded.1 hrecorded.2

/-- Every call but `recover_observers` makes a move, unless it adds to a disabled key. -/
theorem keyMove_keyEvent (x : Exchange ω δ) (hx : x.call ≠ .recoverObservers)
    (hawake : Awake (entriesOfKey k self) (keyEvent k self x)) :
    KeyMove stuck (entriesOfKey k self) (keyEvent k self x) := by
  obtain ⟨c, answer⟩ := x
  cases c with
  | addObservers subscriber uris subscriberId callback => exact keyMove_addObservers hawake
  | delObservers subscriber uris subscriberId => exact keyMove_delObservers
  | delAllObservers subscriber => exact keyMove_delAllObservers
  | enableObservers subscriber uris subscriberId => exact keyMove_enableObservers
  | disableObservers subscriber uris subscriberId => exact keyMove_disableObservers
  | recoverObservers => exact absurd rfl hx
  | emit changeNode => exact keyMove_emit

end Moves

/-- What the calls do to `k`. -/
def keyEvents (k : PublishedObserverMapKey) (calls : List (Exchange ω δ)) :
    List (KeyEvent PublishedObserverMapKey ω) :=
  eventsOf (fun self x => (x.outcome self).manager) (keyEvent k) new calls

/-- The service is not restarted, and no call adds to a key whose observers are all disabled, nor to
one whose registration got no reply while it still has observers, or enables it. -/
structure BackedRun (k : PublishedObserverMapKey) (calls : List (Exchange ω δ)) : Prop where
  notRecovering : ∀ x ∈ calls, x.call ≠ .recoverObservers
  awake : Throughout (fun before e => Awake (lastEntries before) e) (keyEvents k calls)
  backed : Throughout (Backed stuck) (keyEvents k calls)

theorem noDeadObserver_of_backedRun {calls : List (Exchange ω δ)} (h : BackedRun k calls) :
    NoDeadObserver (keyEvents k calls) := by
  have hstuck : ∀ answer, stuck answer = true → answer.takesEffect = false := by
    intro answer hstuck
    cases answer with
    | replied errCode => exact absurd hstuck Bool.false_ne_true
    | lost applied => simpa [stuck, Answer.takesEffect] using hstuck
  refine noDeadObserver_of_backed hstuck ?_ h.backed
  exact keyMoves_of_eventsOf rfl (fun _ _ => rfl)
    (fun self x hx hawake => keyMove_keyEvent x (h.notRecovering x hx) hawake) h.awake

end PublishedDataSubscriberManager

end DataShare.Rust
