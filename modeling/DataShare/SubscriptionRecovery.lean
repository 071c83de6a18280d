import DataShare.CppRdbSubscriberManager
import DataShare.CppPublishedData
import DataShare.RdbSubscriberCleanup

/-!
# Recovery of subscriptions

A service that has restarted holds no subscriptions, and `RecoverObservers` subscribes the local
keys again. It `Restores` a table if the service then holds the keys of the table, each enabled
exactly if one of its observers is.

The C++ manager of RDB subscriptions sends the status of every uri, and recovers every table
(`rdb_recovers`). The C++ manager of published data and the Rust manager of RDB subscriptions send
none, so that all keys come back enabled : they recover the tables in which every key has an
enabled observer, and no others (`recovers_iff`).
-/

namespace DataShare

/-- A key that is subscribed again, with the status that is sent for it. -/
structure Resubscription (κ : Type) where
  key : κ
  status : Option Bool

section Service

variable {κ : Type} [Ord κ] {k : κ} {sent : List (Resubscription κ)}

/-- A subscription without a status is enabled. -/
def Resubscription.held (r : Resubscription κ) : Subscription :=
  ⟨true, r.status.getD true⟩

/-- What a fresh service holds for a key. -/
def resubscribedAt (k : κ) (sent : List (Resubscription κ)) : Subscription :=
  (sent.filter fun r => compare k r.key = .eq).foldl (fun _ r => r.held) ⟨false, false⟩

/-- The service holds the keys that are present, each enabled exactly if it is here. -/
def Restores (sent : List (Resubscription κ)) (present enabled : κ → Prop) : Prop :=
  ∀ k, ((resubscribedAt k sent).subscribed = true ↔ present k) ∧
    (present k → ((resubscribedAt k sent).enabled = true ↔ enabled k))

theorem resubscribedAt_of_status {b : Bool}
    (h : ∀ r ∈ sent, compare k r.key = .eq → r.status.getD true = b) :
    resubscribedAt k sent =
      if Mentions k (sent.map Resubscription.key) then ⟨true, b⟩ else ⟨false, false⟩ := by
  have hfold : ∀ (l : List (Resubscription κ)) (sub : Subscription),
      (∀ r ∈ l, r.status.getD true = b) →
      l.foldl (fun _ r => r.held) sub = if l = [] then sub else ⟨true, b⟩ := by
    intro l
    induction l with
    | nil => exact fun _ _ => rfl
    | cons r l ih =>
      intro sub hl
      have hr : r.held = ⟨true, b⟩ := by rw [Resubscription.held, hl r List.mem_cons_self]
      rw [List.foldl_cons, ih _ fun r' h' => hl r' (List.mem_cons_of_mem _ h'), hr, ite_self,
        if_neg (List.cons_ne_nil r l)]
  have hmentions : Mentions k (sent.map Resubscription.key) ↔
      ¬ (sent.filter fun r => compare k r.key = .eq) = [] := by
    rw [List.filter_eq_nil_iff]
    unfold Mentions
    simp
  unfold resubscribedAt
  rw [hfold _ _ fun r hr => h r (List.mem_of_mem_filter hr) (by simpa using List.of_mem_filter hr)]
  simp only [hmentions, ite_not]

/-- Where the status sent for each key is that of the key here, everything is restored. -/
theorem restores_of_status {present enabled : κ → Prop} [DecidablePred enabled]
    (hkeys : ∀ k, Mentions k (sent.map Resubscription.key) ↔ present k)
    (hstatus : ∀ k, ∀ r ∈ sent, compare k r.key = .eq →
      r.status.getD true = decide (enabled k)) : Restores sent present enabled := by
  intro k
  rw [resubscribedAt_of_status (hstatus k)]
  by_cases hk : Mentions k (sent.map Resubscription.key)
  · rw [if_pos hk]
    exact ⟨iff_of_true rfl ((hkeys k).mp hk), fun _ => by simp⟩
  · rw [if_neg hk]
    have habsent : ¬ present k := fun h => hk ((hkeys k).mpr h)
    exact ⟨iff_of_false Bool.false_ne_true habsent, fun h => absurd h habsent⟩

/-- Without a status, what is restored are the tables with all keys enabled. -/
theorem restores_iff_enabled {present enabled : κ → Prop}
    (hkeys : ∀ k, Mentions k (sent.map Resubscription.key) ↔ present k)
    (hstatus : ∀ r ∈ sent, r.status = none) :
    Restores sent present enabled ↔ ∀ k, present k → enabled k := by
  refine forall_congr' fun k => ?_
  have hnone : ∀ r ∈ sent, compare k r.key = .eq → r.status.getD true = true :=
    fun r hr _ => by rw [hstatus r hr, Option.getD_none]
  rw [resubscribedAt_of_status hnone]
  by_cases hk : Mentions k (sent.map Resubscription.key)
  · rw [if_pos hk]
    simp [(hkeys k).mp hk]
  · rw [if_neg hk]
    have habsent : ¬ present k := fun h => hk ((hkeys k).mpr h)
    simp [habsent]

end Service

/-! ## The C++ managers -/

namespace Cpp

open CallbacksManager

namespace RdbSubscriberManager

variable {δ : Type} {manager : RdbSubscriberManager δ}

/-- The subscriptions in the requests of `recoverObservers`. -/
def resubscriptions (manager : RdbSubscriberManager δ) : List (Resubscription RdbObserverMapKey) :=
  manager.recoverObservers.flatMap fun call =>
    call.uris.map fun uri => ⟨.new uri call.templateId, call.subscribeOption.find? uri⟩

theorem new_uri_templateId (key : RdbObserverMapKey) : .new key.uri key.templateId = key := by
  obtain ⟨⟨uri, clearUri, rfl⟩, templateId⟩ := key
  rfl

theorem keys_ext {key key' : RdbObserverMapKey} (huri : key.uri = key'.uri)
    (htemplate : key.templateId = key'.templateId) : key = key' := by
  rw [← new_uri_templateId key, huri, htemplate, new_uri_templateId]

/-- The first key of a template with a uri is the only one. -/
theorem find?_same_uri {key : RdbObserverMapKey} (hkey : key ∈ manager.callbacks.keys) :
    manager.callbacks.keys.find? (fun other => other.templateId = key.templateId ∧
      other.uri = key.uri) = some key := by
  have hsome : (manager.callbacks.keys.find? (fun other => other.templateId = key.templateId ∧
      other.uri = key.uri)).isSome := List.find?_isSome.mpr ⟨key, hkey, by simp⟩
  obtain ⟨other, hother⟩ := Option.isSome_iff_exists.mp hsome
  have heq : other.templateId = key.templateId ∧ other.uri = key.uri := by
    simpa using List.find?_some hother
  rw [hother, keys_ext heq.2 heq.1]

/-- Every key is subscribed with its own status : its template has an entry in both maps. -/
theorem mem_resubscriptions {r : Resubscription RdbObserverMapKey} :
    r ∈ resubscriptions manager ↔ ∃ key ∈ manager.callbacks.keys,
      r = ⟨key, some (decide (HasEnabled (nodesAt manager.callbacks key)))⟩ := by
  have hstatus (key : RdbObserverMapKey) :
      (!(getEnabledObservers manager.callbacks key).isEmpty) =
        decide (HasEnabled (nodesAt manager.callbacks key)) := by
    rw [Bool.eq_iff_iff, decide_eq_true_eq, Bool.not_eq_true', ← Bool.not_eq_true,
      isEmpty_getEnabledObservers, not_not]
  unfold resubscriptions recoverObservers
  simp only [hstatus, List.mem_flatMap, List.mem_map]
  constructor
  · rintro ⟨_, ⟨⟨templateId, uris⟩, hentry, rfl⟩, uri, huri, rfl⟩
    obtain ⟨key, hkey, rfl, rfl⟩ := (OrderedMap.exists_mem_entries_group
      RdbObserverMapKey.templateId fun key => key.uri).mp ⟨_, hentry, rfl, huri⟩
    refine ⟨key, hkey, ?_⟩
    rw [new_uri_templateId, OrderedMap.find?_foldl_insert, find?_same_uri hkey]
    rfl
  · rintro ⟨key, hkey, rfl⟩
    obtain ⟨⟨templateId, uris⟩, hentry, rfl, huri⟩ := (OrderedMap.exists_mem_entries_group
      RdbObserverMapKey.templateId fun key => key.uri).mpr ⟨key, hkey, rfl, rfl⟩
    refine ⟨_, ⟨(key.templateId, uris), hentry, rfl⟩, key.uri, huri, ?_⟩
    rw [new_uri_templateId, OrderedMap.find?_foldl_insert, find?_same_uri hkey]
    rfl

/-- `RecoverObservers` restores the table. -/
def Recovers (manager : RdbSubscriberManager δ) : Prop :=
  Restores (resubscriptions manager) (fun k => (manager.callbacks.find? k).isSome = true)
    fun k => HasEnabled (nodesAt manager.callbacks k)

theorem rdb_recovers (manager : RdbSubscriberManager δ) : Recovers manager := by
  refine restores_of_status (fun k => ?_) fun k r hr hk => ?_
  · rw [OrderedMap.isSome_find?_iff]
    unfold Mentions
    simp only [List.mem_map, mem_resubscriptions]
    constructor
    · rintro ⟨_, ⟨_, ⟨key, hkey, rfl⟩, rfl⟩, hk⟩
      exact ⟨key, hkey, hk⟩
    · rintro ⟨key, hkey, hk⟩
      exact ⟨key, ⟨_, ⟨key, hkey, rfl⟩, rfl⟩, hk⟩
  · obtain ⟨key, hkey, rfl⟩ := mem_resubscriptions.mp hr
    rw [Option.getD_some, nodesAt_congr hk]

end RdbSubscriberManager

namespace PublishedDataSubscriberManager

variable {δ : Type} {manager : PublishedDataSubscriberManager δ}

/-- The subscriptions in the requests of `recoverObservers`. -/
def resubscriptions (manager : PublishedDataSubscriberManager δ) :
    List (Resubscription PublishedObserverMapKey) :=
  manager.recoverObservers.flatMap fun call =>
    call.uris.map fun uri => ⟨.new uri call.subscriberId, none⟩

theorem mem_resubscriptions {r : Resubscription PublishedObserverMapKey} :
    r ∈ resubscriptions manager ↔ ∃ key ∈ manager.callbacks.keys, r = ⟨key, none⟩ := by
  have hnew (key : PublishedObserverMapKey) : .new key.uri key.subscriberId = key := by
    obtain ⟨⟨uri, clearUri, rfl⟩, subscriberId⟩ := key
    rfl
  unfold resubscriptions recoverObservers
  simp only [List.mem_flatMap, List.mem_map]
  constructor
  · rintro ⟨_, ⟨⟨subscriberId, uris⟩, hentry, rfl⟩, uri, huri, rfl⟩
    obtain ⟨key, hkey, rfl, rfl⟩ := (OrderedMap.exists_mem_entries_group
      PublishedObserverMapKey.subscriberId fun key => key.uri).mp ⟨_, hentry, rfl, huri⟩
    exact ⟨key, hkey, by rw [hnew]⟩
  · rintro ⟨key, hkey, rfl⟩
    obtain ⟨⟨subscriberId, uris⟩, hentry, rfl, huri⟩ := (OrderedMap.exists_mem_entries_group
      PublishedObserverMapKey.subscriberId fun key => key.uri).mpr ⟨key, hkey, rfl, rfl⟩
    exact ⟨_, ⟨(key.subscriberId, uris), hentry, rfl⟩, key.uri, huri, by rw [hnew]⟩

/-- `RecoverObservers` restores the table. -/
def Recovers (manager : PublishedDataSubscriberManager δ) : Prop :=
  Restores (resubscriptions manager) (fun k => (manager.callbacks.find? k).isSome = true)
    fun k => HasEnabled (nodesAt manager.callbacks k)

theorem published_recovers_iff : Recovers manager ↔
    ∀ k, (manager.callbacks.find? k).isSome = true → HasEnabled (nodesAt manager.callbacks k) := by
  refine restores_iff_enabled (fun k => ?_) fun r hr => ?_
  · rw [OrderedMap.isSome_find?_iff]
    unfold Mentions
    simp only [List.mem_map, mem_resubscriptions]
    constructor
    · rintro ⟨_, ⟨_, ⟨key, hkey, rfl⟩, rfl⟩, hk⟩
      exact ⟨key, hkey, hk⟩
    · rintro ⟨key, hkey, hk⟩
      exact ⟨key, ⟨_, ⟨key, hkey, rfl⟩, rfl⟩, hk⟩
  · obtain ⟨key, hkey, rfl⟩ := mem_resubscriptions.mp hr
    rfl

end PublishedDataSubscriberManager

end Cpp

/-! ## The Rust manager -/

namespace Rust

namespace RdbSubscriberManager

variable {ω δ : Type} {self : RdbSubscriberManager ω δ}

/-- The entries of a key. -/
def entriesOf (self : RdbSubscriberManager ω δ) (k : RdbObserverMapKey) : List (SubscriberEntry ω) :=
  (self.callbacks.find? k).getD []

/-- The subscriptions in the requests of `recover_observers`, whose status map is empty. -/
def resubscriptions (self : RdbSubscriberManager ω δ) : List (Resubscription RdbObserverMapKey) :=
  (self.recoverObservers fun _ => .replied errOk).requests.map fun r => ⟨r.key, none⟩

/-- `recover_observers` restores the table. -/
def Recovers (self : RdbSubscriberManager ω δ) : Prop :=
  Restores (resubscriptions self) (fun k => (self.callbacks.find? k).isSome = true)
    fun k => anyEnabled (entriesOf self k) = true

theorem recovers_iff_enabled : Recovers self ↔
    ∀ k, (self.callbacks.find? k).isSome = true → anyEnabled (entriesOf self k) = true := by
  have hkeys : (resubscriptions self).map Resubscription.key = self.callbacks.keys := by
    unfold resubscriptions
    rw [List.map_map]
    exact CallbacksManager.map_key_sendRequests _ _ _
  refine restores_iff_enabled (fun k => ?_) fun r hr => ?_
  · rw [hkeys]
    exact OrderedMap.isSome_find?_iff.symm
  · obtain ⟨request, -, rfl⟩ := List.mem_map.mp hr
    rfl

end RdbSubscriberManager

end Rust

/-! ## The three managers -/

/-- The three managers recover their tables exactly if no key of the two that send no status has
only disabled observers. -/
theorem recovers_iff {δ ω : Type} (rdb : Cpp.RdbSubscriberManager δ)
    (published : Cpp.PublishedDataSubscriberManager δ) (rust : Rust.RdbSubscriberManager ω δ) :
    (rdb.Recovers ∧ published.Recovers ∧ rust.Recovers) ↔
      (∀ k, (published.callbacks.find? k).isSome = true →
        HasEnabled (CallbacksManager.nodesAt published.callbacks k)) ∧
      ∀ k, (rust.callbacks.find? k).isSome = true → Rust.anyEnabled (rust.entriesOf k) = true := by
  rw [Cpp.PublishedDataSubscriberManager.published_recovers_iff,
    Rust.RdbSubscriberManager.recovers_iff_enabled]
  exact and_iff_right rdb.rdb_recovers

/-! ### A disabled key -/

/-- One observer of the uri `u`, disabled. -/
def disabledPublished : Cpp.PublishedDataSubscriberManager ℕ :=
  .managerAfter [⟨.addObservers 1 [[117]] 7, fun _ => .replied errOk⟩,
    ⟨.disableObservers 1 [[117]] 7, fun _ => .replied errOk⟩]

/-- One observer of the uri `u`, disabled. -/
def disabledRust : Rust.RdbSubscriberManager ℕ ℕ :=
  Rust.RdbSubscriberManager.managerAfter
    [⟨.addObservers 1 ["u"] ⟨7, "b"⟩ 10, fun _ => .replied errOk⟩,
      ⟨.disableObservers 1 ["u"] ⟨7, "b"⟩, fun _ => .replied errOk⟩]

/-- The key comes back enabled. -/
theorem disabled_key_not_recovered : ¬ disabledPublished.Recovers ∧ ¬ disabledRust.Recovers := by
  constructor
  · rw [Cpp.PublishedDataSubscriberManager.published_recovers_iff]
    intro h
    have henabled := h (.new [117] 7) (by decide +kernel)
    exact absurd henabled (by decide +kernel)
  · rw [Rust.RdbSubscriberManager.recovers_iff_enabled]
    intro h
    have henabled := h (.new "u" ⟨7, "b"⟩) (by decide +kernel)
    exact absurd henabled (by decide +kernel)

end DataShare
