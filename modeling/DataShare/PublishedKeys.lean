import DataShare.RustPublishedData

/-!
# Which entries a uri addresses

Each operation on a uri acts on the entries registered at the key of that uri
(`addresses_self`) : it adds to them, removes from them, enables or disables among them, and a
published item flags or calls them. Whether it also acts on the entries registered with another
uri of the same clear part is up to the order of the keys, which compares the uri itself :
in all reachable states an operation on `v` acts on the entries of `u` exactly if `u = v`
(`addresses_iff`).
-/

namespace DataShare

namespace Rust

theorem PublishedObserverMapKey.compare_eq_iff {k k' : PublishedObserverMapKey} :
    compare k k' = .eq ↔ k = k' := by
  show compareLex _ _ k k' = .eq ↔ _
  rw [compareLex_eq_eq, compareLex_eq_eq]
  simp only [compareOn, Std.LawfulEqOrd.compare_eq_iff_eq]
  obtain ⟨uri, clearUri, subscriberId⟩ := k
  obtain ⟨uri', clearUri', subscriberId'⟩ := k'
  simp

namespace PublishedDataSubscriberManager

variable {ω δ : Type} {subscriberId : Int} {uri u v : String}

/-- The entries registered with the uri. -/
def entriesAt (uri : String) (subscriberId : Int) (self : PublishedDataSubscriberManager ω δ) :
    List (SubscriberEntry ω) :=
  (self.callbacks.find? (.new uri subscriberId)).getD []

/-! ## What an operation does to the entries it is for -/

section Turns

variable (subscriber : ℕ) (answer : Answer) (entries : List (SubscriberEntry ω))

/-- An entry is added, and taken back if it is the first one and the service refuses it. -/
def addTurn (callback : ω) : List (SubscriberEntry ω) :=
  if entries.isEmpty ∧ answer.refused then [] else entries ++ [⟨subscriber, callback, true, false⟩]

/-- The first entry of the subscriber is enabled ; all of them are disabled if it is the
first enabled one and the service refuses it. -/
def enableTurn : List (SubscriberEntry ω) :=
  if (entries.find? fun e => e.subscriber = subscriber).all SubscriberEntry.enabled then entries
  else if !anyEnabled entries ∧ answer.refused then
    disableRefused subscriber (enableFirstEntry subscriber entries)
  else enableFirstEntry subscriber entries

end Turns

/-- The operations with uri `v` act on the entries registered with `u`. -/
structure Addresses (subscriberId : Int) (u v : String)
    (manager : PublishedDataSubscriberManager ω δ) : Prop where
  added : ∀ subscriber callback answer,
    entriesAt u subscriberId
        (addObservers subscriber [v] subscriberId callback answer manager).manager =
      addTurn subscriber (answer 0) (entriesAt u subscriberId manager) callback
  deleted : ∀ subscriber answer,
    entriesAt u subscriberId (delObservers subscriber [v] subscriberId answer manager).manager =
      retainOthers subscriber (entriesAt u subscriberId manager)
  enabled : ∀ subscriber answer,
    entriesAt u subscriberId (enableObservers subscriber [v] subscriberId answer manager).manager =
      enableTurn subscriber (answer 0) (entriesAt u subscriberId manager)
  disabled : ∀ subscriber answer,
    entriesAt u subscriberId (disableObservers subscriber [v] subscriberId answer manager).manager =
      disableEntries subscriber (entriesAt u subscriberId manager)
  flagged : ∀ changeNode, (∃ data ∈ changeNode.datas, data.mapKey = .new v subscriberId) →
    entriesAt u subscriberId (emit changeNode manager).manager =
      flagDisabled (entriesAt u subscriberId manager)
  called : ∀ changeNode, (∃ data ∈ changeNode.datas, data.mapKey = .new v subscriberId) →
    ∀ entry ∈ entriesAt u subscriberId manager, entry.enabled = true →
      (entry.observer, changeNode) ∈ (emit changeNode manager).calls

variable {self : PublishedDataSubscriberManager ω δ} {subscriber : ℕ} {answer : ℕ → Answer}

theorem find?_retainAt (callbacks : Callbacks ω) (key : PublishedObserverMapKey) :
    ((retainAt subscriber callbacks key).find? key).getD [] =
      retainOthers subscriber ((callbacks.find? key).getD []) := by
  have hself : compare key key = .eq := Std.ReflCmp.compare_self
  unfold retainAt
  cases hfind : callbacks.find? key with
  | none => simp [hfind, retainOthers]
  | some entries =>
    dsimp only
    split
    · next hempty =>
      rw [OrderedMap.find?_erase, if_pos hself]
      simpa using (List.isEmpty_iff.mp hempty).symm
    · rw [OrderedMap.find?_assign, if_pos hself]
      rfl

theorem retainOthers_singleton (callback : ω) :
    retainOthers subscriber [⟨subscriber, callback, true, false⟩] = [] := by
  simp [retainOthers]

theorem entriesAt_addObservers (callback : ω) :
    entriesAt uri subscriberId
        (addObservers subscriber [uri] subscriberId callback answer self).manager =
      addTurn subscriber (answer 0) (entriesAt uri subscriberId self) callback := by
  unfold addObservers entriesAt publishedKeys addTurn
  simp only [List.map_cons, List.map_nil, List.foldl_cons, List.foldl_nil, addKey]
  generalize hentries : (self.callbacks.find? (.new uri subscriberId)).getD [] = entries
  by_cases hempty : entries = []
  · subst hempty
    cases hrefused : (answer 0).refused with
    | false => simp [sendRequests, failedKeys, hrefused, OrderedMap.find?_upsert, hentries]
    | true =>
      simp [sendRequests, failedKeys, hrefused, find?_retainAt, OrderedMap.find?_upsert,
        hentries, retainOthers_singleton]
  · simp [hempty, sendRequests, failedKeys, OrderedMap.find?_upsert, hentries]

theorem entriesAt_delObservers :
    entriesAt uri subscriberId (delObservers subscriber [uri] subscriberId answer self).manager =
      retainOthers subscriber (entriesAt uri subscriberId self) := by
  unfold delObservers entriesAt publishedKeys
  exact find?_retainAt self.callbacks _

theorem entriesAt_enableObservers :
    entriesAt uri subscriberId (enableObservers subscriber [uri] subscriberId answer self).manager =
      enableTurn subscriber (answer 0) (entriesAt uri subscriberId self) := by
  unfold enableObservers entriesAt publishedKeys enableTurn
  simp only [List.map_cons, List.map_nil, List.foldl_cons, List.foldl_nil, enableKey]
  cases hfind : self.callbacks.find? (.new uri subscriberId) with
  | none => simp [sendRequests, failedKeys, hfind]
  | some entries =>
    dsimp only [Option.getD_some]
    rcases Option.eq_none_or_eq_some (entries.find? fun e => e.subscriber = subscriber) with
      htarget | ⟨target, htarget⟩
    · simp [sendRequests, failedKeys, hfind, htarget]
    · by_cases henabled : target.enabled = true
      · simp [sendRequests, failedKeys, hfind, htarget, henabled]
      · by_cases hany : anyEnabled entries = true
        · simp [sendRequests, failedKeys, htarget, henabled, hany, OrderedMap.find?_assign]
        · by_cases hrefused : (answer 0).refused = true <;>
            simp [sendRequests, failedKeys, hrefused, htarget, henabled, hany, disableRefusedAt,
              OrderedMap.find?_assign]

theorem entriesAt_disableObservers :
    entriesAt uri subscriberId
        (disableObservers subscriber [uri] subscriberId answer self).manager =
      disableEntries subscriber (entriesAt uri subscriberId self) := by
  unfold disableObservers entriesAt publishedKeys
  simp only [List.map_cons, List.map_nil, List.foldl_cons, List.foldl_nil, disableKey]
  cases hfind : self.callbacks.find? (.new uri subscriberId) with
  | none => simp [hfind, disableEntries]
  | some entries =>
    dsimp only [Option.getD_some]
    by_cases hany : anyEnabled entries
    · by_cases hsub : entries.any fun e => e.subscriber = subscriber
      · rw [if_neg (by simpa using hany), if_neg (by simpa using hsub)]
        split <;> simp [OrderedMap.find?_assign]
      · have hnot : ∀ e ∈ entries, e.subscriber ≠ subscriber := by simpa using hsub
        rw [if_neg (by simpa using hany), if_pos (by simpa using hsub),
          disableEntries_eq_self fun e he h => hnot e he h.1]
        simp [hfind]
    · have hnot : ∀ e ∈ entries, e.enabled = false := by simpa [anyEnabled] using hany
      rw [if_pos (by simpa using hany),
        disableEntries_eq_self fun e he h => absurd h.2 (by simp [hnot e he])]
      simp [hfind]

theorem flagDisabled_idem (entries : List (SubscriberEntry ω)) :
    flagDisabled (flagDisabled entries) = flagDisabled entries := by
  unfold flagDisabled
  rw [List.map_map]
  refine List.map_congr_left fun entry _ => ?_
  cases h : entry.enabled <;> simp [h]

theorem entriesAt_recorded (ownerBundleName : String) (datas : List (PublishedDataItem δ)) :
    entriesAt uri subscriberId (datas.foldl (recordItem ownerBundleName) self) =
      if ∃ data ∈ datas, data.mapKey = .new uri subscriberId then
        flagDisabled (entriesAt uri subscriberId self)
      else entriesAt uri subscriberId self := by
  have hturn : ∀ (self : PublishedDataSubscriberManager ω δ) (data : PublishedDataItem δ),
      entriesAt uri subscriberId (recordItem ownerBundleName self data) =
        if data.mapKey = .new uri subscriberId then flagDisabled (entriesAt uri subscriberId self)
        else entriesAt uri subscriberId self := by
    intro self data
    unfold entriesAt recordItem
    dsimp only
    cases hfind : self.callbacks.find? data.mapKey with
    | none =>
      dsimp only
      split
      · next hkey => rw [← hkey, hfind]; rfl
      · rfl
    | some entries =>
      dsimp only
      rw [OrderedMap.find?_assign]
      simp only [PublishedObserverMapKey.compare_eq_iff, eq_comm (b := data.mapKey)]
      split
      · next hkey => rw [← hkey, hfind]; rfl
      · rfl
  induction datas generalizing self with
  | nil => simp
  | cons data datas ih =>
    rw [List.foldl_cons, ih, hturn]
    by_cases hkey : data.mapKey = .new uri subscriberId
    · have hfirst : ∃ other ∈ data :: datas, other.mapKey = .new uri subscriberId :=
        ⟨data, List.mem_cons_self, hkey⟩
      rw [if_pos hkey, if_pos hfirst]
      split
      · exact flagDisabled_idem _
      · rfl
    · simp [hkey]

/-- The operations with a uri act on the entries registered with it. -/
theorem addresses_self : Addresses subscriberId uri uri self where
  added subscriber callback answer := entriesAt_addObservers callback
  deleted subscriber answer := entriesAt_delObservers
  enabled subscriber answer := entriesAt_enableObservers
  disabled subscriber answer := entriesAt_disableObservers
  flagged changeNode hdata := (entriesAt_recorded _ _).trans (if_pos hdata)
  called changeNode hdata entry hentry henabled := by
    have hrecorded : entriesAt uri subscriberId (emit changeNode self).manager =
        flagDisabled (entriesAt uri subscriberId self) := (entriesAt_recorded _ _).trans (if_pos hdata)
    obtain ⟨data, hmem, hkey⟩ := hdata
    refine List.mem_flatMap.mpr ⟨data, hmem, List.mem_map.mpr ⟨entry.observer, ?_, rfl⟩⟩
    unfold enabledAt
    rw [hkey]
    refine List.mem_map.mpr ⟨entry, List.mem_filter.mpr ⟨?_, henabled⟩, rfl⟩
    have hkept : entry ∈ flagDisabled (entriesAt uri subscriberId self) :=
      List.mem_map.mpr ⟨entry, hentry, if_pos henabled⟩
    rw [← hrecorded] at hkept
    exact hkept

/-- The operations with `v` act on the entries registered with `u` in every reachable state exactly
if `v` is `u`, whatever their clear parts are. -/
theorem addresses_iff [Inhabited ω] :
    (∀ calls : List (Exchange ω δ), Addresses subscriberId u v (managerAfter calls)) ↔ u = v := by
  constructor
  · intro h
    by_contra hne
    -- With nothing registered, an accepted registration of `v` is to be found at `u`.
    have hadded := (h []).added 0 default fun _ => .replied errOk
    have hkey : compare (PublishedObserverMapKey.new u subscriberId) (.new v subscriberId) ≠ .eq := by
      rw [Ne, PublishedObserverMapKey.compare_eq_iff]
      exact fun heq => hne (congrArg PublishedObserverMapKey.uri heq)
    unfold entriesAt at hadded
    simp [managerAfter, new, addObservers, publishedKeys, addKey, sendRequests, failedKeys, addTurn,
      Answer.refused, OrderedMap.find?_upsert, hkey] at hadded
  · rintro rfl calls
    exact addresses_self

/-! ## Two uris with a query -/

/-- An observer of `uri?a` for subscriber id 1. -/
def queryObserver : List (Exchange ℕ ℕ) :=
  [⟨.addObservers 1 ["uri?a"] 1 10, fun _ => .replied errOk⟩]

/-- A change for `uri?b` does not reach the observer of `uri?a`. -/
theorem not_addresses_other_query :
    clearUriOf "uri?a" = clearUriOf "uri?b" ∧
      ¬ Addresses 1 "uri?a" "uri?b" (managerAfter queryObserver) := by
  refine ⟨by decide +kernel, fun h => ?_⟩
  have hentries : entriesAt "uri?a" 1 (managerAfter queryObserver) = [⟨1, 10, true, false⟩] := rfl
  have hcalls : (emit ⟨"owner", [⟨"uri?b", 1, 7⟩]⟩ (managerAfter queryObserver)).calls = [] := by
    decide +kernel
  have hcalled := h.called ⟨"owner", [⟨"uri?b", 1, 7⟩]⟩ ⟨_, List.mem_singleton_self _, rfl⟩
    ⟨1, 10, true, false⟩ (hentries ▸ List.mem_singleton_self _) rfl
  rw [hcalls] at hcalled
  exact absurd hcalled List.not_mem_nil

end PublishedDataSubscriberManager

end Rust

end DataShare
