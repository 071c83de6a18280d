import DataShare.RdbSubscriberCleanup

/-!
# Changes of another template

A change node names the key it is for : its uri without the query and its template.
`emit` goes by the uri alone. As long as every key registered for the uri of an emitted node has
the template of the node, `emit` delivers it to the enabled observers of its own key, changes the
flags and the cached node of that key only (`emitsToOwnKey`), and a cached node is replayed to
observers of its own key (`ownKey_of_mem_replays`) : `keyed` says both of whole runs.

A second template of the uri breaks this (`emits_to_other_template`) : its observers are handed
the change.
-/

namespace DataShare

namespace Rust

/-- What a change node holds beside the uri : the template it is for, and its data. -/
structure RdbChange (ρ : Type) where
  templateId : TemplateId
  data : ρ
  deriving DecidableEq

namespace RdbSubscriberManager

variable {ω ρ : Type} {self : RdbSubscriberManager ω (RdbChange ρ)}
  {calls : List (Exchange ω (RdbChange ρ))}

/-- The key a change is for. -/
def keyOf (node : RdbChangeNode (RdbChange ρ)) : RdbObserverMapKey :=
  .new node.uri node.change.templateId

/-- The observers a change of the key is to reach, one for each registration. -/
def enabledAt (k : RdbObserverMapKey) (self : RdbSubscriberManager ω (RdbChange ρ)) : List ω :=
  (((self.callbacks.find? k).getD []).filter SubscriberEntry.enabled).map SubscriberEntry.observer

/-- `emit` delivers the node to the enabled observers of its key and records it for this key. -/
structure EmitsToOwnKey (manager : RdbSubscriberManager ω (RdbChange ρ))
    (node : RdbChangeNode (RdbChange ρ)) : Prop where
  delivered : (emit node manager).delivered = enabledAt (keyOf node) manager
  flagged : ∀ k, (emit node manager).manager.callbacks.find? k =
    if compare k (keyOf node) = .eq then (manager.callbacks.find? k).map notifyEntries
    else manager.callbacks.find? k
  cached : ∀ k, (emit node manager).manager.lastChangeNodeMap.find? k =
    if compare k (keyOf node) = .eq ∧ (manager.callbacks.find? k).isSome then some node
    else manager.lastChangeNodeMap.find? k

/-- Every key registered for the uri of the node has the template of the node. -/
def OnlyOwnTemplate (self : RdbSubscriberManager ω (RdbChange ρ))
    (node : RdbChangeNode (RdbChange ρ)) : Prop :=
  ∀ key ∈ self.callbacks.keys, key.clearUri = clearUriOf node.uri →
    key.templateId = node.change.templateId

instance (node : RdbChangeNode (RdbChange ρ)) : Decidable (OnlyOwnTemplate self node) :=
  inferInstanceAs (Decidable (∀ key ∈ self.callbacks.keys, key.clearUri = clearUriOf node.uri →
    key.templateId = node.change.templateId))

theorem compare_keyOf {k : RdbObserverMapKey} {node : RdbChangeNode (RdbChange ρ)} :
    compare k (keyOf node) = .eq ↔
      k.clearUri = clearUriOf node.uri ∧ k.templateId = node.change.templateId :=
  compare_eq_iff

/-- The uri of a registered key decides whether the change is for it. -/
theorem OnlyOwnTemplate.compare_iff {node : RdbChangeNode (RdbChange ρ)}
    (h : OnlyOwnTemplate self node) {k : RdbObserverMapKey}
    (hk : (self.callbacks.find? k).isSome) :
    k.clearUri = clearUriOf node.uri ↔ compare k (keyOf node) = .eq := by
  rw [compare_keyOf]
  refine ⟨fun huri => ⟨huri, ?_⟩, And.left⟩
  obtain ⟨key, hkey, heq⟩ := OrderedMap.isSome_find?_iff.mp hk
  obtain ⟨hclear, htemplate⟩ := compare_eq_iff.mp heq
  rw [htemplate]
  exact h key hkey (hclear.symm.trans huri)

theorem matchingKeys_eq {node : RdbChangeNode (RdbChange ρ)} (h : OnlyOwnTemplate self node) :
    matchingKeys (clearUriOf node.uri) self.callbacks =
      self.callbacks.keys.filter fun key => compare (keyOf node) key = .eq := by
  refine List.filter_congr fun key hkey => ?_
  have hsome : (self.callbacks.find? key).isSome :=
    OrderedMap.isSome_find?_iff.mpr ⟨key, hkey, Std.ReflCmp.compare_self⟩
  rw [decide_eq_decide, h.compare_iff hsome]
  exact Std.OrientedCmp.eq_comm

/-- Where the keys of the uri have one template, a change goes to its own key. -/
theorem emitsToOwnKey {node : RdbChangeNode (RdbChange ρ)} (h : OnlyOwnTemplate self node) :
    EmitsToOwnKey self node where
  delivered := by
    have hsame : ∀ key ∈ self.callbacks.keys.filter fun key => compare (keyOf node) key = .eq,
        enabledAt key self = enabledAt (keyOf node) self := fun key hkey => by
      have heq : compare (keyOf node) key = .eq := by simpa using (List.mem_filter.mp hkey).2
      unfold enabledAt
      rw [OrderedMap.find?_congr heq]
    have hcount := mentionCount_keys (keyOf node) self.callbacks
    unfold mentionCount at hcount
    rw [List.countP_eq_length_filter] at hcount
    have hdelivered : (emit node self).delivered = (self.callbacks.keys.filter fun key =>
        compare (keyOf node) key = .eq).flatMap fun key => enabledAt key self := by
      rw [← matchingKeys_eq h]
      rfl
    rw [hdelivered, List.flatMap_congr hsame]
    split at hcount
    · obtain ⟨key, hkey⟩ := List.length_eq_one_iff.mp hcount
      simp [hkey]
    · next hnone =>
      have hnone : self.callbacks.find? (keyOf node) = none := by simpa using hnone
      simp [List.length_eq_zero_iff.mp hcount, enabledAt, hnone]
  flagged k := by
    unfold emit
    dsimp only
    rw [OrderedMap.find?_mapValues _ fun heq => by rw [(compare_eq_iff.mp heq).1]]
    cases hfind : self.callbacks.find? k with
    | none => simp
    | some entries =>
      rw [Option.map_some]
      simp only [h.compare_iff (k := k) (by rw [hfind]; rfl)]
      split <;> rfl
  cached k := by
    unfold emit
    dsimp only
    rw [find?_emitLoop]
    refine if_congr (and_congr_left h.compare_iff) rfl rfl

/-! ## Runs -/

/-- Each change of the run is emitted while its uri has no key of another template. -/
def OwnTemplates (calls : List (Exchange ω (RdbChange ρ))) : Prop :=
  ∀ before node answer rest, calls = before ++ ⟨.emit node, answer⟩ :: rest →
    OnlyOwnTemplate (managerAfter before) node

/-- Every change of the run goes to its own key, at once or from the cache. -/
structure Keyed (calls : List (Exchange ω (RdbChange ρ))) : Prop where
  emitted : ∀ before node answer rest, calls = before ++ ⟨.emit node, answer⟩ :: rest →
    EmitsToOwnKey (managerAfter before) node
  replayed : ∀ before x rest, calls = before ++ x :: rest → ∀ replay ∈ replaysBy before x,
    compare replay.key (keyOf replay.node) = .eq

/-- The cached nodes are each for the key they are cached at. -/
def CachesOwnKey (self : RdbSubscriberManager ω (RdbChange ρ)) : Prop :=
  ∀ k node, self.lastChangeNodeMap.find? k = some node → compare k (keyOf node) = .eq

/-- A call caches for a key what was cached before, or the change it emits. -/
theorem cachesOwnKey_outcome (hself : CachesOwnKey self) {x : Exchange ω (RdbChange ρ)}
    (hown : ∀ node, x.call = .emit node → OnlyOwnTemplate self node) :
    CachesOwnKey (x.outcome self).manager := by
  intro k node hnode
  have hchange := keyChange_outcome k self x
  generalize (x.outcome self).manager.callbacks.find? k = after at hchange
  generalize requestsAt k (x.outcome self).requests = sent at hchange
  generalize hnode' : (x.outcome self).manager.lastChangeNodeMap.find? k = node' at hchange
  cases hchange with
  | registered present kinds => exact hself k node (hnode'.symm.trans hnode)
  | kept present kinds => exact hself k node (hnode'.symm.trans hnode)
  | removed kinds => exact absurd (hnode'.symm.trans hnode) (by simp)
  | dropped subscriber call last => exact hself k node (hnode'.symm.trans hnode)
  | notified changeNode call matching present =>
    obtain rfl := Option.some_inj.mp (hnode'.symm.trans hnode)
    obtain ⟨c, answer⟩ := x
    obtain rfl : c = .emit changeNode := call
    have hcached := (emitsToOwnKey (hown changeNode rfl)).cached k
    by_cases hk : compare k (keyOf changeNode) = .eq
    · exact hk
    · rw [if_neg fun h => hk h.1] at hcached
      exact hself k changeNode (hcached.symm.trans hnode)

theorem ownTemplates_nil : OwnTemplates ([] : List (Exchange ω (RdbChange ρ))) :=
  fun _ _ _ _ heq => absurd heq (by simp)

theorem ownTemplates_concat {x : Exchange ω (RdbChange ρ)} : OwnTemplates (calls ++ [x]) ↔
    OwnTemplates calls ∧ ∀ node, x.call = .emit node → OnlyOwnTemplate (managerAfter calls) node := by
  obtain ⟨c, answer⟩ := x
  refine ⟨fun h => ⟨fun before node answer' rest heq => ?_, ?_⟩, ?_⟩
  · exact h before node answer' (rest ++ [⟨c, answer⟩]) (by simp [heq])
  · rintro node rfl
    exact h calls node answer [] rfl
  · rintro ⟨h, hlast⟩ before node answer' rest heq
    induction rest using List.reverseRecOn with
    | nil =>
      obtain ⟨rfl, hx⟩ := List.append_inj' heq rfl
      obtain ⟨rfl, -⟩ := Exchange.mk.inj (List.singleton_inj.mp hx)
      exact hlast node rfl
    | append_singleton rest last _ =>
      rw [← List.cons_append, ← List.append_assoc] at heq
      exact h before node answer' rest (List.append_inj' heq rfl).1

theorem cachesOwnKey_managerAfter (h : OwnTemplates calls) : CachesOwnKey (managerAfter calls) := by
  induction calls using List.reverseRecOn with
  | nil => exact fun k node hnode => absurd hnode (by simp [managerAfter, new])
  | append_singleton calls x ih =>
    obtain ⟨hcalls, hlast⟩ := ownTemplates_concat.mp h
    rw [managerAfter_concat]
    exact cachesOwnKey_outcome (ih hcalls) hlast

/-- In every run whose changes each find keys of their own template only, every change goes to
the observers of its own key. -/
theorem keyed (h : OwnTemplates calls) : Keyed calls where
  emitted before node answer rest heq := emitsToOwnKey (h before node answer rest heq)
  replayed := by
    rintro before x rest rfl replay hreplay
    have hbefore : OwnTemplates before := fun early node answer late heq =>
      h early node answer (late ++ x :: rest) (by simp [heq])
    exact cachesOwnKey_managerAfter hbefore replay.key replay.node
      (node_of_mem_replays x replay hreplay)

/-! ## Two templates of one uri -/

def otherTemplate : TemplateId :=
  ⟨2, "bundle"⟩

/-- A change of `uri` for the template. -/
def changeOf (uri : String) (templateId : TemplateId) : RdbChangeNode (RdbChange ℕ) :=
  ⟨uri, templateId, 7⟩

/-- A call whose requests are all accepted. -/
def acceptedCall (call : Call ℕ (RdbChange ℕ)) : Exchange ℕ (RdbChange ℕ) :=
  ⟨call, fun _ => .replied errOk⟩

/-- An observer of `uri` for each of two templates. -/
def twoTemplates : List (Exchange ℕ (RdbChange ℕ)) :=
  [acceptedCall (.addObservers 1 ["uri"] someTemplate 10),
    acceptedCall (.addObservers 2 ["uri"] otherTemplate 20)]

/-- An observer that is disabled, misses a change and is enabled again. -/
def oneTemplate : List (Exchange ℕ (RdbChange ℕ)) :=
  [acceptedCall (.addObservers 1 ["uri"] someTemplate 10),
    acceptedCall (.disableObservers 1 ["uri"] someTemplate),
    acceptedCall (.emit (changeOf "uri?query" someTemplate)),
    acceptedCall (.enableObservers 1 ["uri"] someTemplate)]

theorem keyed_oneTemplate : Keyed oneTemplate := by
  refine @keyed _ _ ([] ++ [_] ++ [_] ++ [_] ++ [_]) ?_
  simp only [ownTemplates_concat]
  refine ⟨⟨⟨⟨ownTemplates_nil, ?_⟩, ?_⟩, ?_⟩, ?_⟩
  · exact fun node hcall => absurd hcall (by simp [acceptedCall])
  · exact fun node hcall => absurd hcall (by simp [acceptedCall])
  · intro node hcall
    obtain rfl : changeOf "uri?query" someTemplate = node := by simpa [acceptedCall] using hcall
    decide +kernel
  · exact fun node hcall => absurd hcall (by simp [acceptedCall])

/-- The change for the one template is delivered to the observer of the other. -/
theorem emits_to_other_template :
    ¬ EmitsToOwnKey (managerAfter twoTemplates) (changeOf "uri" someTemplate) := by
  intro h
  have hdelivered : (emit (changeOf "uri" someTemplate) (managerAfter twoTemplates)).delivered =
      [10, 20] := by decide +kernel
  have henabled : enabledAt (keyOf (changeOf "uri" someTemplate)) (managerAfter twoTemplates) =
      [10] := by decide +kernel
  have hemit := h.delivered
  rw [hdelivered, henabled] at hemit
  exact absurd hemit (by simp)

end RdbSubscriberManager

end Rust

end DataShare
