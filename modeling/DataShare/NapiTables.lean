import DataShare.NapiLinks

/-!
# The JS tables and the native table

After each call of its JS manager, every key with JS observers should be subscribed through the
helper, each of these observers should be told exactly once of a change for the key, and the helper
should have no other native subscriptions (`Matches`). This holds after every run whose calls keep it
(`Keeps`) : a call that adds the first observer of a key, or deletes the last, finds a proxy of the
service, no key gets its first observer while another key has the same uri up to the query, and the
keys that lose their last observer are of the scope of the call (`js_tables_match`).

Where the service refuses a key, the rollback of both managers takes the observer out again, so
refused and lost requests do no harm.
-/

namespace DataShare

namespace Napi

open Cpp (StdString clearUriOf TemplateId RdbObserverMapKey RdbChangeNode PublishedObserverMapKey
  PublishedDataChangeNode SubscriberManager SubscriberCall SubscriberExchange)
open CallbacksManager (nodesAt delCodes)
open NapiCallbacksManager (Observer Callbacks membersAt entryAt members join leave Deletes Sound
  registerLocal delLocal getEnabledObservers)

variable {τ κ ν : Type} [Ord τ] [Ord κ]

/-! ## What is to hold -/

/-- `times` says how often a change is about a key. -/
structure Matches (cls : NapiClass τ κ ν) (times : ObserverMapKey τ → ν → ℕ) (subscriber : ℕ)
    (tables : NapiTables τ κ ν) : Prop where
  subscribed : ∀ key, membersAt tables.js.callbacks key ≠ [] →
    ∃ node ∈ nodesAt tables.native.callbacks (cls.nativeKey key), node.subscriber = subscriber
  reached : ∀ key change, ∀ member ∈ membersAt tables.js.callbacks key,
    told (times key) (fun obs => obs = member.1) (emitted cls change tables) = times key change
  unsubscribed : ∀ k, (∃ node ∈ nodesAt tables.native.callbacks k, node.subscriber = subscriber) →
    ∃ key, compare k (cls.nativeKey key) = .eq ∧ membersAt tables.js.callbacks key ≠ []

/-- The calls that keep the tables in step, from what is in them before. -/
def Keeps (subscriber : ℕ) (tables : NapiTables τ κ ν) (x : NapiExchange τ ν) : Prop :=
  match x.call with
  | .addObservers _ uris scope =>
    ∀ uri ∈ uris, membersAt tables.js.callbacks ⟨uri, scope⟩ = [] → x.proxy = true ∧
      ∀ uri', uri' ∈ uris ∨ membersAt tables.js.callbacks ⟨uri', scope⟩ ≠ [] →
        clearUriOf uri = clearUriOf uri' → uri = uri'
  | .delObservers callback uris scope =>
    ∀ key, membersAt tables.js.callbacks key ≠ [] →
      Deletes key (uris.map fun uri => ⟨uri, scope⟩) (callback.map (Observer.mk tables.js.made)) →
      leave (callback.map (Observer.mk tables.js.made)) (membersAt tables.js.callbacks key) = [] →
      x.proxy = true ∧ key.scope = scope
  | .native call => call.caller ≠ some subscriber

/-- The link, with sound JS entries. -/
structure InStep (cls : NapiClass τ κ ν) (subscriber : ℕ) (tables : NapiTables τ κ ν) : Prop where
  sound : ∀ key, Sound (entryAt tables.js.callbacks key)
  linked : Linked cls subscriber (fun key => membersAt tables.js.callbacks key ≠ [])
    tables.js.subscriptions tables.native

/-! ## From the link to the tables -/

theorem countP_enabledObservers (p : ℕ → Bool) : ∀ nodes : List (ObserverNode ℕ ℕ),
    (enabledObservers nodes).countP p =
      (nodes.map role).countP fun r => r.2.2 && r.2.1.elim false p
  | [] => rfl
  | node :: nodes => by
    have ih := countP_enabledObservers p nodes
    unfold enabledObservers at ih ⊢
    rw [List.map_cons, List.countP_cons, ← ih, List.filterMap_cons]
    obtain ⟨observer, enabled, subscriber, flag⟩ := node
    cases enabled with
    | false => rfl
    | true =>
      cases observer with
      | none => rfl
      | some obs => rw [if_pos rfl, List.countP_cons]; rfl

namespace InStep

variable {cls : NapiClass τ κ ν} {times : ObserverMapKey τ → ν → ℕ} {subscriber : ℕ}
  {tables : NapiTables τ κ ν}

/-- One native observer of a key with JS observers emits to the manager. -/
theorem countP_native (h : InStep cls subscriber tables) {key : ObserverMapKey τ}
    (hkey : membersAt tables.js.callbacks key ≠ []) :
    (CallbacksManager.getEnabledObservers tables.native.callbacks (cls.nativeKey key)).countP
      (fun obs => obs ∈ tables.js.subscriptions) = 1 := by
  obtain ⟨o, ho, hroles⟩ := h.linked.live_own key hkey
  have hown : (rolesAt tables.native (cls.nativeKey key)).countP
        (fun r => r.2.2 && r.2.1.elim false fun obs => obs ∈ tables.js.subscriptions) =
      (ownRoles subscriber tables.native (cls.nativeKey key)).countP
        fun r => r.2.2 && r.2.1.elim false fun obs => obs ∈ tables.js.subscriptions := by
    unfold ownRoles
    rw [List.countP_filter]
    refine List.countP_congr fun r hr => ?_
    rw [Bool.and_eq_true _ (decide (r.1 = subscriber)), decide_eq_true_eq]
    refine ⟨fun hp => ⟨hp, ?_⟩, fun hp => hp.1⟩
    obtain ⟨who, what, enabled⟩ := r
    cases what with
    | none => simp at hp
    | some obs =>
      exact h.linked.owned _ _ hr obs (by simpa using (Bool.and_eq_true_iff.mp hp).2) rfl
  rw [CallbacksManager.getEnabledObservers_eq, countP_enabledObservers]
  refine hown.trans ?_
  rw [hroles]
  simp [ho]

/-- A JS observer is enabled once for its key. -/
theorem countP_js (h : InStep cls subscriber tables) {key : ObserverMapKey τ}
    {member : Observer × Bool} (hmember : member ∈ membersAt tables.js.callbacks key) :
    (getEnabledObservers tables.js.callbacks key).countP (fun obs => obs = member.1) = 1 := by
  rw [← NapiCallbacksManager.getD_entryAt] at hmember
  have hsound := h.sound key
  rw [NapiCallbacksManager.getEnabledObservers_eq, ← NapiCallbacksManager.getD_entryAt]
  cases hentry : entryAt tables.js.callbacks key with
  | none => simp [hentry] at hmember
  | some joined =>
    rw [hentry, Option.getD_some] at hmember
    rw [Option.getD_some]
    obtain ⟨-, henabled, hnodup⟩ := hsound joined hentry
    have hobs : (joined.map Prod.fst).Nodup := by
      refine List.Nodup.of_map Observer.callback ?_
      rwa [List.map_map]
    rw [List.filter_eq_self.mpr henabled]
    exact List.count_eq_one_of_mem hobs (List.mem_map_of_mem hmember)

theorem toMatches (h : InStep cls subscriber tables) (hcls : cls.Lawful times) :
    Matches cls times subscriber tables where
  subscribed key hkey := by
    obtain ⟨o, -, hroles⟩ := h.linked.live_own key hkey
    have hmem : (subscriber, some o, true) ∈ ownRoles subscriber tables.native (cls.nativeKey key) :=
      hroles ▸ List.mem_singleton_self _
    obtain ⟨node, hnode, hrole⟩ := List.mem_map.mp (List.mem_of_mem_filter hmem)
    exact ⟨node, hnode, congrArg Prod.fst hrole⟩
  reached key change member hmember := by
    rw [hcls.told_emitted, h.countP_native (List.ne_nil_of_mem hmember), h.countP_js hmember,
      Nat.mul_one, Nat.mul_one]
  unsubscribed k hk := by
    by_contra hnone
    obtain ⟨node, hnode, hs⟩ := hk
    have hmem : role node ∈ ownRoles subscriber tables.native k :=
      List.mem_filter.mpr ⟨List.mem_map_of_mem hnode, decide_eq_true hs⟩
    rw [h.linked.dead_own k fun key hkey hcmp => hnone ⟨key, hcmp, hkey⟩] at hmem
    exact List.not_mem_nil hmem

/-! ## Calls -/

variable [Std.TransOrd τ] [Std.LawfulEqOrd τ]

/-- What the loop of a registration does to a sound table. -/
theorem registerLocal_sound {callbacks : Callbacks (ObserverMapKey τ)}
    (hsound : ∀ key, Sound (entryAt callbacks key)) (keys : List (ObserverMapKey τ))
    (observer : Observer) (key : ObserverMapKey τ) :
    Sound (entryAt (registerLocal keys observer callbacks).callbacks key) ∧
    (membersAt (registerLocal keys observer callbacks).callbacks key ≠ [] ↔
      membersAt callbacks key ≠ [] ∨
        key ∈ (registerLocal keys observer callbacks).firstRegisterKey) ∧
    (key ∈ (registerLocal keys observer callbacks).firstRegisterKey → key ∈ keys ∧
      membersAt callbacks key = [] ∧
      mentionCount key (registerLocal keys observer callbacks).firstRegisterKey = 1 ∧
      entryAt (registerLocal keys observer callbacks).callbacks key = some [(observer, true)]) := by
  have hat := NapiCallbacksManager.registerLocal_at key keys observer callbacks
  have hany := (hsound key).any_iff
  rw [NapiCallbacksManager.getD_entryAt] at hany
  have hfirst : key ∈ (registerLocal keys observer callbacks).firstRegisterKey ↔
      0 < mentionCount key (registerLocal keys observer callbacks).firstRegisterKey := by
    rw [mentionCount_pos, mentions_iff_mem]
  rw [hfirst, ← NapiCallbacksManager.getD_entryAt]
  by_cases hk : Mentions key keys
  · rw [if_pos hk] at hat
    obtain ⟨hentry, hcount⟩ := Prod.mk.inj hat
    have hjoin := (hsound key).join observer
    rw [NapiCallbacksManager.getD_entryAt] at hjoin
    rw [hentry, hcount, Option.getD_some]
    by_cases hlive : membersAt callbacks key = []
    · rw [if_neg fun h => hany.mp h hlive]
      refine ⟨hjoin, iff_of_true (NapiCallbacksManager.join_ne_nil _ _) (.inr Nat.one_pos),
        fun _ => ⟨mentions_iff_mem.mp hk, hlive, rfl, ?_⟩⟩
      rw [hlive]
      rfl
    · rw [if_pos (hany.mpr hlive)]
      exact ⟨hjoin, iff_of_true (NapiCallbacksManager.join_ne_nil _ _) (.inl hlive),
        fun hpos => absurd hpos (Nat.lt_irrefl 0)⟩
  · rw [if_neg hk] at hat
    obtain ⟨hentry, hcount⟩ := Prod.mk.inj hat
    rw [hentry, hcount, NapiCallbacksManager.getD_entryAt]
    exact ⟨hsound key, (or_iff_left (Nat.lt_irrefl 0)).symm,
      fun hpos => absurd hpos (Nat.lt_irrefl 0)⟩

/-- What the loop of a deletion does to a sound table. -/
theorem delLocal_sound {callbacks : Callbacks (ObserverMapKey τ)}
    (hsound : ∀ key, Sound (entryAt callbacks key)) (keys : List (ObserverMapKey τ))
    (deleted : Option Observer) (key : ObserverMapKey τ) :
    Sound (entryAt (delLocal delCodes keys deleted callbacks).callbacks key) ∧
    (membersAt (delLocal delCodes keys deleted callbacks).callbacks key ≠ [] ↔
      membersAt callbacks key ≠ [] ∧ key ∉ (delLocal delCodes keys deleted callbacks).lastDelKeys) ∧
    (key ∈ (delLocal delCodes keys deleted callbacks).lastDelKeys → membersAt callbacks key ≠ [] ∧
      Deletes key keys deleted ∧ leave deleted (membersAt callbacks key) = []) := by
  classical
  have hlive : key ∈ (delLocal delCodes keys deleted callbacks).lastDelKeys →
      membersAt callbacks key ≠ [] := by
    rw [← mentions_iff_mem, NapiCallbacksManager.mentions_lastDelKeys]
    rintro ⟨-, joined, hjoined, -⟩
    rw [← NapiCallbacksManager.getD_entryAt, entryAt, hjoined]
    exact (hsound key joined hjoined).1
  have hlast (hne : membersAt callbacks key ≠ []) :
      key ∈ (delLocal delCodes keys deleted callbacks).lastDelKeys ↔
        Deletes key keys deleted ∧ leave deleted (membersAt callbacks key) = [] := by
    rw [← mentions_iff_mem]
    exact NapiCallbacksManager.mentions_lastDelKeys_of_ne_nil hne
  refine ⟨?_, ?_, fun hkey => ⟨hlive hkey, (hlast (hlive hkey)).mp hkey⟩⟩
  · by_cases hall : keys = [] ∧ deleted = none
    · obtain ⟨rfl, rfl⟩ := hall
      have hnone : entryAt (delLocal delCodes [] none callbacks).callbacks key = none := rfl
      rw [hnone]
      exact fun joined hjoined => absurd hjoined (by simp)
    · rw [NapiCallbacksManager.entryAt_delLocal hall]
      split
      · exact (hsound key).leaveEntry deleted
      · exact hsound key
  · rw [NapiCallbacksManager.membersAt_delLocal]
    by_cases hnil : membersAt callbacks key = []
    · have hleave : leave deleted [] = [] := by cases deleted <;> rfl
      rw [hnil, hleave]
      simp
    · rw [hlast hnil]
      split
      · next hdel => simp [hnil, hdel]
      · next hdel => simp [hnil, hdel]

variable [Std.TransOrd κ]

theorem leaveEntry_self (observer : Observer) :
    NapiCallbacksManager.leaveEntry (some observer) (some [(observer, true)]) = none := by
  have hempties : NapiCallbacksManager.Empties (some observer) [(observer, true)] :=
    ⟨by simp [leave], .inr (List.cons_ne_nil _ _)⟩
  exact if_pos hempties

omit [Std.LawfulEqOrd τ] [Std.TransOrd τ] in
/-- The JS keys of the results that fail are those the service refuses. -/
theorem mem_failedKeys (subscriber : ℕ) (native : SubscriberManager κ ν) (answer : ℕ → Answer)
    (hcls : cls.Lawful times) {keys : List (ObserverMapKey τ)} {scope : τ}
    (hkeys : ∀ key ∈ keys, key.scope = scope ∧
      ∀ key' ∈ keys, SameNative key key' → key = key') (key : ObserverMapKey τ) :
    key ∈ failedKeys scope ((native.addObservers cls.native subscriber
        (keys.map ObserverMapKey.uri) scope answer).result.map
          fun r => ⟨cls.uriOf r.key, r.errCode⟩) ↔
      key ∈ keys ∧ Refused (requestsAt (cls.nativeKey key)
        (native.addObservers cls.native subscriber (keys.map ObserverMapKey.uri) scope
          answer).requests) := by
  have hmapped := Linked.map_keyOf_uri cls fun key hkey => (hkeys key hkey).1
  have hrequest {r : Request κ} (hr : r ∈ (native.addObservers cls.native subscriber
      (keys.map ObserverMapKey.uri) scope answer).requests) :
      ∃ key ∈ keys, cls.nativeKey key = r.key := by
    have hmem := CallbacksManager.key_mem_of_mem_requests hr
    rw [hmapped] at hmem
    exact List.mem_map.mp hmem
  have huri {key : ObserverMapKey τ} (hkey : key ∈ keys) :
      (⟨cls.uriOf (cls.nativeKey key), scope⟩ : ObserverMapKey τ) = key := by
    rw [NapiClass.nativeKey, hcls.uriOf_keyOf, ← (hkeys key hkey).1]
  constructor
  · intro hmem
    obtain ⟨result, hresult, rfl⟩ := List.mem_map.mp hmem
    obtain ⟨hresult, herr⟩ := List.mem_filter.mp hresult
    obtain ⟨r, hr, rfl⟩ := List.mem_map.mp hresult
    obtain ⟨request, hsent, hrefused, hsame⟩ := CallbacksManager.mem_failed_addObservers.mp
      ⟨r, hr, of_decide_eq_true herr, rfl⟩
    obtain ⟨key, hkey, hnative⟩ := hrequest hsent
    dsimp only
    rw [← hsame, ← hnative, huri hkey]
    refine ⟨hkey, request, List.mem_filter.mpr ⟨hsent, decide_eq_true ?_⟩, hrefused⟩
    rw [hnative]
    exact Std.ReflCmp.compare_self
  · rintro ⟨hkey, request, hsent, hrefused⟩
    obtain ⟨hsent, hcmp⟩ := List.mem_filter.mp hsent
    obtain ⟨key', hkey', hnative⟩ := hrequest hsent
    rw [← hnative, decide_eq_true_eq, hcls.compare_nativeKey] at hcmp
    obtain rfl := (hkeys key hkey).2 key' hkey' hcmp
    obtain ⟨r, hr, herr, hsame⟩ := CallbacksManager.mem_failed_addObservers.mpr
      ⟨request, hsent, hrefused, hnative.symm⟩
    refine List.mem_map.mpr ⟨⟨cls.uriOf r.key, r.errCode⟩, List.mem_filter.mpr
      ⟨List.mem_map_of_mem hr, decide_eq_true herr⟩, ?_⟩
    dsimp only
    rw [hsame, huri hkey]

theorem addObservers (h : InStep cls subscriber tables) (hcls : cls.Lawful times) (callback : ℕ)
    (uris : List StdString) (scope : τ) (proxy : Bool) (answer : ℕ → Answer)
    (hkeeps : Keeps subscriber tables ⟨.addObservers callback uris scope, proxy, answer⟩) :
    InStep cls subscriber
      (Napi.addObservers cls subscriber callback uris scope proxy answer tables).tables := by
  have hadd := registerLocal_sound h.sound (uris.map fun uri => ⟨uri, scope⟩)
    ⟨tables.js.made, callback⟩
  unfold Napi.addObservers
  dsimp only
  generalize registerLocal (uris.map fun uri => ⟨uri, scope⟩) ⟨tables.js.made, callback⟩
    tables.js.callbacks = added at hadd ⊢
  split
  · next hnone =>
    refine ⟨fun key => (hadd key).1, h.linked.congr fun key => (hadd key).2.1.trans ?_⟩
    rw [List.isEmpty_iff.mp hnone]
    exact or_iff_left List.not_mem_nil
  · next hfirst =>
    have hne := mt List.isEmpty_iff.mpr hfirst
    have huri {key : ObserverMapKey τ} (hkey : key ∈ added.firstRegisterKey) :
        ∃ uri ∈ uris, (⟨uri, scope⟩ : ObserverMapKey τ) = key :=
      List.mem_map.mp ((hadd key).2.2 hkey).1
    have hkeys (key) (hkey : key ∈ added.firstRegisterKey) :
        ¬ membersAt tables.js.callbacks key ≠ [] ∧ key.scope = scope ∧
          mentionCount key added.firstRegisterKey = 1 ∧
          ∀ key', key' ∈ added.firstRegisterKey ∨ membersAt tables.js.callbacks key' ≠ [] →
            SameNative key key' → key = key' := by
      obtain ⟨-, hdead, hcount, -⟩ := (hadd key).2.2 hkey
      obtain ⟨uri, hmem, rfl⟩ := huri hkey
      refine ⟨not_not.mpr hdead, rfl, hcount, fun key' hkey' hsame => ?_⟩
      obtain ⟨uri', scope'⟩ := key'
      obtain ⟨hclear, rfl⟩ := hsame
      have heq : uri = uri' := by
        refine (hkeeps uri hmem hdead).2 uri' (hkey'.imp_left fun hmem' => ?_) hclear
        obtain ⟨other, hother, hsame⟩ := huri hmem'
        exact (ObserverMapKey.mk.inj hsame).1 ▸ hother
      rw [heq]
    obtain ⟨first, hmem⟩ := List.exists_mem_of_ne_nil _ hne
    obtain rfl : proxy = true := by
      obtain ⟨-, hdead, -⟩ := (hadd first).2.2 hmem
      obtain ⟨uri, huri, rfl⟩ := huri hmem
      exact (hkeeps uri huri hdead).1
    have hfailed (key) := mem_failedKeys subscriber tables.native answer hcls (fun key hkey =>
      ⟨(hkeys key hkey).2.1, fun key' hkey' => (hkeys key hkey).2.2.2 key' (.inl hkey')⟩) key
    have hlinked := h.linked.subscribed hcls hkeys answer
    simp only [subscribe, if_true]
    obtain ⟨lastMap, hjs⟩ := hcls.receive_js _ _
    rw [hjs]
    dsimp only
    generalize failedKeys scope _ = failed at hfailed ⊢
    have hentry (key) : entryAt (delLocal delCodes failed (some ⟨tables.js.made, callback⟩)
        added.callbacks).callbacks key =
          if Mentions key failed then none else entryAt added.callbacks key := by
      rw [NapiCallbacksManager.entryAt_delLocal (by simp)]
      split
      · next hmem =>
        obtain ⟨-, -, -, hjoined⟩ := (hadd key).2.2 ((hfailed key).mp (mentions_iff_mem.mp hmem)).1
        rw [hjoined, leaveEntry_self]
      · rfl
    refine ⟨fun key => ?_, hlinked.congr fun key => ?_⟩
    · dsimp only
      rw [hentry]
      split
      · exact fun joined hjoined => absurd hjoined (by simp)
      · exact (hadd key).1
    · dsimp only
      rw [← NapiCallbacksManager.getD_entryAt, hentry]
      have hlive := (hadd key).2.1
      have hdead (hmem : key ∈ added.firstRegisterKey) := ((hadd key).2.2 hmem).2.1
      have hmentions := Iff.trans (mentions_iff_mem (k := key)) (hfailed key)
      by_cases hk : Mentions key failed
      · obtain ⟨hmem, hrefused⟩ := hmentions.mp hk
        rw [if_pos hk]
        exact iff_of_false (not_not.mpr rfl)
          fun h => h.elim (fun hne => hne (hdead hmem)) fun h => h.2 hrefused
      · rw [if_neg hk, NapiCallbacksManager.getD_entryAt, hlive]
        exact or_congr_right
          ⟨fun hmem => ⟨hmem, fun href => hk (hmentions.mpr ⟨hmem, href⟩)⟩, And.left⟩

theorem delObservers (h : InStep cls subscriber tables) (hcls : cls.Lawful times)
    (callback : Option ℕ) (uris : List StdString) (scope : τ) (proxy : Bool) (answer : ℕ → Answer)
    (hkeeps : Keeps subscriber tables ⟨.delObservers callback uris scope, proxy, answer⟩) :
    InStep cls subscriber
      (Napi.delObservers cls subscriber callback uris scope proxy answer tables).tables := by
  have hdel := delLocal_sound h.sound (uris.map fun uri => ⟨uri, scope⟩)
    (callback.map (Observer.mk tables.js.made))
  unfold Napi.delObservers
  dsimp only
  split
  · next hnone =>
    refine ⟨fun key => (hdel key).1, h.linked.congr fun key => (hdel key).2.1.trans ?_⟩
    rw [List.isEmpty_iff.mp hnone]
    exact and_iff_left List.not_mem_nil
  · next hlast =>
    have hne := mt List.isEmpty_iff.mpr hlast
    have hkeys (key) (hkey : key ∈ (delLocal delCodes (uris.map fun uri => ⟨uri, scope⟩)
        (callback.map (Observer.mk tables.js.made)) tables.js.callbacks).lastDelKeys) :
        proxy = true ∧ key.scope = scope :=
      hkeeps key ((hdel key).2.2 hkey).1 ((hdel key).2.2 hkey).2.1 ((hdel key).2.2 hkey).2.2
    obtain ⟨first, hfirst⟩ := List.exists_mem_of_ne_nil _ hne
    obtain rfl := (hkeys first hfirst).1
    exact ⟨fun key => (hdel key).1, (h.linked.unsubscribed hcls hne
      (fun key hkey => ⟨((hdel key).2.2 hkey).1, (hkeys key hkey).2⟩) answer).congr
        fun key => (hdel key).2.1⟩

omit [Std.LawfulEqOrd τ] in
theorem native (h : InStep cls subscriber tables) (hcls : cls.Lawful times)
    (call : SubscriberCall τ ν) (proxy : Bool) (answer : ℕ → Answer)
    (hkeeps : call.caller ≠ some subscriber) :
    InStep cls subscriber
      (NapiExchange.outcome cls subscriber tables ⟨.native call, proxy, answer⟩).tables := by
  obtain ⟨lastMap, hjs⟩ := hcls.receive_js
    (SubscriberExchange.outcome cls.native tables.native ⟨call, answer⟩).calls tables.js
  have hlinked := h.linked.other hcls (x := ⟨call, answer⟩) hkeeps
  unfold NapiExchange.outcome
  dsimp only
  rw [hjs]
  exact ⟨h.sound, hlinked⟩

theorem step (h : InStep cls subscriber tables) (hcls : cls.Lawful times) {x : NapiExchange τ ν}
    (hkeeps : Keeps subscriber tables x) :
    InStep cls subscriber (x.step cls subscriber tables).1 := by
  obtain ⟨call, proxy, answer⟩ := x
  cases call with
  | addObservers callback uris scope =>
    exact h.addObservers hcls callback uris scope proxy answer hkeeps
  | delObservers callback uris scope =>
    exact h.delObservers hcls callback uris scope proxy answer hkeeps
  | native call => exact h.native hcls call proxy answer hkeeps

end InStep

/-! ## Runs -/

section Runs

variable [Std.TransOrd τ] [Std.TransOrd κ]

/-- The tables after calls, from those of a new helper in a new process. -/
def tablesAfter (cls : NapiClass τ κ ν) (subscriber : ℕ) (calls : List (NapiExchange τ ν)) :
    NapiTables τ κ ν :=
  (runCalls (NapiExchange.step cls subscriber) ⟨.new, .new⟩ calls).1

omit [Std.TransOrd τ] [Std.TransOrd κ] in
theorem inStep_new (cls : NapiClass τ κ ν) (subscriber : ℕ) :
    InStep cls subscriber ⟨.new, .new⟩ where
  sound _ := fun _ h => absurd h (by exact Option.not_mem_none _)
  linked :=
    { separate := fun _ _ h => absurd rfl h
      live_own := fun _ h => absurd rfl h
      dead_own := fun _ _ => rfl
      owned := fun _ _ h => absurd h List.not_mem_nil
      made := fun _ _ h => absurd h List.not_mem_nil
      subscriptions_made := fun _ h => absurd h List.not_mem_nil }

/-- Every call is made in tables that it keeps in step. -/
abbrev KeptRun (cls : NapiClass τ κ ν) (subscriber : ℕ) (calls : List (NapiExchange τ ν)) : Prop :=
  AllowedRun (NapiExchange.step cls subscriber) (Keeps subscriber) ⟨.new, .new⟩ calls

theorem matches_tablesAfter [Std.LawfulEqOrd τ] {cls : NapiClass τ κ ν}
    {times : ObserverMapKey τ → ν → ℕ} (hcls : cls.Lawful times) {subscriber : ℕ}
    {calls : List (NapiExchange τ ν)} (h : KeptRun cls subscriber calls) :
    Matches cls times subscriber (tablesAfter cls subscriber calls) := by
  have hstep : InStep cls subscriber (tablesAfter cls subscriber calls) :=
    h.invariant (P := fun tables _ => InStep cls subscriber tables) (inStep_new cls subscriber)
      fun tables _ x hkeeps hinv => hinv.step hcls hkeeps
  exact hstep.toMatches hcls

end Runs

/-- Both managers keep their tables in step with the native ones. -/
theorem js_tables_match {δ : Type} (subscriber : ℕ) :
    (∀ calls : List (NapiExchange TemplateId (RdbChangeNode δ)),
      KeptRun NapiRdbSubscriberManager.cls subscriber calls →
      Matches NapiRdbSubscriberManager.cls NapiRdbSubscriberManager.times subscriber
        (tablesAfter NapiRdbSubscriberManager.cls subscriber calls)) ∧
    ∀ calls : List (NapiExchange Int64 (PublishedDataChangeNode δ)),
      KeptRun NapiPublishedSubscriberManager.cls subscriber calls →
      Matches NapiPublishedSubscriberManager.cls NapiPublishedSubscriberManager.times subscriber
        (tablesAfter NapiPublishedSubscriberManager.cls subscriber calls) :=
  ⟨fun _ h => matches_tablesAfter NapiRdbSubscriberManager.lawful h,
    fun _ h => matches_tablesAfter NapiPublishedSubscriberManager.lawful h⟩

/-- The uri `u`, subscribed for the first time. -/
def firstAdd (scope : τ) (proxy : Bool) : NapiExchange τ ν :=
  ⟨.addObservers 1 [[117]] scope, proxy, fun _ => .replied errOk⟩

theorem keptRun_firstAdd [Std.TransOrd τ] [Std.TransOrd κ] (cls : NapiClass τ κ ν)
    (subscriber : ℕ) (scope : τ) : KeptRun cls subscriber [firstAdd scope true] := by
  refine allowedRun_concat.mpr ⟨allowedRun_nil, fun uri huri _ => ⟨rfl, fun uri' huri' _ => ?_⟩⟩
  rcases huri' with huri' | hlive
  · rw [List.mem_singleton.mp huri, List.mem_singleton.mp huri']
  · exact absurd rfl hlive

/-- A change of the uri. -/
def changedCalls (scope : τ) (change : ν) : List (NapiExchange τ ν) :=
  [firstAdd scope true] ++ [⟨.native (.emit change), true, fun _ => .replied errOk⟩]

/-- A second callback joins, and the first one leaves. -/
def sharedCalls (scope : τ) (change : ν) : List (NapiExchange τ ν) :=
  changedCalls scope change ++ [⟨.addObservers 2 [[117]] scope, true, fun _ => .replied errOk⟩] ++
    [⟨.delObservers (some 1) [[117]] scope, true, fun _ => .replied errOk⟩]

theorem keptRun_sharedCalls [Std.TransOrd τ] [Std.TransOrd κ] [Std.LawfulEqOrd τ]
    (cls : NapiClass τ κ ν) (subscriber : ℕ) (scope : τ) (change : ν)
    (hlive : membersAt (tablesAfter cls subscriber (changedCalls scope change)).js.callbacks
      ⟨[117], scope⟩ ≠ []) :
    KeptRun cls subscriber (sharedCalls scope change) := by
  have hchange : KeptRun cls subscriber (changedCalls scope change) :=
    allowedRun_concat.mpr
      ⟨keptRun_firstAdd cls subscriber scope, fun h => absurd h.symm (Option.some_ne_none subscriber)⟩
  have hadd : KeptRun cls subscriber (changedCalls scope change ++
      [⟨.addObservers 2 [[117]] scope, true, fun _ => .replied errOk⟩]) := by
    refine allowedRun_concat.mpr ⟨hchange, fun uri huri hempty => ?_⟩
    rw [List.mem_singleton.mp huri] at hempty
    exact absurd hempty hlive
  refine allowedRun_concat.mpr ⟨hadd, fun key _ hdeletes _ => ⟨rfl, ?_⟩⟩
  rcases hdeletes with ⟨key', hmem, heq⟩ | ⟨hnil, -⟩
  · rw [Std.LawfulEqOrd.eq_of_compare heq, List.mem_singleton.mp hmem]
  · exact absurd hnil (List.cons_ne_nil _ _)

theorem js_tables_match_after_changes :
    Matches NapiRdbSubscriberManager.cls NapiRdbSubscriberManager.times 100
      (tablesAfter NapiRdbSubscriberManager.cls 100
        (sharedCalls Cpp.RdbSubscriberManager.someTemplate
          (⟨[117], Cpp.RdbSubscriberManager.someTemplate, 5⟩ : RdbChangeNode ℕ))) ∧
    Matches NapiPublishedSubscriberManager.cls NapiPublishedSubscriberManager.times 100
      (tablesAfter NapiPublishedSubscriberManager.cls 100
        (sharedCalls 7 (⟨[], [⟨[117], 7, 5⟩]⟩ : PublishedDataChangeNode ℕ))) :=
  ⟨(js_tables_match 100).1 _ (keptRun_sharedCalls _ 100 _ _ (by decide +kernel)),
    (js_tables_match 100).2 _ (keptRun_sharedCalls _ 100 _ _ (by decide +kernel))⟩

/-- Without a proxy of the service, the observer is kept and nothing subscribed. -/
theorem js_tables_mismatch :
    ¬ ∀ (subscriber : ℕ) (calls : List (NapiExchange TemplateId (RdbChangeNode ℕ))),
      (∀ x ∈ calls, ∀ call, x.call ≠ .native call) →
      Matches NapiRdbSubscriberManager.cls NapiRdbSubscriberManager.times subscriber
        (tablesAfter NapiRdbSubscriberManager.cls subscriber calls) := by
  intro hall
  have hcall (x) (hx : x ∈ [firstAdd (ν := RdbChangeNode ℕ)
      Cpp.RdbSubscriberManager.someTemplate false]) (call) : x.call ≠ .native call := by
    rw [List.mem_singleton.mp hx]
    simp [firstAdd]
  have hmatches := hall 100 _ hcall
  have hlive : membersAt (tablesAfter NapiRdbSubscriberManager.cls 100
      [firstAdd (ν := RdbChangeNode ℕ) Cpp.RdbSubscriberManager.someTemplate
        false]).js.callbacks ⟨[117], Cpp.RdbSubscriberManager.someTemplate⟩ ≠ [] := by
    decide +kernel
  obtain ⟨node, hnode, -⟩ := hmatches.subscribed _ hlive
  exact List.not_mem_nil hnode

end Napi

end DataShare
