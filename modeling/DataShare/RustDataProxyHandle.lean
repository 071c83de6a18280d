import DataShare.History
import DataShare.OrderedMap
import DataShare.RustProxyData

/-!
# Proxy-data subscriptions of the Rust handles

A `DataProxyHandle` subscribes and unsubscribes through the one `ProxyDataSubscriberManager` of the
process, which keeps for each URI the observers to call. The handles are empty structs and all pass
the subscriber number `0`. `add_observers` stores an observer for every URI and then subscribes all of
them at the service, whatever the service answers for each ; `del_observers` and `del_all_observers`
take observers out of the table, do not call the service and return no results.

`Answered` says what a call should do : a URI without observers is not subscribed at the service, a
refused subscription leaves no observer behind, a handle leaves the observers of the others alone, and
each requested URI has its result. `subscriptions_match` : this holds of every call of a history if and
only if every URI of a subscription is accepted and nothing is ever unsubscribed (`Accepted`).
`answered_unsubscribe` says which of these an unsubscription keeps.
-/

namespace DataShare

namespace Rust

/-- `DataProxyResult`. -/
structure DataProxyResult where
  uri : String
  result : DataProxyErrorCode
deriving DecidableEq

namespace DataProxyHandle

variable {κ : Type}

/-- A `SubscriberEntry`. `handle` is the handle whose call stored it ; it is not in the source, and
none of the functions below reads it. -/
structure SubscriberEntry (κ : Type) where
  subscriber : UInt64
  observer : κ
  handle : ℕ
deriving DecidableEq

/-- `callbacks`, with its vectors. -/
abbrev Callbacks (κ : Type) :=
  OrderedMap String (List (SubscriberEntry κ))

/-- The observers of a URI. -/
def Callbacks.entriesAt (callbacks : Callbacks κ) (uri : String) : List (SubscriberEntry κ) :=
  (callbacks.find? uri).getD []

/-- What the service answers for each URI of a `SubscribeProxyData` request ; a request that cannot be
sent is answered `innerError` for all of them. -/
abbrev Service :=
  String → DataProxyErrorCode

/-- The table of the manager, and the URIs the service calls the stub of the process back for. -/
structure World (κ : Type) where
  callbacks : Callbacks κ
  remote : List String

def World.init : World κ :=
  ⟨.empty, []⟩

abbrev World.entriesAt (world : World κ) (uri : String) : List (SubscriberEntry κ) :=
  world.callbacks.entriesAt uri

/-- `subscribe_proxy_data` of the service proxy. -/
def World.subscribeAtService (world : World κ) (service : Service) (uris : List String) :
    World κ × List DataProxyResult :=
  ({ world with remote := world.remote ++ uris.filter (service · = .success) },
    uris.map fun uri => ⟨uri, service uri⟩)

/-- The loop of `add_observers`. -/
def pushEntries (callbacks : Callbacks κ) (uris : List String) (entry : SubscriberEntry κ) :
    Callbacks κ :=
  uris.foldl (fun callbacks uri => callbacks.upsert uri fun old => old.getD [] ++ [entry]) callbacks

/-- `add_observers(subscriber, proxy, uris, callback)`. -/
def World.addObservers (world : World κ) (subscriber : UInt64) (service : Service)
    (uris : List String) (callback : κ) (handle : ℕ) : World κ × List DataProxyResult :=
  let entry : SubscriberEntry κ := ⟨subscriber, callback, handle⟩
  { world with callbacks := pushEntries world.callbacks uris entry }.subscribeAtService service uris

/-- One turn of the loop of `del_observers`. -/
def retainAt (subscriber : UInt64) (callbacks : Callbacks κ) (uri : String) : Callbacks κ :=
  match callbacks.find? uri with
  | none => callbacks
  | some entries =>
    let entries := entries.filter (·.subscriber ≠ subscriber)
    if entries.isEmpty then callbacks.erase uri else callbacks.assign uri entries

/-- `del_observers(subscriber, proxy, uris)`. -/
def World.delObservers (world : World κ) (subscriber : UInt64) (uris : List String) :
    World κ × List DataProxyResult :=
  ({ world with callbacks := uris.foldl (retainAt subscriber) world.callbacks }, [])

/-- `del_all_observers(subscriber, proxy)`. -/
def World.delAllObservers (world : World κ) (subscriber : UInt64) :
    World κ × List DataProxyResult :=
  let retained := world.callbacks.mapValues fun _ entries =>
    entries.filter (·.subscriber ≠ subscriber)
  ({ world with callbacks := retained.filterValues (!·.isEmpty) }, [])

/-- A call by a handle ; `proxy` is what `get_service_proxy` gives it. No handle calls
`del_all_observers`, which is here with the number it is given. -/
inductive Call (κ : Type)
  | subscribeProxyData (handle : ℕ) (proxy : Option Service) (uris : List String) (callback : κ)
  | unsubscribeProxyData (handle : ℕ) (proxy : Option Service) (uris : List String)
  | delAllObservers (handle : ℕ) (subscriber : UInt64)

/-- The world after a call, and what the call returns. -/
def World.step (world : World κ) : Call κ → World κ × List DataProxyResult
  | .subscribeProxyData _ none _ _ => (world, [])
  | .subscribeProxyData handle (some service) uris callback =>
    world.addObservers 0 service uris callback handle
  | .unsubscribeProxyData _ none _ => (world, [])
  | .unsubscribeProxyData _ (some _) uris => world.delObservers 0 uris
  | .delAllObservers _ subscriber => world.delAllObservers subscriber

/-- The world after `calls`. -/
def World.run (calls : List (Call κ)) : World κ :=
  calls.foldl (fun world call => (world.step call).1) .init

/-! ## What a call should do -/

/-- The URIs a call names. -/
def Call.uris : Call κ → List String
  | .subscribeProxyData _ _ uris _ => uris
  | .unsubscribeProxyData _ _ uris => uris
  | .delAllObservers _ _ => []

/-- A URI without local observers is not subscribed at the service. -/
def World.Unsubscribed (world : World κ) : Prop :=
  ∀ uri, world.entriesAt uri = [] → uri ∉ world.remote

/-- A refused URI has no observer it did not have before. -/
def RollsBack (world : World κ) : Call κ → Prop
  | .subscribeProxyData handle (some service) uris callback =>
    let world' := (world.step (.subscribeProxyData handle (some service) uris callback)).1
    ∀ uri ∈ uris, service uri ≠ .success →
      (world'.entriesAt uri).Sublist (world.entriesAt uri)
  | _ => True

/-- The observers of the other handles stay. -/
def LeavesOthers (world world' : World κ) (handle : ℕ) : Prop :=
  ∀ uri, (world'.entriesAt uri).filter (·.handle ≠ handle) =
    (world.entriesAt uri).filter (·.handle ≠ handle)

/-- An unsubscription leaves the observers of the other handles. -/
def KeepsOthers (world : World κ) : Call κ → Prop
  | .subscribeProxyData _ _ _ _ => True
  | .unsubscribeProxyData handle proxy uris =>
    LeavesOthers world (world.step (.unsubscribeProxyData handle proxy uris)).1 handle
  | .delAllObservers handle subscriber =>
    LeavesOthers world (world.step (.delAllObservers handle subscriber)).1 handle

/-- The call does what it should. -/
structure Answered (world : World κ) (call : Call κ) : Prop where
  unsubscribed : (world.step call).1.Unsubscribed
  rollsBack : RollsBack world call
  keepsOthers : KeepsOthers world call
  oneResult : (world.step call).2.map (·.uri) = call.uris

/-- The service accepts every URI of a subscription, an unsubscription names no URI, and nothing is
stored under a number that is deleted. -/
def Accepted (world : World κ) : Call κ → Prop
  | .subscribeProxyData _ none uris _ => uris = []
  | .subscribeProxyData _ (some service) uris _ => ∀ uri ∈ uris, service uri = .success
  | .unsubscribeProxyData _ _ uris => uris = []
  | .delAllObservers _ subscriber =>
    ∀ uri, ∀ entry ∈ world.entriesAt uri, entry.subscriber ≠ subscriber

/-! ## The table after the loops -/

theorem entriesAt_pushEntries (entry : SubscriberEntry κ) (uri : String) :
    ∀ (uris : List String) (callbacks : Callbacks κ),
      (pushEntries callbacks uris entry).entriesAt uri =
        callbacks.entriesAt uri ++ List.replicate (uris.count uri) entry
  | [], callbacks => by simp [pushEntries]
  | u :: uris, callbacks => by
    have ih := entriesAt_pushEntries entry uri uris
      (callbacks.upsert u fun old => old.getD [] ++ [entry])
    rw [pushEntries] at ih ⊢
    rw [List.foldl_cons, ih, Callbacks.entriesAt, OrderedMap.find?_upsert]
    by_cases hu : uri = u
    · subst hu
      simp [Callbacks.entriesAt, List.replicate_succ]
    · rw [if_neg (mt Std.LawfulEqOrd.compare_eq_iff_eq.mp hu), List.count_cons_of_ne (Ne.symm hu),
        Callbacks.entriesAt]

theorem entriesAt_retainAt (subscriber : UInt64) (callbacks : Callbacks κ) (u uri : String) :
    (retainAt subscriber callbacks u).entriesAt uri =
      if uri = u then (callbacks.entriesAt uri).filter (·.subscriber ≠ subscriber)
      else callbacks.entriesAt uri := by
  unfold retainAt
  cases hfind : callbacks.find? u with
  | none =>
    by_cases hu : uri = u
    · simp [hu, Callbacks.entriesAt, hfind]
    · rw [if_neg hu]
  | some entries =>
    dsimp only
    by_cases hu : uri = u
    · subst hu
      rw [if_pos rfl]
      split
      · rename_i hempty
        rw [Callbacks.entriesAt, OrderedMap.find?_erase,
          if_pos (Std.LawfulEqOrd.compare_eq_iff_eq.mpr rfl), Callbacks.entriesAt, hfind]
        exact (List.isEmpty_iff.mp hempty).symm
      · rw [Callbacks.entriesAt, OrderedMap.find?_assign,
          if_pos (Std.LawfulEqOrd.compare_eq_iff_eq.mpr rfl), Callbacks.entriesAt, hfind,
          Option.getD_some, Option.getD_some]
    · have hne : ¬ compare uri u = .eq := mt Std.LawfulEqOrd.compare_eq_iff_eq.mp hu
      rw [if_neg hu]
      split
      · rw [Callbacks.entriesAt, OrderedMap.find?_erase, if_neg hne, Callbacks.entriesAt]
      · rw [Callbacks.entriesAt, OrderedMap.find?_assign, if_neg hne, Callbacks.entriesAt]

theorem entriesAt_foldl_retainAt (subscriber : UInt64) (uri : String) :
    ∀ (uris : List String) (callbacks : Callbacks κ),
      Callbacks.entriesAt (uris.foldl (retainAt subscriber) callbacks) uri =
        if uri ∈ uris then (callbacks.entriesAt uri).filter (·.subscriber ≠ subscriber)
        else callbacks.entriesAt uri
  | [], callbacks => by simp
  | u :: uris, callbacks => by
    rw [List.foldl_cons, entriesAt_foldl_retainAt subscriber uri uris, entriesAt_retainAt]
    by_cases hu : uri = u
    · simp [hu]
    · simp [hu]

theorem entriesAt_delAllObservers (world : World κ) (subscriber : UInt64) (uri : String) :
    (world.delAllObservers subscriber).1.entriesAt uri =
      (world.entriesAt uri).filter (·.subscriber ≠ subscriber) := by
  have hmap := OrderedMap.find?_mapValues (fun (_ : String) (entries : List (SubscriberEntry κ)) =>
    entries.filter (·.subscriber ≠ subscriber)) (fun _ => rfl) uri world.callbacks
  unfold World.delAllObservers World.entriesAt Callbacks.entriesAt
  dsimp only
  rw [OrderedMap.find?_filterValues, hmap]
  cases world.callbacks.find? uri with
  | none => rfl
  | some entries =>
    rw [Option.map_some, Option.getD_some]
    cases hkept : entries.filter (·.subscriber ≠ subscriber) with
    | nil => rfl
    | cons entry kept => rfl

/-! ## Histories -/

/-- Every observer is stored under the number the handles pass. -/
def World.OneNumber (world : World κ) : Prop :=
  ∀ uri, ∀ entry ∈ world.entriesAt uri, entry.subscriber = 0

/-- The service knows exactly the URIs with observers. -/
def World.Faithful (world : World κ) : Prop :=
  ∀ uri, uri ∈ world.remote ↔ world.entriesAt uri ≠ []

theorem World.Faithful.unsubscribed {world : World κ} (h : world.Faithful) : world.Unsubscribed :=
  fun uri hempty hmem => (h uri).mp hmem hempty

/-- Deleting the number of all the observers leaves none of them. -/
theorem World.OneNumber.filter_eq_nil {world : World κ} (h : world.OneNumber) (uri : String) :
    (world.entriesAt uri).filter (·.subscriber ≠ 0) = [] := by
  refine List.filter_eq_nil_iff.mpr fun entry hentry => ?_
  simp [h uri entry hentry]

/-- Deleting a number takes all the observers of a URI or none. -/
theorem World.OneNumber.filter_eq {world : World κ} (h : world.OneNumber) (uri : String)
    (subscriber : UInt64) :
    (world.entriesAt uri).filter (·.subscriber ≠ subscriber) = world.entriesAt uri ∨
      (world.entriesAt uri).filter (·.subscriber ≠ subscriber) = [] := by
  by_cases hsub : subscriber = 0
  · exact Or.inr (hsub ▸ h.filter_eq_nil uri)
  · refine Or.inl (List.filter_eq_self.mpr fun entry hentry => ?_)
    rw [h uri entry hentry]
    exact decide_eq_true (Ne.symm hsub)

section Step
variable {world : World κ} {handle : ℕ} {service : Service} {uris : List String} {callback : κ}

theorem entriesAt_subscribe (uri : String) :
    (world.step (.subscribeProxyData handle (some service) uris callback)).1.entriesAt uri =
      world.entriesAt uri ++ List.replicate (uris.count uri) ⟨0, callback, handle⟩ :=
  entriesAt_pushEntries _ uri uris world.callbacks

theorem entriesAt_unsubscribe (hone : world.OneNumber) (uri : String) :
    (world.step (.unsubscribeProxyData handle (some service) uris)).1.entriesAt uri =
      if uri ∈ uris then [] else world.entriesAt uri := by
  refine (entriesAt_foldl_retainAt 0 uri uris world.callbacks).trans ?_
  rw [hone.filter_eq_nil uri]

theorem oneNumber_step (hone : world.OneNumber) (call : Call κ) : (world.step call).1.OneNumber := by
  intro uri entry hentry
  cases call with
  | subscribeProxyData handle proxy uris callback =>
    cases proxy with
    | none => exact hone uri entry hentry
    | some service =>
      rw [entriesAt_subscribe] at hentry
      rcases List.mem_append.mp hentry with h | h
      · exact hone uri entry h
      · rw [List.eq_of_mem_replicate h]
  | unsubscribeProxyData handle proxy uris =>
    cases proxy with
    | none => exact hone uri entry hentry
    | some service =>
      rw [entriesAt_unsubscribe hone] at hentry
      split at hentry
      · exact absurd hentry List.not_mem_nil
      · exact hone uri entry hentry
  | delAllObservers handle subscriber =>
    refine hone uri entry ?_
    rw [World.step, entriesAt_delAllObservers] at hentry
    exact List.mem_of_mem_filter hentry

/-- What an unsubscription keeps of what it should : the observers of the other handles stay if and
only if they have none for its URIs, and its URIs have no observers left but keep their
subscriptions at the service. -/
theorem answered_unsubscribe (hone : world.OneNumber) (hfaithful : world.Faithful) :
    (KeepsOthers world (.unsubscribeProxyData handle (some service) uris) ↔
      ∀ uri ∈ uris, ∀ entry ∈ world.entriesAt uri, entry.handle = handle) ∧
    ((world.step (.unsubscribeProxyData handle (some service) uris)).1.Unsubscribed ↔
      ∀ uri ∈ uris, world.entriesAt uri = []) := by
  constructor
  · constructor
    · intro h uri huri entry hentry
      by_contra hne
      have hkept := h uri
      rw [entriesAt_unsubscribe hone, if_pos huri] at hkept
      have hmem : entry ∈ (world.entriesAt uri).filter (·.handle ≠ handle) :=
        List.mem_filter.mpr ⟨hentry, decide_eq_true hne⟩
      rw [← hkept] at hmem
      exact List.not_mem_nil hmem
    · intro h uri
      rw [entriesAt_unsubscribe hone]
      split
      · rename_i huri
        refine (List.filter_eq_nil_iff.mpr fun entry hentry => ?_).symm
        simp [h uri huri entry hentry]
      · rfl
  · constructor
    · intro h uri huri
      by_contra hne
      refine h uri ?_ ((hfaithful uri).mpr hne)
      rw [entriesAt_unsubscribe hone, if_pos huri]
    · intro h uri hempty hmem
      rw [entriesAt_unsubscribe hone] at hempty
      refine (hfaithful uri).mp hmem ?_
      split at hempty
      · rename_i huri
        exact h uri huri
      · exact hempty

theorem rollsBack_subscribe_iff :
    RollsBack world (.subscribeProxyData handle (some service) uris callback) ↔
      ∀ uri ∈ uris, service uri = .success := by
  constructor
  · intro h uri huri
    by_contra hne
    have hlength := (h uri huri hne).length_le
    rw [entriesAt_subscribe, List.length_append, List.length_replicate] at hlength
    have hcount := List.count_pos_iff.mpr huri
    omega
  · exact fun h uri huri hne => absurd (h uri huri) hne

/-- An accepted subscription stores and subscribes the same URIs. -/
theorem faithful_subscribe (hfaithful : world.Faithful) (h : ∀ uri ∈ uris, service uri = .success) :
    (world.step (.subscribeProxyData handle (some service) uris callback)).1.Faithful := by
  intro uri
  have hremote : (world.step (.subscribeProxyData handle (some service) uris callback)).1.remote =
      world.remote ++ uris.filter (service · = .success) := rfl
  rw [entriesAt_subscribe, hremote, List.filter_eq_self.mpr fun u hu => decide_eq_true (h u hu),
    List.mem_append, hfaithful uri]
  simp only [ne_eq, List.append_eq_nil_iff, List.replicate_eq_nil_iff, List.count_eq_zero,
    not_and_or, not_not]

/-- Deleting a number nothing is stored under changes no list. -/
theorem entriesAt_delAll_of_ne {subscriber : UInt64} {uri : String}
    (h : ∀ entry ∈ world.entriesAt uri, entry.subscriber ≠ subscriber) :
    (world.step (.delAllObservers handle subscriber)).1.entriesAt uri = world.entriesAt uri :=
  (entriesAt_delAllObservers world subscriber uri).trans
    (List.filter_eq_self.mpr fun entry hentry => decide_eq_true (h entry hentry))

theorem answered_iff (hone : world.OneNumber) (hfaithful : world.Faithful) (call : Call κ) :
    Answered world call ↔ Accepted world call := by
  cases call with
  | subscribeProxyData handle proxy uris callback =>
    cases proxy with
    | none =>
      constructor
      · exact fun h => (h.oneResult : [] = uris).symm
      · exact fun h => ⟨hfaithful.unsubscribed, trivial, trivial, Eq.symm h⟩
    | some service =>
      constructor
      · exact fun h => rollsBack_subscribe_iff.mp h.rollsBack
      · intro h
        refine ⟨(faithful_subscribe hfaithful h).unsubscribed, rollsBack_subscribe_iff.mpr h,
          trivial, ?_⟩
        simp [World.step, World.addObservers, World.subscribeAtService, Call.uris,
          Function.comp_def]
  | unsubscribeProxyData handle proxy uris =>
    constructor
    · intro h
      have hresult := h.oneResult
      cases proxy with
      | none => exact Eq.symm hresult
      | some service => exact Eq.symm hresult
    · intro h
      obtain rfl : uris = [] := h
      cases proxy with
      | none => exact ⟨hfaithful.unsubscribed, trivial, fun _ => rfl, rfl⟩
      | some service => exact ⟨hfaithful.unsubscribed, trivial, fun _ => rfl, rfl⟩
  | delAllObservers handle subscriber =>
    constructor
    · intro h uri entry hentry hsub
      -- the last observer of the URI goes, and the service is not called
      refine h.unsubscribed uri ?_ ((hfaithful uri).mpr (List.ne_nil_of_mem hentry))
      rw [World.step, entriesAt_delAllObservers]
      refine (hone.filter_eq uri subscriber).resolve_left fun hall => ?_
      exact of_decide_eq_true (List.filter_eq_self.mp hall entry hentry) hsub
    · intro h
      refine ⟨fun uri hempty => ?_, trivial, fun uri => ?_, rfl⟩
      · rw [entriesAt_delAll_of_ne (h uri)] at hempty
        exact hfaithful.unsubscribed uri hempty
      · rw [entriesAt_delAll_of_ne (h uri)]

theorem faithful_step (hfaithful : world.Faithful) {call : Call κ} (h : Accepted world call) :
    (world.step call).1.Faithful := by
  cases call with
  | subscribeProxyData handle proxy uris callback =>
    cases proxy with
    | none => exact hfaithful
    | some service => exact faithful_subscribe hfaithful h
  | unsubscribeProxyData handle proxy uris =>
    obtain rfl : uris = [] := h
    cases proxy with
    | none => exact hfaithful
    | some service => exact hfaithful
  | delAllObservers handle subscriber =>
    intro uri
    rw [entriesAt_delAll_of_ne (h uri)]
    exact hfaithful uri

end Step

theorem run_concat (calls : List (Call κ)) (call : Call κ) :
    World.run (calls ++ [call]) = ((World.run calls).step call).1 :=
  List.foldl_concat _ _ _ _

theorem oneNumber_run (calls : List (Call κ)) : (World.run calls).OneNumber := by
  induction calls using List.reverseRecOn with
  | nil => exact fun _ _ h => absurd h List.not_mem_nil
  | append_singleton calls call ih =>
    rw [run_concat]
    exact oneNumber_step ih call

theorem faithful_run {calls : List (Call κ)}
    (h : Throughout (fun before call => Accepted (World.run before) call) calls) :
    (World.run calls).Faithful := by
  induction calls using List.reverseRecOn with
  | nil => exact fun uri => ⟨fun hmem => absurd hmem List.not_mem_nil, fun hne => absurd rfl hne⟩
  | append_singleton calls call ih =>
    obtain ⟨hbefore, hcall⟩ := throughout_concat.mp h
    rw [run_concat]
    exact faithful_step (ih hbefore) hcall

/-- Every call of a history does what it should if and only if every URI of a subscription is
accepted and nothing is unsubscribed. -/
theorem subscriptions_match (calls : List (Call κ)) :
    Throughout (fun before call => Answered (World.run before) call) calls ↔
      Throughout (fun before call => Accepted (World.run before) call) calls := by
  induction calls using List.reverseRecOn with
  | nil => exact ⟨fun _ => throughout_nil, fun _ => throughout_nil⟩
  | append_singleton calls call ih =>
    rw [throughout_concat, throughout_concat, ih]
    refine and_congr_right fun h => ?_
    exact answered_iff (oneNumber_run calls) (faithful_run h) call

/-- Two handles subscribe to one URI and one of them unsubscribes : the observer of the other is
gone as well. -/
theorem unsubscribe_takes_other_handle :
    ¬ Throughout (fun before call => Answered (World.run before) call)
      [.subscribeProxyData 1 (some fun _ => .success) ["uri"] 10,
        .subscribeProxyData 2 (some fun _ => .success) ["uri"] 20,
        .unsubscribeProxyData 2 (some fun _ => .success) ["uri"]] := by
  intro h
  have hkept := (h [_, _] _ [] rfl).keepsOthers "uri"
  revert hkept
  decide +kernel

end DataProxyHandle

end Rust

end DataShare
