import DataShare.History
import DataShare.OrderedMap
import Mathlib.Data.Int.Notation
import Mathlib.Data.List.Nodup
import Mathlib.Logic.Function.Basic

/-!
# Data-change observers of the JS helper

`NapiDataShareHelper` keeps the observers of `on('dataChange')` in `observerMap_`, a list for each
URI, and registers each at the native helper, plain ones through `RegisterObserver` and those that ask
for change details through `TryRegisterObserverExt`. The list does not say which of the two an
observer went through : the callback of an `on` is looked for among all of them, and an `off` takes an
entry away through the channel of its own type, whatever the native call returns.

`Answered` says what a call should do : what is registered natively and what is recorded are the same
for each channel, an `off` of one type leaves the other alone, a callback can be registered with both,
and an observer that could not be unregistered stays recorded. `observers_match` : this holds of
every call of a history if and only if each call keeps to the observers of its own type and no native
unregistration fails (`OwnType`).
-/

namespace DataShare

namespace NapiDataShareHelper

variable {κ : Type}

/-- The native calls an observer can be registered through. -/
inductive Channel
  | registerObserver
  | tryRegisterObserverExt
deriving DecidableEq

/-- The channel of a call with or without `isNotifyDetails`. -/
def Channel.of (isNotifyDetails : Bool) : Channel :=
  if isNotifyDetails then .tryRegisterObserverExt else .registerObserver

/-- An observer object with its callback. -/
structure NAPIDataShareObserver (κ : Type) where
  id : ℕ
  callback : κ
deriving DecidableEq

/-- `observerMap_`. -/
abbrev ObserverMap (κ : Type) :=
  OrderedMap String (List (NAPIDataShareObserver κ))

/-- The observers recorded for a URI. -/
def ObserverMap.listOf (observerMap : ObserverMap κ) (uri : String) :
    List (NAPIDataShareObserver κ) :=
  (observerMap.find? uri).getD []

/-- The `observerMap_` of the JS helper, the observers registered at the native helper, and
with which channel each observer object was made. -/
structure World (κ : Type) where
  observerMap : ObserverMap κ
  native : Channel → List (String × NAPIDataShareObserver κ)
  nextId : ℕ
  channelOf : ℕ → Channel

/-- A new helper. -/
def World.init : World κ :=
  ⟨.empty, fun _ => [], 0, fun _ => .registerObserver⟩

/-- The observers recorded for a URI. -/
abbrev World.listOf (world : World κ) (uri : String) : List (NAPIDataShareObserver κ) :=
  ObserverMap.listOf world.observerMap uri

/-- `RegisterObserver` or `TryRegisterObserverExt` of the native helper returned `errCode`. -/
def World.registerNative (world : World κ) (channel : Channel) (uri : String)
    (observer : NAPIDataShareObserver κ) (errCode : ℤ) : World κ :=
  if errCode = 0 then
    { world with
      native := Function.update world.native channel (world.native channel ++ [(uri, observer)]) }
  else world

variable [DecidableEq κ]

/-- `UnregisterObserver` or `UnregisterObserverExt` of the native helper returned `errCode`. -/
def World.unregisterNative (world : World κ) (channel : Channel) (uri : String)
    (observer : NAPIDataShareObserver κ) (errCode : ℤ) : World κ :=
  if errCode = 0 then
    { world with
      native := Function.update world.native channel
        ((world.native channel).filter (· ≠ (uri, observer))) }
  else world

/-- `HasRegisteredObserver(env, list, callback)`. -/
def hasRegisteredObserver (list : List (NAPIDataShareObserver κ)) (callback : κ) : Bool :=
  list.any fun observer => callback = observer.callback

/-- `RegisteredObserver(env, uri, callback, helper, isNotifyDetails)`, where the native call for the
observer with the number `id` returns `errCode id`. -/
def World.registeredObserver (world : World κ) (uri : String) (callback : κ)
    (isNotifyDetails : Bool) (errCode : ℕ → ℤ) : World κ :=
  let world := { world with observerMap := world.observerMap.insert uri [] }
  if hasRegisteredObserver (world.listOf uri) callback then world
  else
    let observer : NAPIDataShareObserver κ := ⟨world.nextId, callback⟩
    let channel := Channel.of isNotifyDetails
    let world := { world with
      nextId := world.nextId + 1
      channelOf := Function.update world.channelOf observer.id channel }
    let world := world.registerNative channel uri observer (errCode observer.id)
    if errCode observer.id ≠ 0 then
      if (world.listOf uri).isEmpty then
        { world with observerMap := world.observerMap.erase uri }
      else world
    else { world with observerMap := world.observerMap.assign uri (world.listOf uri ++ [observer]) }

/-- `UnRegisteredObserver(env, uri, callback, helper, isNotifyDetails)` : the first observer with the
callback is unregistered and taken out. -/
def World.unRegisteredObserver (world : World κ) (uri : String) (callback : κ)
    (isNotifyDetails : Bool) (errCode : ℕ → ℤ) : World κ :=
  match world.observerMap.find? uri with
  | none => world
  | some list =>
    let world := match list.find? (callback = ·.callback) with
      | none => world
      | some observer =>
        let world := world.unregisterNative (Channel.of isNotifyDetails) uri observer
          (errCode observer.id)
        { world with observerMap :=
            world.observerMap.assign uri (list.eraseP (callback = ·.callback)) }
    if (world.listOf uri).isEmpty then
      { world with observerMap := world.observerMap.erase uri }
    else world

/-- `UnRegisteredObserver(env, uri, helper, isNotifyDetails)` : every observer of the URI is
unregistered, in order, and the URI taken out. -/
def World.unRegisteredObservers (world : World κ) (uri : String) (isNotifyDetails : Bool)
    (errCode : ℕ → ℤ) : World κ :=
  match world.observerMap.find? uri with
  | none => world
  | some list =>
    let world := list.foldl (fun world observer =>
      world.unregisterNative (Channel.of isNotifyDetails) uri observer (errCode observer.id)) world
    { world with observerMap := world.observerMap.erase uri }

/-- An `on` or an `off` of `dataChange`, and what each native call it makes returns. -/
inductive Call (κ : Type)
  | on (uri : String) (callback : κ) (isNotifyDetails : Bool) (errCode : ℕ → ℤ)
  | off (uri : String) (callback : Option κ) (isNotifyDetails : Bool) (errCode : ℕ → ℤ)

/-- `Napi_RegisterObserver` and `Napi_UnregisterObserver`. -/
def World.step (world : World κ) : Call κ → World κ
  | .on uri callback isNotifyDetails errCode =>
    world.registeredObserver uri callback isNotifyDetails errCode
  | .off uri (some callback) isNotifyDetails errCode =>
    world.unRegisteredObserver uri callback isNotifyDetails errCode
  | .off uri none isNotifyDetails errCode =>
    world.unRegisteredObservers uri isNotifyDetails errCode

/-- The world after `calls`. -/
def World.run (calls : List (Call κ)) : World κ :=
  calls.foldl World.step .init

/-! ## What a call should do -/

/-- What is registered natively through a channel is what is recorded for it. -/
def World.Matches (world : World κ) : Prop :=
  ∀ channel uri observer, (uri, observer) ∈ world.native channel ↔
    observer ∈ world.listOf uri ∧ world.channelOf observer.id = channel

/-- The observers an `off` unregisters : the first one with the callback, or all of the URI. -/
def World.targets (world : World κ) (uri : String) :
    Option κ → List (NAPIDataShareObserver κ)
  | some callback => ((world.listOf uri).find? (callback = ·.callback)).toList
  | none => world.listOf uri

/-- An `off` of one type leaves the observers of the other registered and recorded. -/
def LeavesOtherType (world : World κ) : Call κ → Prop
  | .on _ _ _ _ => True
  | .off uri callback isNotifyDetails errCode =>
    let world' := world.step (.off uri callback isNotifyDetails errCode)
    ∀ channel, channel ≠ Channel.of isNotifyDetails → ∀ u observer,
      ((u, observer) ∈ world.native channel → (u, observer) ∈ world'.native channel) ∧
      (observer ∈ world.listOf u → world.channelOf observer.id = channel →
        observer ∈ world'.listOf u)

/-- After an `on` whose native call succeeds, the callback is recorded for the type. -/
def RecordsBothTypes (world : World κ) : Call κ → Prop
  | .on uri callback isNotifyDetails errCode =>
    let world' := world.step (.on uri callback isNotifyDetails errCode)
    errCode world.nextId = 0 → ∃ observer ∈ world'.listOf uri, observer.callback = callback ∧
      world'.channelOf observer.id = Channel.of isNotifyDetails
  | .off _ _ _ _ => True

/-- An observer whose native unregistration fails stays recorded. -/
def KeepsFailed (world : World κ) : Call κ → Prop
  | .on _ _ _ _ => True
  | .off uri callback isNotifyDetails errCode =>
    let world' := world.step (.off uri callback isNotifyDetails errCode)
    ∀ u, ∀ observer ∈ world.listOf u, errCode observer.id ≠ 0 → observer ∈ world'.listOf u

/-- The call does what it should. -/
structure Answered (world : World κ) (call : Call κ) : Prop where
  matched : (world.step call).Matches
  leavesOtherType : LeavesOtherType world call
  recordsBothTypes : RecordsBothTypes world call
  keepsFailed : KeepsFailed world call

/-- The call keeps to the observers of its own type : the callback of an `on` is not recorded for the
other one, and what an `off` unregisters is recorded for its type and is unregistered natively. -/
def OwnType (world : World κ) : Call κ → Prop
  | .on uri callback isNotifyDetails errCode => errCode world.nextId = 0 →
      ∀ observer ∈ world.listOf uri, observer.callback = callback →
        world.channelOf observer.id = Channel.of isNotifyDetails
  | .off uri callback isNotifyDetails errCode => ∀ observer ∈ world.targets uri callback,
      world.channelOf observer.id = Channel.of isNotifyDetails ∧ errCode observer.id = 0

/-! ## The two tables after a step -/

section Tables

omit [DecidableEq κ]

variable {observerMap : ObserverMap κ} {uri u : String}

theorem listOf_of_find? {list : List (NAPIDataShareObserver κ)}
    (h : observerMap.find? uri = some list) : observerMap.listOf uri = list := by
  rw [ObserverMap.listOf, h, Option.getD_some]

theorem listOf_of_find?_eq_none (h : observerMap.find? uri = none) :
    observerMap.listOf uri = [] := by
  rw [ObserverMap.listOf, h, Option.getD_none]

theorem listOf_insert_nil (observerMap : ObserverMap κ) (uri u : String) :
    ObserverMap.listOf (observerMap.insert uri []) u = observerMap.listOf u := by
  unfold ObserverMap.listOf OrderedMap.insert
  rw [OrderedMap.find?_upsert]
  split
  · next h => rw [OrderedMap.find?_congr h, Option.getD_some]
  · rfl

theorem listOf_assign {list : List (NAPIDataShareObserver κ)} :
    ObserverMap.listOf (observerMap.assign uri list) u =
      if u = uri then list else observerMap.listOf u := by
  unfold ObserverMap.listOf
  rw [OrderedMap.find?_assign]
  simp only [Std.LawfulEqOrd.compare_eq_iff_eq]
  split <;> rfl

theorem listOf_erase : ObserverMap.listOf (observerMap.erase uri) u =
    if u = uri then [] else observerMap.listOf u := by
  unfold ObserverMap.listOf
  rw [OrderedMap.find?_erase]
  simp only [Std.LawfulEqOrd.compare_eq_iff_eq]
  split <;> rfl

/-- An empty list can be taken out. -/
theorem listOf_erase_of_isEmpty (h : (observerMap.listOf uri).isEmpty = true) :
    ObserverMap.listOf (observerMap.erase uri) u = observerMap.listOf u := by
  rw [listOf_erase]
  split
  · next heq => rw [heq, List.isEmpty_iff.mp h]
  · rfl

end Tables

/-- What holds of the lists after every history : callbacks are recorded once, by observers made
before. -/
structure Kept (world : World κ) : Prop where
  fresh : ∀ uri, ∀ observer ∈ world.listOf uri, observer.id < world.nextId
  once : ∀ uri, ((world.listOf uri).map (·.callback)).Nodup

/-! ### `off` -/

/-- What an `off` leaves : its targets are no longer recorded, and those whose native call succeeds no
longer registered through the channel of the type. -/
structure TakesOff (world : World κ) (uri : String) (targets : List (NAPIDataShareObserver κ))
    (channel : Channel) (errCode : ℕ → ℤ) (world' : World κ) : Prop where
  nextId : world'.nextId = world.nextId
  channelOf : world'.channelOf = world.channelOf
  sublist : ∀ u, (world'.listOf u).Sublist (world.listOf u)
  mem_listOf : ∀ u observer, observer ∈ world'.listOf u ↔
    observer ∈ world.listOf u ∧ ¬ (u = uri ∧ observer ∈ targets)
  mem_native : ∀ c u observer, (u, observer) ∈ world'.native c ↔ (u, observer) ∈ world.native c ∧
    ¬ (c = channel ∧ u = uri ∧ observer ∈ targets ∧ errCode observer.id = 0)

theorem mem_native_unregisterNative {world : World κ} {channel c : Channel} {uri u : String}
    {observer o : NAPIDataShareObserver κ} {errCode : ℤ} :
    (u, o) ∈ (world.unregisterNative channel uri observer errCode).native c ↔
      (u, o) ∈ world.native c ∧ ¬ (c = channel ∧ u = uri ∧ o = observer ∧ errCode = 0) := by
  unfold World.unregisterNative
  split
  · next h =>
    by_cases hc : c = channel
    · subst hc
      simp only [h, Function.update_self, List.mem_filter, decide_eq_true_eq, ne_eq, Prod.mk.injEq]
      tauto
    · simp [hc]
  · next h => simp [h]

@[simp] theorem observerMap_unregisterNative {world : World κ} {channel : Channel} {uri : String}
    {observer : NAPIDataShareObserver κ} {errCode : ℤ} :
    (world.unregisterNative channel uri observer errCode).observerMap = world.observerMap := by
  unfold World.unregisterNative
  split <;> rfl

theorem unregisterNative_eq {world : World κ} {channel : Channel} {uri : String}
    {observer : NAPIDataShareObserver κ} {errCode : ℤ} :
    world.unregisterNative channel uri observer errCode = { world with
      native := (world.unregisterNative channel uri observer errCode).native } := by
  unfold World.unregisterNative
  split <;> rfl

/-- The loop over all observers of a URI changes only what is registered natively. -/
theorem foldl_unregisterNative (channel : Channel) (uri : String) (errCode : ℕ → ℤ)
    (list : List (NAPIDataShareObserver κ)) : ∀ world : World κ,
    (∃ native, list.foldl (fun world observer =>
        world.unregisterNative channel uri observer (errCode observer.id)) world =
      { world with native := native }) ∧
    ∀ c u o, (u, o) ∈ (list.foldl (fun world observer =>
        world.unregisterNative channel uri observer (errCode observer.id)) world).native c ↔
      (u, o) ∈ world.native c ∧ ¬ (c = channel ∧ u = uri ∧ o ∈ list ∧ errCode o.id = 0) := by
  induction list with
  | nil => exact fun world => ⟨⟨world.native, rfl⟩, by simp⟩
  | cons observer list ih =>
    intro world
    obtain ⟨⟨native, heq⟩, hmem⟩ :=
      ih (world.unregisterNative channel uri observer (errCode observer.id))
    refine ⟨⟨native, ?_⟩, fun c u o => ?_⟩
    · rw [List.foldl_cons, heq, unregisterNative_eq]
    · rw [List.foldl_cons, hmem, mem_native_unregisterNative, List.mem_cons]
      by_cases ho : o = observer
      · subst ho
        tauto
      · simp [ho]

omit [DecidableEq κ] in
/-- The first observer that passes is the only one that is taken out. -/
theorem mem_eraseP_iff {p : NAPIDataShareObserver κ → Bool} {o : NAPIDataShareObserver κ} :
    ∀ {list : List (NAPIDataShareObserver κ)}, list.Nodup →
      (o ∈ list.eraseP p ↔ o ∈ list ∧ ¬ list.find? p = some o)
  | [], _ => by simp
  | observer :: list, hnodup => by
    obtain ⟨hnot, hrest⟩ := List.nodup_cons.mp hnodup
    by_cases hp : p observer = true
    · rw [List.eraseP_cons_of_pos hp, List.find?_cons_of_pos hp, List.mem_cons, Option.some_inj]
      constructor
      · exact fun h => ⟨.inr h, fun heq => hnot (heq ▸ h)⟩
      · rintro ⟨rfl | h, hne⟩
        · exact absurd rfl hne
        · exact h
    · rw [List.eraseP_cons_of_neg hp, List.find?_cons_of_neg hp, List.mem_cons, List.mem_cons,
        mem_eraseP_iff hrest]
      constructor
      · rintro (rfl | ⟨h, hne⟩)
        · exact ⟨.inl rfl, fun h => hnot (List.mem_of_find?_eq_some h)⟩
        · exact ⟨.inr h, hne⟩
      · rintro ⟨rfl | h, hne⟩
        · exact .inl rfl
        · exact .inr ⟨h, hne⟩

theorem takesOff_unRegisteredObservers (world : World κ) (uri : String) (isNotifyDetails : Bool)
    (errCode : ℕ → ℤ) : TakesOff world uri (world.targets uri none) (Channel.of isNotifyDetails)
      errCode (world.unRegisteredObservers uri isNotifyDetails errCode) := by
  rw [World.targets]
  cases hfind : world.observerMap.find? uri with
  | none =>
    rw [World.unRegisteredObservers, hfind, World.listOf, listOf_of_find?_eq_none hfind]
    exact ⟨rfl, rfl, fun _ => .refl _, by simp, by simp⟩
  | some list =>
    rw [World.unRegisteredObservers, hfind, World.listOf, listOf_of_find? hfind]
    obtain ⟨⟨native, heq⟩, hmem⟩ := foldl_unregisterNative
      (Channel.of isNotifyDetails) uri errCode list world
    rw [heq] at hmem
    simp only [heq]
    refine ⟨rfl, rfl, fun u => ?_, fun u o => ?_, hmem⟩
    · rw [World.listOf, listOf_erase]
      split
      · exact List.nil_sublist _
      · exact .refl _
    · rw [World.listOf, listOf_erase]
      split
      · next h =>
        rw [h, World.listOf, listOf_of_find? hfind]
        simp
      · next h => simp [h]

omit [DecidableEq κ] in
/-- Taking out a URI without observers changes no list. -/
theorem exists_map_erase_isEmpty (world : World κ) (uri : String) : ∃ observerMap : ObserverMap κ,
    (if (world.listOf uri).isEmpty then
      { world with observerMap := world.observerMap.erase uri } else world) =
        { world with observerMap := observerMap } ∧
    ∀ u, observerMap.listOf u = world.listOf u := by
  split
  · next h => exact ⟨world.observerMap.erase uri, rfl, fun u => listOf_erase_of_isEmpty h⟩
  · exact ⟨world.observerMap, rfl, fun u => rfl⟩

/-- The map after the loop of an `off` with a callback. -/
theorem exists_map_unRegisteredObserver {world : World κ} {uri : String}
    {list : List (NAPIDataShareObserver κ)} (hfind : world.observerMap.find? uri = some list)
    (callback : κ) (isNotifyDetails : Bool) (errCode : ℕ → ℤ) :
    ∃ observerMap : ObserverMap κ, ∃ native,
      world.unRegisteredObserver uri callback isNotifyDetails errCode =
        { world with observerMap := observerMap, native := native } ∧
      (∀ u, observerMap.listOf u = if u = uri then list.eraseP (callback = ·.callback)
        else world.listOf u) ∧
      ∀ c u o, (u, o) ∈ native c ↔ (u, o) ∈ world.native c ∧
        ¬ (c = Channel.of isNotifyDetails ∧ u = uri ∧
          list.find? (callback = ·.callback) = some o ∧ errCode o.id = 0) := by
  unfold World.unRegisteredObserver
  simp only [hfind]
  cases hfirst : list.find? (callback = ·.callback) with
  | none =>
    obtain ⟨observerMap, heq, hlist⟩ := exists_map_erase_isEmpty world uri
    refine ⟨observerMap, world.native, heq, fun u => ?_, by simp⟩
    have hnone : list.eraseP (callback = ·.callback) = list :=
      List.eraseP_of_forall_not (List.find?_eq_none.mp hfirst)
    rw [hlist, hnone]
    split
    · next h => rw [h, World.listOf, listOf_of_find? hfind]
    · rfl
  | some observer =>
    obtain ⟨observerMap, heq, hlist⟩ := exists_map_erase_isEmpty
      { world.unregisterNative (Channel.of isNotifyDetails) uri observer (errCode observer.id) with
        observerMap := (world.unregisterNative (Channel.of isNotifyDetails) uri observer
          (errCode observer.id)).observerMap.assign uri (list.eraseP (callback = ·.callback)) } uri
    refine ⟨observerMap, (world.unregisterNative (Channel.of isNotifyDetails) uri observer
      (errCode observer.id)).native, ?_, fun u => ?_, fun c u o => ?_⟩
    · refine heq.trans ?_
      unfold World.unregisterNative
      split <;> rfl
    · rw [hlist, World.listOf, listOf_assign, World.listOf, observerMap_unregisterNative]
    · rw [mem_native_unregisterNative]
      by_cases ho : o = observer
      · subst ho
        tauto
      · simp [ho, Ne.symm ho]

theorem takesOff_unRegisteredObserver {world : World κ} (uri : String) (callback : κ)
    (isNotifyDetails : Bool) (errCode : ℕ → ℤ) (hnodup : (world.listOf uri).Nodup) :
    TakesOff world uri (world.targets uri (some callback)) (Channel.of isNotifyDetails) errCode
      (world.unRegisteredObserver uri callback isNotifyDetails errCode) := by
  rw [World.targets]
  cases hfind : world.observerMap.find? uri with
  | none =>
    rw [World.unRegisteredObserver, hfind, World.listOf, listOf_of_find?_eq_none hfind]
    exact ⟨rfl, rfl, fun _ => .refl _, by simp, by simp⟩
  | some list =>
    rw [World.listOf, listOf_of_find? hfind] at hnodup ⊢
    obtain ⟨observerMap, native, heq, hlist, hnative⟩ :=
      exists_map_unRegisteredObserver hfind callback isNotifyDetails errCode
    rw [heq]
    refine ⟨rfl, rfl, fun u => ?_, fun u o => ?_, fun c u o => ?_⟩
    · rw [World.listOf, hlist]
      split
      · next h =>
        rw [h, World.listOf, listOf_of_find? hfind]
        exact List.eraseP_sublist
      · exact .refl _
    · rw [World.listOf, hlist]
      split
      · next h =>
        rw [h, World.listOf, listOf_of_find? hfind, mem_eraseP_iff hnodup]
        simp
      · next h => simp [h]
    · rw [Option.mem_toList]
      exact hnative c u o

theorem takesOff_step {world : World κ} (hkept : Kept world) (uri : String) (callback : Option κ)
    (isNotifyDetails : Bool) (errCode : ℕ → ℤ) :
    TakesOff world uri (world.targets uri callback) (Channel.of isNotifyDetails) errCode
      (world.step (.off uri callback isNotifyDetails errCode)) := by
  cases callback with
  | none => exact takesOff_unRegisteredObservers world uri isNotifyDetails errCode
  | some callback =>
    exact takesOff_unRegisteredObserver uri callback isNotifyDetails errCode
      (List.Nodup.of_map _ (hkept.once uri))

theorem mem_listOf_of_mem_targets {world : World κ} {uri : String} {callback : Option κ}
    {observer : NAPIDataShareObserver κ} (h : observer ∈ world.targets uri callback) :
    observer ∈ world.listOf uri := by
  cases callback with
  | none => exact h
  | some callback => exact List.mem_of_find?_eq_some (Option.mem_toList.mp h)

omit [DecidableEq κ] in
theorem TakesOff.kept {world world' : World κ} {uri : String}
    {targets : List (NAPIDataShareObserver κ)} {channel : Channel} {errCode : ℕ → ℤ}
    (h : TakesOff world uri targets channel errCode world') (hkept : Kept world) : Kept world' := by
  refine ⟨fun u observer ho => ?_, fun u => ((h.sublist u).map _).nodup (hkept.once u)⟩
  rw [h.nextId]
  exact hkept.fresh u observer ((h.sublist u).subset ho)

/-- An `off` does what it should if and only if its targets are of its own type and are
unregistered natively. -/
theorem answered_off_iff {world : World κ} (hkept : Kept world) (hmatches : world.Matches)
    (uri : String) (callback : Option κ) (isNotifyDetails : Bool) (errCode : ℕ → ℤ) :
    Answered world (.off uri callback isNotifyDetails errCode) ↔
      OwnType world (.off uri callback isNotifyDetails errCode) := by
  have hoff := takesOff_step hkept uri callback isNotifyDetails errCode
  constructor
  · intro h observer ho
    have hmem := mem_listOf_of_mem_targets ho
    have hgone : observer ∉
        (world.step (.off uri callback isNotifyDetails errCode)).listOf uri := fun hmem' =>
      ((hoff.mem_listOf uri observer).mp hmem').2 ⟨rfl, ho⟩
    constructor
    · by_contra hne
      exact hgone ((h.leavesOtherType _ hne uri observer).2 hmem rfl)
    · by_contra hne
      exact hgone (h.keepsFailed uri observer hmem hne)
  · intro h
    refine ⟨fun c u observer => ?_, fun c hc u observer => ⟨fun hreg => ?_, fun hmem heq => ?_⟩,
      trivial, fun u observer hmem hne => ?_⟩
    · rw [hoff.mem_native, hoff.mem_listOf, hmatches, hoff.channelOf]
      constructor
      · rintro ⟨⟨hmem, rfl⟩, hnot⟩
        exact ⟨⟨hmem, fun ht => hnot ⟨(h observer ht.2).1, ht.1, ht.2,
          (h observer ht.2).2⟩⟩, rfl⟩
      · rintro ⟨⟨hmem, hnot⟩, rfl⟩
        exact ⟨⟨hmem, rfl⟩, fun ht => hnot ⟨ht.2.1, ht.2.2.1⟩⟩
    · exact (hoff.mem_native c u observer).mpr ⟨hreg, fun ht => hc ht.1⟩
    · exact (hoff.mem_listOf u observer).mpr
        ⟨hmem, fun ht => hc (heq.symm.trans (h observer ht.2).1)⟩
    · exact (hoff.mem_listOf u observer).mpr ⟨hmem, fun ht => hne (h observer ht.2).2⟩

/-! ### `on` -/

/-- An `on` whose callback is recorded changes nothing. -/
theorem registeredObserver_of_has {world : World κ} {uri : String} {callback : κ}
    (h : hasRegisteredObserver (world.listOf uri) callback = true) (isNotifyDetails : Bool)
    (errCode : ℕ → ℤ) : ∃ observerMap : ObserverMap κ,
      world.registeredObserver uri callback isNotifyDetails errCode =
        { world with observerMap := observerMap } ∧
      ∀ u, observerMap.listOf u = world.listOf u := by
  refine ⟨world.observerMap.insert uri [], ?_, fun u => listOf_insert_nil world.observerMap uri u⟩
  rw [World.listOf, ← listOf_insert_nil world.observerMap uri uri] at h
  unfold World.registeredObserver
  exact if_pos h

/-- An `on` whose native call fails records nothing. -/
theorem registeredObserver_of_ne {world : World κ} {uri : String} {callback : κ}
    (h : hasRegisteredObserver (world.listOf uri) callback = false) (isNotifyDetails : Bool)
    {errCode : ℕ → ℤ} (herr : errCode world.nextId ≠ 0) : ∃ observerMap : ObserverMap κ,
      world.registeredObserver uri callback isNotifyDetails errCode =
        { world with
          observerMap := observerMap
          nextId := world.nextId + 1
          channelOf := Function.update world.channelOf world.nextId (Channel.of isNotifyDetails) } ∧
      ∀ u, observerMap.listOf u = world.listOf u := by
  rw [World.listOf, ← listOf_insert_nil world.observerMap uri uri] at h
  unfold World.registeredObserver
  simp only [h, Bool.false_eq_true, ↓reduceIte, World.registerNative, herr, ne_eq, not_false_eq_true]
  split
  · next hempty =>
    refine ⟨(world.observerMap.insert uri []).erase uri, rfl, fun u => ?_⟩
    rw [listOf_erase_of_isEmpty hempty, listOf_insert_nil]
  · exact ⟨world.observerMap.insert uri [], rfl, fun u => listOf_insert_nil world.observerMap uri u⟩

/-- An `on` records the observer it made and registered. -/
theorem registeredObserver_of_eq {world : World κ} {uri : String} {callback : κ}
    (h : hasRegisteredObserver (world.listOf uri) callback = false) (isNotifyDetails : Bool)
    {errCode : ℕ → ℤ} (herr : errCode world.nextId = 0) : ∃ observerMap : ObserverMap κ,
      world.registeredObserver uri callback isNotifyDetails errCode =
        { world with
          observerMap := observerMap
          native := Function.update world.native (Channel.of isNotifyDetails)
            (world.native (Channel.of isNotifyDetails) ++ [(uri, ⟨world.nextId, callback⟩)])
          nextId := world.nextId + 1
          channelOf := Function.update world.channelOf world.nextId (Channel.of isNotifyDetails) } ∧
      ∀ u, observerMap.listOf u =
        if u = uri then world.listOf uri ++ [⟨world.nextId, callback⟩] else world.listOf u := by
  rw [World.listOf, ← listOf_insert_nil world.observerMap uri uri] at h
  unfold World.registeredObserver
  simp only [h, Bool.false_eq_true, ↓reduceIte, World.registerNative, herr, ne_eq, not_true_eq_false]
  refine ⟨_, rfl, fun u => ?_⟩
  rw [listOf_assign, World.listOf, listOf_insert_nil, listOf_insert_nil]

theorem hasRegisteredObserver_iff {list : List (NAPIDataShareObserver κ)} {callback : κ} :
    hasRegisteredObserver list callback = true ↔ ∃ observer ∈ list, observer.callback = callback := by
  unfold hasRegisteredObserver
  rw [List.any_eq_true]
  simp only [decide_eq_true_eq, eq_comm (a := callback)]

theorem kept_registeredObserver {world : World κ} (hkept : Kept world) (uri : String) (callback : κ)
    (isNotifyDetails : Bool) (errCode : ℕ → ℤ) :
    Kept (world.registeredObserver uri callback isNotifyDetails errCode) := by
  by_cases h : hasRegisteredObserver (world.listOf uri) callback = true
  · obtain ⟨observerMap, heq, hlist⟩ := registeredObserver_of_has h isNotifyDetails errCode
    rw [heq]
    refine ⟨fun u observer ho => ?_, fun u => ?_⟩
    · exact hkept.fresh u observer (hlist u ▸ ho)
    · rw [World.listOf, hlist]
      exact hkept.once u
  rw [Bool.not_eq_true] at h
  by_cases herr : errCode world.nextId = 0
  · obtain ⟨observerMap, heq, hlist⟩ := registeredObserver_of_eq h isNotifyDetails herr
    rw [heq]
    refine ⟨fun u observer ho => ?_, fun u => ?_⟩
    · rw [World.listOf, hlist] at ho
      split at ho
      · rcases List.mem_append.mp ho with ho | ho
        · exact Nat.lt_succ_of_lt (hkept.fresh uri observer ho)
        · rw [List.mem_singleton.mp ho]
          exact Nat.lt_succ_self _
      · exact Nat.lt_succ_of_lt (hkept.fresh u observer ho)
    · rw [World.listOf, hlist]
      split
      · rw [List.map_append, List.map_cons, List.map_nil, List.nodup_append_comm]
        refine List.nodup_cons.mpr ⟨fun hmem => ?_, hkept.once uri⟩
        obtain ⟨observer, ho, hcallback⟩ := List.mem_map.mp hmem
        rw [hasRegisteredObserver_iff.mpr ⟨observer, ho, hcallback⟩] at h
        exact Bool.noConfusion h
      · exact hkept.once u
  · obtain ⟨observerMap, heq, hlist⟩ := registeredObserver_of_ne h isNotifyDetails herr
    rw [heq]
    refine ⟨fun u observer ho => ?_, fun u => ?_⟩
    · exact Nat.lt_succ_of_lt (hkept.fresh u observer (hlist u ▸ ho))
    · rw [World.listOf, hlist]
      exact hkept.once u

omit [DecidableEq κ] in
/-- What was recorded or registered before keeps the channel it was made for. -/
theorem channelOf_update {world : World κ} (hkept : Kept world) {channel : Channel} {u : String}
    {observer : NAPIDataShareObserver κ} (h : observer ∈ world.listOf u) :
    Function.update world.channelOf world.nextId channel observer.id =
      world.channelOf observer.id :=
  Function.update_of_ne (Nat.ne_of_lt (hkept.fresh u observer h)) _ _

theorem mem_update_append {α β : Type} [DecidableEq α] {f : α → List β} {a c : α} {b x : β} :
    x ∈ Function.update f a (f a ++ [b]) c ↔ x ∈ f c ∨ c = a ∧ x = b := by
  by_cases h : c = a
  · simp [h]
  · simp [h]

/-- The observer that is registered and recorded is new. -/
theorem matches_registeredObserver {world : World κ} (hkept : Kept world)
    (hmatches : world.Matches) (uri : String) (callback : κ) (isNotifyDetails : Bool)
    (errCode : ℕ → ℤ) :
    (world.registeredObserver uri callback isNotifyDetails errCode).Matches := by
  by_cases h : hasRegisteredObserver (world.listOf uri) callback = true
  · obtain ⟨observerMap, heq, hlist⟩ := registeredObserver_of_has h isNotifyDetails errCode
    rw [heq]
    intro c u observer
    rw [World.listOf, hlist]
    exact hmatches c u observer
  rw [Bool.not_eq_true] at h
  by_cases herr : errCode world.nextId = 0
  · obtain ⟨observerMap, heq, hlist⟩ := registeredObserver_of_eq h isNotifyDetails herr
    rw [heq]
    intro c u observer
    rw [World.listOf, hlist, mem_update_append, hmatches, Prod.mk.injEq]
    dsimp only
    by_cases hnew : observer = ⟨world.nextId, callback⟩
    · have hnot : ∀ v, observer ∉ world.listOf v := fun v hmem =>
        Nat.lt_irrefl world.nextId (by simpa [hnew] using hkept.fresh v observer hmem)
      rw [hnew] at hnot ⊢
      rw [Function.update_self]
      constructor
      · rintro (⟨hmem, _⟩ | ⟨rfl, rfl, _⟩)
        · exact absurd hmem (hnot u)
        · simp
      · rintro ⟨hmem, rfl⟩
        split at hmem
        · next hu => exact .inr ⟨rfl, hu, rfl⟩
        · exact absurd hmem (hnot u)
    · have hmem_iff : (observer ∈ if u = uri then world.listOf uri ++ [⟨world.nextId, callback⟩]
          else world.listOf u) ↔ observer ∈ world.listOf u := by
        split
        · next hu => simp [hu, hnew]
        · rfl
      rw [hmem_iff]
      constructor
      · rintro (⟨hmem, hc⟩ | ⟨_, _, heq⟩)
        · exact ⟨hmem, (channelOf_update hkept hmem).trans hc⟩
        · exact absurd heq hnew
      · rintro ⟨hmem, hc⟩
        exact .inl ⟨hmem, (channelOf_update hkept hmem).symm.trans hc⟩
  · obtain ⟨observerMap, heq, hlist⟩ := registeredObserver_of_ne h isNotifyDetails herr
    rw [heq]
    intro c u observer
    rw [World.listOf, hlist, hmatches]
    constructor
    · rintro ⟨hmem, hc⟩
      exact ⟨hmem, (channelOf_update hkept hmem).trans hc⟩
    · rintro ⟨hmem, hc⟩
      exact ⟨hmem, (channelOf_update hkept hmem).symm.trans hc⟩

/-- An `on` does what it should if and only if its callback is not recorded for the other type. -/
theorem answered_on_iff {world : World κ} (hkept : Kept world) (hmatches : world.Matches)
    (uri : String) (callback : κ) (isNotifyDetails : Bool) (errCode : ℕ → ℤ) :
    Answered world (.on uri callback isNotifyDetails errCode) ↔
      OwnType world (.on uri callback isNotifyDetails errCode) := by
  constructor
  · intro h herr observer hmem hcallback
    obtain ⟨other, hother, hsame, hchannel⟩ := h.recordsBothTypes herr
    have hhas := hasRegisteredObserver_iff.mpr ⟨observer, hmem, hcallback⟩
    obtain ⟨observerMap, heq, hlist⟩ := registeredObserver_of_has hhas isNotifyDetails errCode
    rw [World.step, heq] at hother hchannel
    rw [World.listOf, hlist] at hother
    have heq : observer = other :=
      List.inj_on_of_nodup_map (hkept.once uri) hmem hother (hcallback.trans hsame.symm)
    exact heq ▸ hchannel
  · intro h
    refine ⟨matches_registeredObserver hkept hmatches uri callback isNotifyDetails errCode, trivial,
      fun herr => ?_, trivial⟩
    by_cases hhas : hasRegisteredObserver (world.listOf uri) callback = true
    · obtain ⟨observer, hmem, hcallback⟩ := hasRegisteredObserver_iff.mp hhas
      obtain ⟨observerMap, heq, hlist⟩ := registeredObserver_of_has hhas isNotifyDetails errCode
      refine ⟨observer, ?_, hcallback, ?_⟩
      · rw [World.step, heq, World.listOf, hlist]
        exact hmem
      · rw [World.step, heq]
        exact h herr observer hmem hcallback
    · rw [Bool.not_eq_true] at hhas
      obtain ⟨observerMap, heq, hlist⟩ := registeredObserver_of_eq hhas isNotifyDetails herr
      refine ⟨⟨world.nextId, callback⟩, ?_, rfl, ?_⟩
      · rw [World.step, heq, World.listOf, hlist, if_pos rfl]
        exact List.mem_append_right _ (List.mem_singleton.mpr rfl)
      · rw [World.step, heq]
        exact Function.update_self _ _ _

/-! ## Histories -/

theorem kept_run (calls : List (Call κ)) : Kept (World.run calls) := by
  induction calls using List.reverseRecOn with
  | nil => exact ⟨fun _ _ h => absurd h List.not_mem_nil, fun _ => List.nodup_nil⟩
  | append_singleton calls call ih =>
    rw [World.run, List.foldl_append, List.foldl_cons, List.foldl_nil]
    cases call with
    | on uri callback isNotifyDetails errCode =>
      exact kept_registeredObserver ih uri callback isNotifyDetails errCode
    | off uri callback isNotifyDetails errCode =>
      exact (takesOff_step ih uri callback isNotifyDetails errCode).kept ih

theorem answered_iff {world : World κ} (hkept : Kept world) (hmatches : world.Matches)
    (call : Call κ) : Answered world call ↔ OwnType world call := by
  cases call with
  | on uri callback isNotifyDetails errCode =>
    exact answered_on_iff hkept hmatches uri callback isNotifyDetails errCode
  | off uri callback isNotifyDetails errCode =>
    exact answered_off_iff hkept hmatches uri callback isNotifyDetails errCode

theorem matches_run_of_answered {calls : List (Call κ)}
    (h : Throughout (fun before call => Answered (World.run before) call) calls) :
    (World.run calls).Matches := by
  induction calls using List.reverseRecOn with
  | nil => exact fun _ _ _ => by simp [World.run, World.init, World.listOf, ObserverMap.listOf]
  | append_singleton calls call _ =>
    rw [World.run, List.foldl_append, List.foldl_cons, List.foldl_nil]
    exact (throughout_concat.mp h).2.matched

/-- Every call of a history does what it should if and only if every call keeps to the observers
of its own type and no native unregistration fails. -/
theorem observers_match (calls : List (Call κ)) :
    Throughout (fun before call => Answered (World.run before) call) calls ↔
      Throughout (fun before call => OwnType (World.run before) call) calls := by
  induction calls using List.reverseRecOn with
  | nil => exact ⟨fun _ => throughout_nil, fun _ => throughout_nil⟩
  | append_singleton calls call ih =>
    rw [throughout_concat, throughout_concat, ← ih]
    refine and_congr_right fun h => ?_
    exact answered_iff (kept_run calls) (matches_run_of_answered h) call

/-- An observer registered without details, then taken off as one with details : it is no
longer recorded, and stays registered. -/
theorem off_of_other_type_leaks :
    ¬ Throughout (fun before call => Answered (World.run before) call)
      [.on "uri" 0 false fun _ => 0, .off "uri" (some 0) true fun _ => 0] := by
  intro h
  have hmatched := (h [_] _ [] rfl).matched .registerObserver "uri" ⟨0, 0⟩
  have hregistered : ("uri", ⟨0, 0⟩) ∈ ((World.run [.on "uri" 0 false fun _ => 0]).step
      (.off "uri" (some 0) true fun _ => 0)).native .registerObserver := by decide +kernel
  have hrecorded : (⟨0, 0⟩ : NAPIDataShareObserver ℕ) ∉ ((World.run [.on "uri" 0 false fun _ => 0]).step
      (.off "uri" (some 0) true fun _ => 0)).listOf "uri" := by decide +kernel
  exact hrecorded (hmatched.mp hregistered).1

end NapiDataShareHelper

end DataShare
