import DataShare.CppProxyData
import DataShare.CallbacksManager

/-!
# Delivery of proxy-data changes

The C++ `ProxyDataSubscriberManager` joins the changes with the observers of their uris : each
observer is called once, with the changes it is registered for, their strings cut to the length
of its registration (`callsTo_emit`). The Rust manager calls the observer of every
registration with all the changes.

The two agree on a table of subscriptions exactly if the changes are what every single observer
is to receive anyway (`emit_agrees_iff`).
-/

namespace DataShare

/-- The calls made to one observer, in order. -/
def callsTo {α : Type} (observer : ℕ) (calls : List (ℕ × α)) : List α :=
  (calls.filter fun call => call.1 = observer).map Prod.snd

/-! ## The C++ manager -/

namespace Cpp

namespace ProxyDataSubscriberManager

/-- `MAX_LENGTH_4K`. -/
def maxLength4K : Int32 := 4096

/-- `MAX_LENGTH_100K`. -/
def maxLength100K : Int32 := 102400

/-- A node of the observer table, an observer being its address. -/
structure ProxyNode where
  node : ObserverNode ℕ ℕ
  /-- `config_.maxValueLength_`. -/
  maxValueLength : Int32

abbrev Callbacks := OrderedMap StdString (List ProxyNode)

/-- The enabled observers of a key, with the limits of their nodes. -/
def getEnabledProxyDataObserverNodes (callbacks : Callbacks) (inputKey : StdString) :
    List (ℕ × Int32) :=
  ((callbacks.find? inputKey).getD []).filterMap fun value =>
    if value.node.enabled then value.node.observer.map fun observer => (observer, value.maxValueLength)
    else none

/-- The cast to `size_t`. -/
def toSize (maxValueLength : Int32) : ℕ :=
  (maxValueLength.toInt % 2 ^ 64).toNat

def getValidDataProxyValue (value : DataProxyValue) (maxValueLength : Int32) : DataProxyValue :=
  let maxLength := toSize maxValueLength
  match value with
  | .string valueStr =>
    if valueStr.length > maxLength then .string (valueStr.take maxLength) else value
  | _ => value

/-- The change with a value that is not over the limit. -/
def validInfo (data : DataProxyChangeInfo) (maxValueLength : Int32) : DataProxyChangeInfo :=
  { data with value := getValidDataProxyValue data.value maxValueLength }

/-- A node with another limit is skipped. -/
def validLength (maxValueLength : Int32) : Bool :=
  maxValueLength = maxLength4K ∨ maxValueLength = maxLength100K

abbrev Results := OrderedMap ℕ (List DataProxyChangeInfo)

/-- The turn of one node for one change. -/
def pushInfo (data : DataProxyChangeInfo) (results : Results) (node : ℕ × Int32) : Results :=
  if validLength node.2 then
    results.upsert node.1 fun old => old.getD [] ++ [validInfo data node.2]
  else results

/-- The calls to the observers, in the order of their addresses. -/
def emit (changeInfo : List DataProxyChangeInfo) (callbacks : Callbacks) :
    List (ℕ × List DataProxyChangeInfo) :=
  let results := changeInfo.foldl (fun results data =>
    (getEnabledProxyDataObserverNodes callbacks data.uri).foldl (pushInfo data) results) .empty
  results.entries

/-- What one change adds to the results. -/
def infosOf (callbacks : Callbacks) (data : DataProxyChangeInfo) :
    List (ℕ × DataProxyChangeInfo) :=
  ((getEnabledProxyDataObserverNodes callbacks data.uri).filter fun node => validLength node.2).map
    fun node => (node.1, validInfo data node.2)

theorem foldl_pushInfo (data : DataProxyChangeInfo) : ∀ (nodes : List (ℕ × Int32)) (results : Results),
    nodes.foldl (pushInfo data) results =
      ((nodes.filter fun node => validLength node.2).map fun node =>
        (node.1, validInfo data node.2)).foldl
          (fun m e => m.upsert e.1 fun old => old.getD [] ++ [e.2]) results
  | [], results => rfl
  | node :: nodes, results => by
    rw [List.foldl_cons, foldl_pushInfo data nodes, pushInfo]
    by_cases hvalid : validLength node.2 = true
    · rw [if_pos hvalid, List.filter_cons_of_pos (by simpa using hvalid), List.map_cons,
        List.foldl_cons]
    · rw [if_neg hvalid, List.filter_cons_of_neg (by simpa using hvalid)]

/-- The changes an observer is to be called with. -/
def infosTo (observer : ℕ) (changeInfo : List DataProxyChangeInfo) (callbacks : Callbacks) :
    List DataProxyChangeInfo :=
  callsTo observer (changeInfo.flatMap (infosOf callbacks))

/-- An observer is called once, with its changes in order, and not at all without any. -/
theorem callsTo_emit (observer : ℕ) (changeInfo : List DataProxyChangeInfo) (callbacks : Callbacks) :
    callsTo observer (emit changeInfo callbacks) =
      if infosTo observer changeInfo callbacks = [] then []
      else [infosTo observer changeInfo callbacks] := by
  have hresults : changeInfo.foldl (fun results data =>
      (getEnabledProxyDataObserverNodes callbacks data.uri).foldl (pushInfo data) results) .empty =
      (changeInfo.flatMap (infosOf callbacks)).foldl
        (fun m e => m.upsert e.1 fun old => old.getD [] ++ [e.2]) (.empty : Results) := by
    rw [List.foldl_flatMap]
    exact congrArg (fun turn => changeInfo.foldl turn .empty)
      (funext₂ fun results data => foldl_pushInfo data _ results)
  unfold callsTo emit
  dsimp only
  rw [hresults, OrderedMap.filter_entries_eq, OrderedMap.find?_foldl_append]
  unfold infosTo callsTo
  by_cases hnone : ((changeInfo.flatMap (infosOf callbacks)).filter fun e => e.1 = observer) = []
  · simp [hnone]
  · simp [hnone]

end ProxyDataSubscriberManager

end Cpp

/-! ## The Rust manager -/

namespace Rust

/-- The value of a change is the same variant, a string being its bytes. -/
structure DataProxyChangeInfo where
  changeType : UInt32
  uri : List UInt8
  value : Cpp.DataProxyValue
  deriving DecidableEq

/-- The fields the Rust type lacks have their defaults. -/
def DataProxyChangeInfo.toCpp (info : DataProxyChangeInfo) : Cpp.DataProxyChangeInfo where
  changeType := info.changeType
  uri := info.uri
  value := info.value
  isMultiValues := false
  multiValues := []

namespace ProxyDataSubscriberManager

structure ProxyEntry where
  subscriber : ℕ
  observer : ℕ

abbrev Callbacks := OrderedMap (List UInt8) (List ProxyEntry)

/-- Every entry is called, key after key. -/
def emit (changeInfo : List DataProxyChangeInfo) (callbacks : Callbacks) :
    List (ℕ × List DataProxyChangeInfo) :=
  callbacks.entries.flatMap fun e => e.2.map fun entry => (entry.observer, changeInfo)

end ProxyDataSubscriberManager

end Rust

/-! ## One table under both managers -/

/-- A registration with the limit asked for. -/
structure ProxySubscription where
  subscriber : ℕ
  observer : ℕ
  maxValueLength : Int32

/-- The subscriptions of every uri. -/
abbrev ProxyTable := OrderedMap (List UInt8) (List ProxySubscription)

namespace ProxyTable

/-- The table as the C++ manager keeps it. -/
def cpp (table : ProxyTable) : Cpp.ProxyDataSubscriberManager.Callbacks :=
  table.mapValues fun _ subs => subs.map fun sub =>
    ⟨ObserverNode.new (some sub.observer) sub.subscriber, sub.maxValueLength⟩

/-- The table as the Rust manager keeps it, without the limits. -/
def rust (table : ProxyTable) : Rust.ProxyDataSubscriberManager.Callbacks :=
  table.mapValues fun _ subs => subs.map fun sub => ⟨sub.subscriber, sub.observer⟩

/-- The registrations with their uris. -/
def registrations (table : ProxyTable) : List (List UInt8 × ProxySubscription) :=
  table.entries.flatMap fun e => e.2.map fun sub => (e.1, sub)

def registrationsOf (observer : ℕ) (table : ProxyTable) : List (List UInt8 × ProxySubscription) :=
  table.registrations.filter fun r => r.2.observer = observer

end ProxyTable

open Cpp.ProxyDataSubscriberManager

/-- A value that is not cut at the limit. -/
def Fits (maxValueLength : Int32) : Cpp.DataProxyValue → Prop
  | .string valueStr => valueStr.length ≤ toSize maxValueLength
  | _ => True

/-- The changes, as they are, are for the observer of `r`, which is registered nowhere else. -/
structure Receives (table : ProxyTable) (changes : List Rust.DataProxyChangeInfo)
    (r : List UInt8 × ProxySubscription) : Prop where
  once : (table.registrationsOf r.2.observer).length = 1
  changed : changes ≠ []
  limit : validLength r.2.maxValueLength = true
  own : ∀ change ∈ changes, change.uri = r.1
  fits : ∀ change ∈ changes, Fits r.2.maxValueLength change.value

/-- Every observer is called alike by the two managers. -/
def EmitsAgree (table : ProxyTable) (changes : List Rust.DataProxyChangeInfo) : Prop :=
  ∀ observer,
    (callsTo observer (Rust.ProxyDataSubscriberManager.emit changes table.rust)).map
        (List.map Rust.DataProxyChangeInfo.toCpp) =
      callsTo observer (emit (changes.map Rust.DataProxyChangeInfo.toCpp) table.cpp)

section Agreement

variable {table : ProxyTable} {changes : List Rust.DataProxyChangeInfo} {observer : ℕ}

theorem callsTo_rust :
    callsTo observer (Rust.ProxyDataSubscriberManager.emit changes table.rust) =
      (table.registrationsOf observer).map fun _ => changes := by
  have hemit : Rust.ProxyDataSubscriberManager.emit changes table.rust =
      table.registrations.map fun r => (r.2.observer, changes) := by
    unfold Rust.ProxyDataSubscriberManager.emit ProxyTable.rust ProxyTable.registrations
    simp [OrderedMap.mapValues, List.flatMap_map, List.map_flatMap, Function.comp_def]
  rw [hemit]
  unfold callsTo ProxyTable.registrationsOf
  rw [List.filter_map, List.map_map]
  rfl

theorem nodesAt_cpp (uri : List UInt8) : getEnabledProxyDataObserverNodes table.cpp uri =
    (table.registrations.filter fun r => r.1 = uri).map fun r =>
      (r.2.observer, r.2.maxValueLength) := by
  have hentries : (table.registrations.filter fun r => r.1 = uri) =
      (table.entries.filter fun e => e.1 = uri).flatMap fun e => e.2.map fun sub => (e.1, sub) := by
    unfold ProxyTable.registrations
    induction table.entries with
    | nil => rfl
    | cons e entries ih =>
      rw [List.flatMap_cons, List.filter_append, ih]
      by_cases huri : e.1 = uri
      · rw [List.filter_cons_of_pos (by simpa using huri), List.flatMap_cons,
          List.filter_eq_self.mpr (by simp [huri])]
      · rw [List.filter_cons_of_neg (by simpa using huri), List.filter_eq_nil_iff.mpr (by simp [huri]),
          List.nil_append]
  rw [hentries, OrderedMap.filter_entries_eq]
  unfold getEnabledProxyDataObserverNodes ProxyTable.cpp
  rw [OrderedMap.find?_mapValues _ fun _ => rfl]
  cases hfind : table.find? uri with
  | none => rfl
  | some subs => simp [ObserverNode.new, List.filterMap_map, Function.comp_def]

/-- What the C++ manager gives to an observer, from its registrations. -/
theorem infosTo_cpp (infos : List Cpp.DataProxyChangeInfo) : infosTo observer infos table.cpp =
    infos.flatMap fun info => ((table.registrationsOf observer).filter fun r =>
      r.1 = info.uri ∧ validLength r.2.maxValueLength).map fun r =>
        validInfo info r.2.maxValueLength := by
  unfold infosTo callsTo
  rw [List.filter_flatMap, List.map_flatMap]
  refine List.flatMap_congr fun info _ => ?_
  unfold infosOf ProxyTable.registrationsOf
  rw [nodesAt_cpp]
  simp only [List.filter_map, List.map_map, List.filter_filter]
  refine congrArg₂ List.map rfl (List.filter_congr fun r _ => ?_)
  simp [Bool.and_comm]

theorem validInfo_eq_self {info : Cpp.DataProxyChangeInfo} {maxValueLength : Int32} :
    validInfo info maxValueLength = info ↔ Fits maxValueLength info.value := by
  obtain ⟨changeType, uri, value, isMultiValues, multiValues⟩ := info
  cases value with
  | string valueStr =>
    simp only [validInfo, getValidDataProxyValue, Fits, Cpp.DataProxyChangeInfo.mk.injEq, true_and,
      and_true]
    split
    · next hlong =>
      refine ⟨fun h => ?_, fun h => absurd hlong (by omega)⟩
      have hlength := congrArg List.length (Cpp.DataProxyValue.string.inj h)
      rw [List.length_take] at hlength
      omega
    · next hshort => exact ⟨fun _ => by omega, fun _ => rfl⟩
  | _ => exact ⟨fun _ => trivial, fun _ => rfl⟩

section Singles

variable {α : Type} {p : α → Prop} [DecidablePred p] {f : α → α}

theorem length_flatMap_ite_le :
    ∀ l : List α, (l.flatMap fun a => if p a then [f a] else []).length ≤ l.length
  | [] => Nat.le_refl _
  | a :: l => by
    have ih := length_flatMap_ite_le l
    have hone : (if p a then [f a] else []).length ≤ 1 := by split <;> simp
    rw [List.flatMap_cons, List.length_append, List.length_cons]
    omega

/-- A list whose elements are each mapped or dropped stays as it is exactly if each element does. -/
theorem flatMap_ite_eq_self :
    ∀ {l : List α}, (l.flatMap fun a => if p a then [f a] else []) = l ↔ ∀ a ∈ l, p a ∧ f a = a
  | [] => by simp
  | a :: l => by
    rw [List.flatMap_cons, List.forall_mem_cons]
    by_cases hp : p a
    · rw [if_pos hp, List.singleton_append, List.cons_eq_cons, flatMap_ite_eq_self]
      simp [hp]
    · rw [if_neg hp, List.nil_append]
      refine ⟨fun h => ?_, fun h => absurd h.1.1 hp⟩
      have hlength := length_flatMap_ite_le (p := p) (f := f) l
      rw [h, List.length_cons] at hlength
      omega

end Singles

/-- What the C++ manager gives to an observer with one registration. -/
def infosOfOne (r : List UInt8 × ProxySubscription) (infos : List Cpp.DataProxyChangeInfo) :
    List Cpp.DataProxyChangeInfo :=
  infos.flatMap fun info =>
    if r.1 = info.uri ∧ validLength r.2.maxValueLength then [validInfo info r.2.maxValueLength]
    else []

/-- One registration : its observer is called alike exactly if it is to receive the changes
as they are. -/
theorem agree_single (r : List UInt8 × ProxySubscription) (infos : List Cpp.DataProxyChangeInfo) :
    [infos] = (if infosOfOne r infos = [] then [] else [infosOfOne r infos]) ↔
      infos ≠ [] ∧ validLength r.2.maxValueLength = true ∧
        ∀ info ∈ infos, info.uri = r.1 ∧ Fits r.2.maxValueLength info.value := by
  have hself : infosOfOne r infos = infos ↔ ∀ info ∈ infos, (r.1 = info.uri ∧
      validLength r.2.maxValueLength = true) ∧ Fits r.2.maxValueLength info.value := by
    unfold infosOfOne
    rw [flatMap_ite_eq_self]
    simp only [validInfo_eq_self]
  have hlist : [infos] = (if infosOfOne r infos = [] then [] else [infosOfOne r infos]) ↔
      infos ≠ [] ∧ infosOfOne r infos = infos := by
    by_cases hnil : infosOfOne r infos = []
    · rw [if_pos hnil, hnil]
      exact ⟨fun h => absurd h (by simp), fun h => absurd h.2.symm h.1⟩
    · rw [if_neg hnil, List.singleton_inj, eq_comm]
      exact ⟨fun h => ⟨fun heq => hnil (h.trans heq), h⟩, And.right⟩
  rw [hlist, hself]
  refine and_congr_right fun hne => ⟨fun h => ?_, fun h info hinfo => ?_⟩
  · obtain ⟨first, hfirst⟩ := List.exists_mem_of_ne_nil infos hne
    exact ⟨(h first hfirst).1.2, fun info hinfo => ⟨(h info hinfo).1.1.symm, (h info hinfo).2⟩⟩
  · exact ⟨⟨(h.2 info hinfo).1.symm, h.1⟩, (h.2 info hinfo).2⟩

theorem infosTo_of_single {r : List UInt8 × ProxySubscription}
    (hr : table.registrationsOf observer = [r]) (infos : List Cpp.DataProxyChangeInfo) :
    infosTo observer infos table.cpp = infosOfOne r infos := by
  rw [infosTo_cpp, hr]
  refine List.flatMap_congr fun info _ => ?_
  by_cases h : r.1 = info.uri ∧ validLength r.2.maxValueLength = true
  · rw [if_pos h, List.filter_cons_of_pos (by simpa using h)]
    rfl
  · rw [if_neg h, List.filter_cons_of_neg (by simpa using h)]
    rfl

/-- The condition on the changes, in the terms of the C++ manager. -/
theorem receives_iff {r : List UInt8 × ProxySubscription} : Receives table changes r ↔
    (table.registrationsOf r.2.observer).length = 1 ∧
      (changes.map Rust.DataProxyChangeInfo.toCpp ≠ [] ∧ validLength r.2.maxValueLength = true ∧
        ∀ info ∈ changes.map Rust.DataProxyChangeInfo.toCpp,
          info.uri = r.1 ∧ Fits r.2.maxValueLength info.value) := by
  rw [List.forall_mem_map]
  constructor
  · rintro ⟨once, changed, limit, own, fits⟩
    exact ⟨once, by simpa using changed, limit, fun change h => ⟨own change h, fits change h⟩⟩
  · rintro ⟨once, changed, limit, both⟩
    exact ⟨once, by simpa using changed, limit, fun change h => (both change h).1,
      fun change h => (both change h).2⟩

/-- The Rust manager calls the observers as the C++ one does exactly if the changes are, as they are,
for every observer, and each is registered once. -/
theorem emit_agrees_iff :
    EmitsAgree table changes ↔ ∀ r ∈ table.registrations, Receives table changes r := by
  have hmember {r : List UInt8 × ProxySubscription} (hr : r ∈ table.registrations) :
      r ∈ table.registrationsOf r.2.observer := List.mem_filter.mpr ⟨hr, by simp⟩
  constructor
  · intro h r hr
    have hagree := h r.2.observer
    rw [callsTo_rust, callsTo_emit, List.map_map] at hagree
    have honce : (table.registrationsOf r.2.observer).length = 1 := by
      have hle (given : List Cpp.DataProxyChangeInfo) :
          (if given = [] then [] else [given]).length ≤ 1 := by split <;> simp
      have hcalls := hle (infosTo r.2.observer (changes.map Rust.DataProxyChangeInfo.toCpp) table.cpp)
      have hpos := List.length_pos_of_mem (hmember hr)
      rw [← hagree, List.length_map] at hcalls
      omega
    obtain ⟨r', hr'⟩ := List.length_eq_one_iff.mp honce
    obtain rfl : r = r' := List.mem_singleton.mp (hr' ▸ hmember hr)
    rw [infosTo_of_single hr', hr'] at hagree
    exact receives_iff.mpr ⟨honce, (agree_single r _).mp hagree⟩
  · intro h observer
    rw [callsTo_rust, callsTo_emit, List.map_map]
    rcases hregs : table.registrationsOf observer with _ | ⟨r, others⟩
    · have hnone : infosTo observer (changes.map Rust.DataProxyChangeInfo.toCpp) table.cpp = [] := by
        rw [infosTo_cpp, hregs]
        simp
      rw [if_pos hnone]
      rfl
    · have hr : r ∈ table.registrationsOf observer := hregs ▸ List.mem_cons_self
      obtain ⟨hmem, hobserver⟩ := List.mem_filter.mp hr
      obtain rfl : r.2.observer = observer := by simpa using hobserver
      obtain ⟨honce, hsingle⟩ := receives_iff.mp (h r hmem)
      obtain rfl : others = [] := by simpa [hregs] using honce
      rw [infosTo_of_single hregs]
      exact (agree_single r _).mpr hsingle

end Agreement

/-! ## Two subscriptions -/

/-- Two observers, each of a uri of its own. -/
def twoTopics : ProxyTable :=
  (OrderedMap.empty.assign [1] [⟨1, 10, maxLength4K⟩]).assign [2] [⟨2, 20, maxLength4K⟩]

/-- The observer of uri `[2]` is handed the value of uri `[1]`. -/
theorem not_emitsAgree_twoTopics : ¬ EmitsAgree twoTopics [⟨1, [1], .int 7⟩] := by
  intro h
  have hrust : callsTo 20 (Rust.ProxyDataSubscriberManager.emit [⟨1, [1], .int 7⟩] twoTopics.rust) =
      [[⟨1, [1], .int 7⟩]] := by decide +kernel
  have hcpp : callsTo 20 (emit ([⟨1, [1], .int 7⟩].map Rust.DataProxyChangeInfo.toCpp)
      twoTopics.cpp) = [] := by decide +kernel
  have hagree := h 20
  rw [hrust, hcpp] at hagree
  exact absurd hagree (by simp)

end DataShare
