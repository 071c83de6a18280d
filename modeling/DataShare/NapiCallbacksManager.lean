import DataShare.CallbacksManager
import DataShare.KeyedLoop

/-!
# The callbacks manager of the JS observers

`NapiCallbacksManager<Key, Observer>` keeps the JS observers of every key and tells its
callbacks which keys need a native subscription : those that found no observer, and those
that lost their last one. `addLocal` is the loop of the overload with a configuration,
`delLocal` that of both overloads for deletion.

What the loops do to one key is in `nodesAt_addLocal` and `nodesAt_delLocal`, and which
keys they collect in `mentionCount_firstRegisterKey` and `mentions_lastDelKeys`. The
configuration of a call reaches the node of its observer only where the key had no
observer, or had this one (`joinNodes`).
-/

namespace DataShare

/-- `DataProxyErrorCode::SUCCESS`. -/
def dataProxySuccess : Int := 0

/-- `DataProxyErrorCode::URI_NOT_EXIST`. -/
def uriNotExist : Int := 1

/-- The only value of `DataProxyType`. -/
inductive DataProxyType where
  | sharedConfig
  deriving DecidableEq, Repr

/-- The defaults are `SHARED_CONFIG` and `MAX_LENGTH_4K`. -/
structure DataProxyConfig where
  type : DataProxyType := .sharedConfig
  maxValueLength : Int32 := 4096
  deriving DecidableEq

namespace NapiCallbacksManager

open CallbacksManager (DelCodes)

/-- An observer object. Two are equal if their JS functions are. -/
structure Observer where
  address : ℕ
  callback : ℕ
  deriving DecidableEq

/-- A map over the pointers goes by the addresses. -/
instance : Ord Observer where
  compare := compareLex (compareOn Observer.address) (compareOn Observer.callback)

instance : Std.TransOrd Observer :=
  inferInstanceAs (Std.TransCmp (compareLex _ _))

instance : Std.LawfulEqOrd Observer where
  eq_of_compare {a b} h := by
    obtain ⟨haddress, hcallback⟩ := Ordering.then_eq_eq.mp h
    obtain ⟨addressA, callbackA⟩ := a
    obtain ⟨addressB, callbackB⟩ := b
    obtain rfl : addressA = addressB := Std.LawfulEqCmp.eq_of_compare haddress
    obtain rfl : callbackA = callbackB := Std.LawfulEqCmp.eq_of_compare hcallback
    rfl

/-- The nodes are made from a new object, so the pointer is never null. -/
structure Node where
  observer : Observer
  enabled : Bool
  config : DataProxyConfig
  deriving DecidableEq

/-! ## The nodes of a key -/

def Node.new (observer : Observer) (config : DataProxyConfig) : Node where
  observer := observer
  enabled := true
  config := config

def isRegistered (observer : Observer) (observers : List Node) : Bool :=
  observers.any fun item => item.observer.callback = observer.callback

/-- The nodes with the configuration of the observer's first node, or none without such a
node. -/
def findAndUpdateObserverConfig (observer : Observer) (config : DataProxyConfig) :
    List Node → Option (List Node)
  | [] => none
  | item :: observers =>
    if item.observer.callback = observer.callback then some ({ item with config } :: observers)
    else (findAndUpdateObserverConfig observer config observers).map (item :: ·)

def enabledNodes (nodes : List Node) : List Observer :=
  nodes.filterMap fun value => if value.enabled then some value.observer else none

def eraseEqual (observer : Observer) (nodes : List Node) : List Node :=
  nodes.filter fun node => node.observer.callback ≠ observer.callback

section Manager

variable {κ : Type} [Ord κ]

abbrev Callbacks (κ : Type) [Ord κ] := OrderedMap κ (List Node)

def getEnabledObservers (callbacks : Callbacks κ) (inputKey : κ) : List Observer :=
  match callbacks.find? inputKey with
  | none => []
  | some nodes => enabledNodes nodes

variable [Std.TransOrd κ]

/-- `callbacks_[key].emplace_back(node)`. -/
def emplaceBack (callbacks : Callbacks κ) (key : κ) (node : Node) : Callbacks κ :=
  callbacks.upsert key fun old => old.getD [] ++ [node]

/-! ## The loops under the lock -/

structure Added (κ : Type) [Ord κ] where
  callbacks : Callbacks κ
  firstRegisterKey : List κ
  result : List (OperationResult κ)

/-- The last branch makes its node from the observer alone. -/
def addObserver (observer : Observer) (config : DataProxyConfig) (acc : Added κ) (key : κ) :
    Added κ :=
  if (getEnabledObservers acc.callbacks key).isEmpty then
    { acc with
      callbacks := emplaceBack acc.callbacks key (Node.new observer config)
      firstRegisterKey := acc.firstRegisterKey ++ [key] }
  else
    let result := acc.result ++ [⟨key, dataProxySuccess⟩]
    match findAndUpdateObserverConfig observer config ((acc.callbacks.find? key).getD []) with
    | some nodes => { acc with callbacks := acc.callbacks.assign key nodes, result }
    | none => { acc with callbacks := emplaceBack acc.callbacks key (Node.new observer {}), result }

def addLocal (keys : List κ) (observer : Observer) (config : DataProxyConfig)
    (callbacks : Callbacks κ) : Added κ :=
  keys.foldl (addObserver observer config) ⟨callbacks, [], []⟩

def delDataProxyCodes : DelCodes :=
  ⟨uriNotExist, dataProxySuccess⟩

structure Deleted (κ : Type) [Ord κ] where
  callbacks : Callbacks κ
  lastDelKeys : List κ
  result : List (OperationResult κ)

def delObserver (codes : DelCodes) (observer : Option Observer) (acc : Deleted κ) (key : κ) :
    Deleted κ :=
  let erased := { acc with
    callbacks := acc.callbacks.erase key, lastDelKeys := acc.lastDelKeys ++ [key] }
  let missing := { acc with result := acc.result ++ [⟨key, codes.missing⟩] }
  match acc.callbacks.find? key with
  | none => missing
  | some nodes =>
    match observer with
    | none => erased
    | some observer =>
      if isRegistered observer nodes then
        if (eraseEqual observer nodes).isEmpty then erased
        else
          { acc with
            callbacks := acc.callbacks.assign key (eraseEqual observer nodes)
            result := acc.result ++ [⟨key, codes.remaining⟩] }
      else missing

/-- With neither keys nor an observer, everything goes. -/
def delLocal (codes : DelCodes) (keys : List κ) (observer : Option Observer)
    (callbacks : Callbacks κ) : Deleted κ :=
  keys.foldl (delObserver codes observer)
    (if keys.isEmpty ∧ observer.isNone then ⟨.empty, callbacks.keys, []⟩ else ⟨callbacks, [], []⟩)

/-! ## What the loops do to one key -/

/-- The observers of some nodes, with their flags. -/
def members (nodes : List Node) : List (Observer × Bool) :=
  nodes.map fun node => (node.observer, node.enabled)

/-- The members of a key after the registration of an observer. -/
def join (observer : Observer) (joined : List (Observer × Bool)) : List (Observer × Bool) :=
  if (joined.any fun member => member.2) ∧ joined.any fun member => member.1.callback = observer.callback
  then joined
  else joined ++ [(observer, true)]

/-- The members of a key after the deletion of an observer, or of all of them. -/
def leave (observer : Option Observer) (joined : List (Observer × Bool)) : List (Observer × Bool) :=
  observer.elim [] fun observer => joined.filter fun member => member.1.callback ≠ observer.callback

/-- The deletion takes the key's entry with it. -/
def Empties (observer : Option Observer) (joined : List (Observer × Bool)) : Prop :=
  leave observer joined = [] ∧ (observer = none ∨ joined ≠ [])

instance (observer : Option Observer) (joined : List (Observer × Bool)) :
    Decidable (Empties observer joined) :=
  inferInstanceAs (Decidable (_ ∧ _))

theorem leave_leave (observer : Option Observer) (joined : List (Observer × Bool)) :
    leave observer (leave observer joined) = leave observer joined := by
  cases observer with
  | none => rfl
  | some observer => exact List.filter_eq_self.mpr fun member hmember => (List.mem_filter.mp hmember).2

theorem join_join (observer : Observer) (joined : List (Observer × Bool)) :
    join observer (join observer joined) = join observer joined := by
  unfold join
  split
  · next h => rfl
  · exact if_pos (by simp)

theorem any_join (observer : Observer) (joined : List (Observer × Bool)) :
    ((join observer joined).any fun member => member.2) = true := by
  unfold join
  split
  · next h => exact h.1
  · simp

theorem members_findAndUpdate (observer : Observer) (config : DataProxyConfig) :
    ∀ nodes : List Node, (findAndUpdateObserverConfig observer config nodes).map members =
      if (members nodes).any fun member => member.1.callback = observer.callback
      then some (members nodes) else none
  | [] => rfl
  | node :: nodes => by
    have ih := members_findAndUpdate observer config nodes
    unfold findAndUpdateObserverConfig
    by_cases hsame : node.observer.callback = observer.callback
    · simp [hsame, members]
    · rw [if_neg hsame, Option.map_map]
      have hcons : members ∘ (node :: ·) = ((node.observer, node.enabled) :: ·) ∘ members := rfl
      rw [hcons, ← Option.map_map, ih]
      simp [hsame, members]

variable {k : κ} {keys : List κ} {observer : Observer} {config : DataProxyConfig}
  {callbacks : Callbacks κ}

def membersAt (callbacks : Callbacks κ) (k : κ) : List (Observer × Bool) :=
  members ((callbacks.find? k).getD [])

theorem enabledNodes_eq (nodes : List Node) :
    enabledNodes nodes = ((members nodes).filter Prod.snd).map Prod.fst := by
  unfold enabledNodes members
  rw [List.filter_map, List.map_map]
  induction nodes with
  | nil => rfl
  | cons node nodes ih =>
    cases hnode : node.enabled <;> simp [hnode, ih, Function.comp_def]

omit [Std.TransOrd κ] in
theorem getEnabledObservers_eq (callbacks : Callbacks κ) (k : κ) : getEnabledObservers callbacks k =
    ((membersAt callbacks k).filter Prod.snd).map Prod.fst := by
  unfold getEnabledObservers membersAt
  cases callbacks.find? k with
  | none => rfl
  | some nodes => exact enabledNodes_eq nodes

omit [Std.TransOrd κ] in
theorem isEmpty_getEnabledObservers : (getEnabledObservers callbacks k).isEmpty = true ↔
    ¬ ((membersAt callbacks k).any fun member => member.2) = true := by
  rw [getEnabledObservers_eq, List.isEmpty_iff, List.map_eq_nil_iff, List.filter_eq_nil_iff]
  simp

theorem membersAt_congr {key : κ} (h : compare k key = .eq) (callbacks : Callbacks κ) :
    membersAt callbacks key = membersAt callbacks k := by
  unfold membersAt
  rw [OrderedMap.find?_congr h]

theorem membersAt_assign (callbacks : Callbacks κ) (key k : κ) (nodes : List Node) :
    membersAt (callbacks.assign key nodes) k =
      if compare k key = .eq then members nodes else membersAt callbacks k := by
  unfold membersAt
  rw [OrderedMap.find?_assign]
  split <;> rfl

theorem membersAt_emplaceBack (callbacks : Callbacks κ) (key k : κ) (node : Node) :
    membersAt (emplaceBack callbacks key node) k =
      if compare k key = .eq then membersAt callbacks key ++ [(node.observer, node.enabled)]
      else membersAt callbacks k := by
  unfold emplaceBack membersAt
  rw [OrderedMap.find?_upsert]
  split
  · rw [Option.getD_some, members, List.map_append]
    rfl
  · rfl

/-- The observer joins its key, whichever branch is taken. -/
theorem membersAt_addObserver (acc : Added κ) (key k : κ) :
    membersAt (addObserver observer config acc key).callbacks k =
      if compare k key = .eq then join observer (membersAt acc.callbacks key)
      else membersAt acc.callbacks k := by
  unfold addObserver
  by_cases hnone : (getEnabledObservers acc.callbacks key).isEmpty = true
  · have hjoin : join observer (membersAt acc.callbacks key) =
        membersAt acc.callbacks key ++ [(observer, true)] :=
      if_neg fun h => isEmpty_getEnabledObservers.mp hnone h.1
    rw [if_pos hnone, hjoin]
    exact membersAt_emplaceBack acc.callbacks key k _
  · have henabled := not_not.mp (mt isEmpty_getEnabledObservers.mpr hnone)
    have hnodes := members_findAndUpdate observer config
      ((acc.callbacks.find? key).getD [])
    have hat : members ((acc.callbacks.find? key).getD []) = membersAt acc.callbacks key := rfl
    rw [hat] at hnodes
    rw [if_neg hnone]
    cases hfound : findAndUpdateObserverConfig observer config ((acc.callbacks.find? key).getD []) with
    | some nodes =>
      rw [hfound, Option.map_some] at hnodes
      split at hnodes
      · next hregistered =>
        have hjoin : join observer (membersAt acc.callbacks key) = members nodes := by
          rw [Option.some_inj.mp hnodes]
          exact if_pos ⟨henabled, hregistered⟩
        rw [hjoin]
        exact membersAt_assign acc.callbacks key k nodes
      · cases hnodes
    | none =>
      rw [hfound, Option.map_none] at hnodes
      split at hnodes
      · cases hnodes
      · next hregistered =>
        have hjoin : join observer (membersAt acc.callbacks key) =
            membersAt acc.callbacks key ++ [(observer, true)] := if_neg fun h => hregistered h.2
        rw [hjoin]
        exact membersAt_emplaceBack acc.callbacks key k _

/-- Only a key without enabled observers is collected. -/
theorem firstRegisterKey_addObserver (acc : Added κ) (key : κ) :
    (addObserver observer config acc key).firstRegisterKey =
      if (membersAt acc.callbacks key).any fun member => member.2 then acc.firstRegisterKey
      else acc.firstRegisterKey ++ [key] := by
  unfold addObserver
  by_cases hnone : (getEnabledObservers acc.callbacks key).isEmpty = true
  · rw [if_pos hnone, if_neg (isEmpty_getEnabledObservers.mp hnone)]
  · rw [if_neg hnone, if_pos (not_not.mp (mt isEmpty_getEnabledObservers.mpr hnone))]
    split <;> rfl

theorem addObserver_turnAt : TurnAt k (addObserver observer config)
    (fun acc => (membersAt acc.callbacks k, mentionCount k acc.firstRegisterKey))
    fun view => (join observer view.1,
      if view.1.any fun member => member.2 then view.2 else view.2 + 1) := by
  intro acc key
  dsimp only
  rw [membersAt_addObserver, firstRegisterKey_addObserver]
  by_cases hk : compare k key = .eq
  · rw [if_pos hk, if_pos hk, membersAt_congr hk]
    by_cases henabled : ((membersAt acc.callbacks k).any fun member => member.2) = true
    · rw [if_pos henabled, if_pos henabled]
    · rw [if_neg henabled, if_neg henabled, mentionCount_concat, if_pos hk]
  · rw [if_neg hk, if_neg hk]
    split
    · rfl
    · rw [mentionCount_concat, if_neg hk, Nat.add_zero]

variable (k keys observer config callbacks) in
theorem addLocal_at : (membersAt (addLocal keys observer config callbacks).callbacks k,
      mentionCount k (addLocal keys observer config callbacks).firstRegisterKey) =
    if Mentions k keys then (join observer (membersAt callbacks k),
      if (membersAt callbacks k).any fun member => member.2 then 0 else 1)
    else (membersAt callbacks k, 0) := by
  have hidem : ∀ view : List (Observer × Bool) × ℕ,
      (join observer (join observer view.1),
        if (join observer view.1).any fun member => member.2 then
          if view.1.any fun member => member.2 then view.2 else view.2 + 1
        else (if view.1.any fun member => member.2 then view.2 else view.2 + 1) + 1) =
      (join observer view.1,
        if view.1.any fun member => member.2 then view.2 else view.2 + 1) := by
    intro view
    rw [join_join, if_pos (any_join observer view.1)]
  unfold addLocal
  exact addObserver_turnAt.foldl_of_idempotent hidem keys ⟨callbacks, [], []⟩

variable {deleted : Option Observer} {codes : DelCodes}

omit [Std.TransOrd κ] in
theorem find?_members (callbacks : Callbacks κ) (k : κ) :
    ((callbacks.find? k).map members).getD [] = membersAt callbacks k := by
  unfold membersAt
  cases callbacks.find? k <;> rfl

theorem members_eraseEqual (observer : Observer) (nodes : List Node) :
    members (eraseEqual observer nodes) = leave (some observer) (members nodes) := by
  unfold leave members eraseEqual
  rw [Option.elim_some, List.filter_map]
  rfl

theorem leave_of_not_isRegistered {observer : Observer} {nodes : List Node}
    (h : ¬ isRegistered observer nodes = true) :
    leave (some observer) (members nodes) = members nodes := by
  refine List.filter_eq_self.mpr fun member hmember => ?_
  obtain ⟨node, hnode, rfl⟩ := List.mem_map.mp hmember
  refine decide_eq_true fun hsame => h ?_
  exact List.any_eq_true.mpr ⟨node, hnode, decide_eq_true hsame⟩

variable (deleted codes) in
/-- A turn takes the entry of its key, or what is to be deleted from it. -/
theorem delObserver_cases (acc : Deleted κ) (key : κ) :
    (∃ nodes, acc.callbacks.find? key = some nodes ∧ Empties deleted (members nodes) ∧
      (delObserver codes deleted acc key).callbacks = acc.callbacks.erase key ∧
      (delObserver codes deleted acc key).lastDelKeys = acc.lastDelKeys ++ [key]) ∨
    ((∀ nodes, acc.callbacks.find? key = some nodes → ¬ Empties deleted (members nodes)) ∧
      (delObserver codes deleted acc key).lastDelKeys = acc.lastDelKeys ∧
      ∀ k, ((delObserver codes deleted acc key).callbacks.find? k).map members =
        if compare k key = .eq then
          ((acc.callbacks.find? key).map members).map (leave deleted)
        else (acc.callbacks.find? k).map members) := by
  unfold delObserver
  cases hfound : acc.callbacks.find? key with
  | none =>
    refine .inr ⟨fun nodes h => absurd h (by simp), rfl, fun k => ?_⟩
    by_cases hk : compare k key = .eq
    · rw [if_pos hk, OrderedMap.find?_congr hk]
      dsimp only
      rw [hfound]
      rfl
    · exact (if_neg hk).symm
  | some nodes =>
    cases deleted with
    | none => exact .inl ⟨nodes, rfl, ⟨rfl, .inl rfl⟩, rfl, rfl⟩
    | some observer =>
      dsimp only
      by_cases hregistered : isRegistered observer nodes = true
      · rw [if_pos hregistered]
        have hne : members nodes ≠ [] := by
          rintro hnil
          obtain ⟨node, hnode, -⟩ := List.any_eq_true.mp hregistered
          rw [List.map_eq_nil_iff.mp hnil] at hnode
          exact List.not_mem_nil hnode
        have hleft : (eraseEqual observer nodes).isEmpty = true ↔
            leave (some observer) (members nodes) = [] := by
          rw [← members_eraseEqual, members, List.map_eq_nil_iff, List.isEmpty_iff]
        by_cases hempty : (eraseEqual observer nodes).isEmpty = true
        · rw [if_pos hempty]
          exact .inl ⟨nodes, rfl, ⟨hleft.mp hempty, .inr hne⟩, rfl, rfl⟩
        · rw [if_neg hempty]
          refine .inr ⟨fun nodes' h hempties => ?_, rfl, fun k => ?_⟩
          · obtain rfl := Option.some_inj.mp h
            exact hempty (hleft.mpr hempties.1)
          · rw [OrderedMap.find?_assign]
            split
            · exact congrArg some (members_eraseEqual observer nodes)
            · rfl
      · rw [if_neg hregistered]
        have hleave := leave_of_not_isRegistered hregistered
        refine .inr ⟨fun nodes' h hempties => ?_, rfl, fun k => ?_⟩
        · obtain rfl := Option.some_inj.mp h
          obtain hnone | hne := hempties.2
          · cases hnone
          · exact hne (hleave.symm.trans hempties.1)
        · split
          · next hk => rw [OrderedMap.find?_congr hk, hfound]; exact congrArg some hleave.symm
          · rfl

/-- What a turn leaves of the entry of its key. -/
def leaveEntry (deleted : Option Observer) (found : Option (List (Observer × Bool))) :
    Option (List (Observer × Bool)) :=
  found.bind fun joined => if Empties deleted joined then none else some (leave deleted joined)

theorem delObserver_turnAt : TurnAt k (delObserver codes deleted)
    (fun acc => (acc.callbacks.find? k).map members) (leaveEntry deleted) := by
  intro acc key
  dsimp only
  rcases delObserver_cases deleted codes acc key with
    ⟨nodes, hfound, hempties, hcallbacks, -⟩ | ⟨hnot, -, hcallbacks⟩
  · rw [hcallbacks, OrderedMap.find?_erase]
    split
    · next hk =>
      rw [OrderedMap.find?_congr hk, hfound]
      exact (if_pos hempties).symm
    · rfl
  · rw [hcallbacks]
    split
    · next hk =>
      rw [OrderedMap.find?_congr hk]
      cases hfound : acc.callbacks.find? key with
      | none => rfl
      | some nodes => exact (if_neg (hnot nodes hfound)).symm
    · rfl

theorem delObserver_collectsAt : CollectsAt k (delObserver codes deleted)
    (fun acc => (acc.callbacks.find? k).map members) Deleted.lastDelKeys
    fun found => ∃ joined, found = some joined ∧ Empties deleted joined := by
  intro acc key
  rcases delObserver_cases deleted codes acc key with
    ⟨nodes, hfound, hempties, -, hlast⟩ | ⟨hnot, hlast, -⟩
  · rw [hlast, mentions_append, mentions_cons]
    have hentry : compare k key = .eq →
        ∃ joined, (acc.callbacks.find? k).map members = some joined ∧ Empties deleted joined :=
      fun hk => ⟨members nodes, by rw [OrderedMap.find?_congr hk, hfound]; rfl, hempties⟩
    simp only [not_mentions_nil, or_false]
    tauto
  · rw [hlast]
    refine (or_iff_left ?_).symm
    rintro ⟨hk, joined, hjoined, hempties⟩
    dsimp only at hjoined
    rw [OrderedMap.find?_congr hk] at hjoined
    obtain ⟨nodes, hfound, rfl⟩ := Option.map_eq_some_iff.mp hjoined
    exact hnot nodes hfound hempties

theorem not_empties_leave {joined : List (Observer × Bool)} (h : ¬ Empties deleted joined) :
    ¬ Empties deleted (leave deleted joined) := by
  rintro ⟨hleave, hnone | hne⟩
  · subst hnone
    exact h ⟨rfl, .inl rfl⟩
  · rw [leave_leave] at hleave
    exact hne hleave

theorem leaveEntry_leaveEntry (found : Option (List (Observer × Bool))) :
    leaveEntry deleted (leaveEntry deleted found) = leaveEntry deleted found := by
  cases found with
  | none => rfl
  | some joined =>
    by_cases h : Empties deleted joined
    · simp [leaveEntry, h]
    · simp [leaveEntry, h, not_empties_leave h, leave_leave]

theorem getD_leaveEntry (found : Option (List (Observer × Bool))) :
    (leaveEntry deleted found).getD [] = leave deleted (found.getD []) := by
  cases found with
  | none => cases deleted <;> rfl
  | some joined =>
    by_cases h : Empties deleted joined
    · simp [leaveEntry, h, h.1]
    · simp [leaveEntry, h]

/-- The keys that a deletion is about. -/
def Deletes (k : κ) (keys : List κ) (deleted : Option Observer) : Prop :=
  Mentions k keys ∨ keys = [] ∧ deleted = none

/-- Without keys and an observer the loop makes no turn, on a table that is already empty. -/
theorem delLocal_of_all : delLocal codes [] none callbacks = ⟨.empty, callbacks.keys, []⟩ :=
  rfl

theorem delLocal_of_keys (h : ¬ (keys = [] ∧ deleted = none)) :
    delLocal codes keys deleted callbacks =
      keys.foldl (delObserver codes deleted) ⟨callbacks, [], []⟩ := by
  unfold delLocal
  rw [if_neg (by simpa using h)]

variable (k keys callbacks deleted codes) in
theorem membersAt_delLocal [Decidable (Deletes k keys deleted)] :
    membersAt (delLocal codes keys deleted callbacks).callbacks k =
      if Deletes k keys deleted then leave deleted (membersAt callbacks k)
      else membersAt callbacks k := by
  by_cases hall : keys = [] ∧ deleted = none
  · obtain ⟨rfl, rfl⟩ := hall
    rw [if_pos (.inr ⟨rfl, rfl⟩), delLocal_of_all]
    rfl
  · have hturn : TurnAt k (delObserver codes deleted)
        (fun acc => (acc.callbacks.find? k).map members) (leaveEntry deleted) := delObserver_turnAt
    have hloop := hturn.foldl_of_idempotent leaveEntry_leaveEntry keys ⟨callbacks, [], []⟩
    rw [delLocal_of_keys hall, ← find?_members, hloop]
    have hiff : Deletes k keys deleted ↔ Mentions k keys := or_iff_left hall
    by_cases hk : Mentions k keys
    · rw [if_pos hk, if_pos (hiff.mpr hk), getD_leaveEntry, find?_members]
    · rw [if_neg hk, if_neg (mt hiff.mp hk), find?_members]

theorem mentions_lastDelKeys : Mentions k (delLocal codes keys deleted callbacks).lastDelKeys ↔
    Deletes k keys deleted ∧
      ∃ joined, (callbacks.find? k).map members = some joined ∧ Empties deleted joined := by
  by_cases hall : keys = [] ∧ deleted = none
  · obtain ⟨rfl, rfl⟩ := hall
    have hkeys : Mentions k callbacks.keys ↔ (callbacks.find? k).isSome = true :=
      OrderedMap.isSome_find?_iff.symm
    rw [delLocal_of_all, hkeys]
    refine ⟨fun hsome => ⟨.inr ⟨rfl, rfl⟩, ?_⟩, fun h => ?_⟩
    · obtain ⟨nodes, hfound⟩ := Option.isSome_iff_exists.mp hsome
      exact ⟨members nodes, by rw [hfound]; rfl, rfl, .inl rfl⟩
    · obtain ⟨-, joined, hjoined, -⟩ := h
      obtain ⟨nodes, hfound, -⟩ := Option.map_eq_some_iff.mp hjoined
      rw [hfound]
      rfl
  · have hback : ∀ found : Option (List (Observer × Bool)),
        (∃ joined, leaveEntry deleted found = some joined ∧ Empties deleted joined) →
        ∃ joined, found = some joined ∧ Empties deleted joined := by
      rintro found ⟨joined, hjoined, hempties⟩
      obtain ⟨before, rfl, hbefore⟩ := Option.bind_eq_some_iff.mp hjoined
      split at hbefore
      · cases hbefore
      · next hnot =>
        obtain rfl := Option.some_inj.mp hbefore
        exact absurd hempties (not_empties_leave hnot)
    rw [delLocal_of_keys hall, delObserver_collectsAt.foldl delObserver_turnAt hback]
    have hiff : Deletes k keys deleted ↔ Mentions k keys := or_iff_left hall
    rw [hiff]
    simp

/-- A key with observers is collected exactly when the call takes the last of them. -/
theorem mentions_lastDelKeys_of_ne_nil (h : membersAt callbacks k ≠ []) :
    Mentions k (delLocal codes keys deleted callbacks).lastDelKeys ↔
      Deletes k keys deleted ∧ leave deleted (membersAt callbacks k) = [] := by
  rw [mentions_lastDelKeys, and_congr_right_iff]
  intro _
  rw [← find?_members] at h ⊢
  cases hfound : (callbacks.find? k).map members with
  | none => exact absurd (by rw [hfound]; rfl) h
  | some joined =>
    rw [hfound] at h
    refine ⟨?_, fun hleave => ⟨joined, rfl, hleave, .inr h⟩⟩
    rintro ⟨joined', hsome, hempties⟩
    obtain rfl := Option.some_inj.mp hsome
    exact hempties.1

end Manager

end NapiCallbacksManager

end DataShare
