import DataShare.RdbKeyProtocol
import Mathlib.Algebra.BigOperators.Group.List.Basic

/-!
# Shares in the last change

What the observers have to get of the changes of a run is `Replayed`. A call is started in turn
(`InTurn`) unless it meets a window of another one : a change that finds a callback to come, an
enable of a flagged observer that finds a change stored and not yet flagged, and a disable that finds
an enable before it read the flag.

The callbacks with the last change that an observer got, will get, or waits for as it is flagged, are
its `shares`. `Orderly` says that it has one, and what a call under way may be about to do ; it does
not mind the order of the calls (`Orderly.perm`).
-/

namespace DataShare

namespace Cpp

namespace RdbSubscriberManager

open CallbacksManager

variable {ν : Type}

/-! ## Delivery -/

/-- No change is stored in `events`. -/
def NoEmit (events : List (KeyEvent ν)) : Prop :=
  ∀ changeNode, .start (.emit changeNode) ∉ events

/-- What the observers get of the changes of a run. -/
structure Replayed (state : KeyState ν) (events : List (KeyEvent ν)) : Prop where
  /-- When all calls are over, an enabled observer was called with the last change. -/
  delivered : ∀ before changeNode after, events = before ++ .start (.emit changeNode) :: after →
    NoEmit after → Finished (poolAfter state events) →
    ∀ node ∈ (poolAfter state events).shared.nodes, node.enabled = true →
    ∀ observer, node.observer = some observer →
      (observer, (poolAfter state before).shared.toStore changeNode) ∈ callbacksOf state events
  /-- No observer is called with an older change after a newer one. -/
  ordered : (callbacksOf state events).Pairwise fun a b =>
    a.1 = b.1 → ¬ b.2.serial < a.2.serial
  /-- No observer is called with a change twice. -/
  once : (callbacksOf state events).Pairwise fun a b => a.1 = b.1 → a.2.serial ≠ b.2.serial

/-! ## Calls in turn -/

/-- The call may still call an observer, as the flags are. -/
def Progress.MayCall (nodes : List (ObserverNode ℕ ℕ)) : Progress ν → Prop
  | .flagging _ => True
  | .reading observer => notifiedOnEnabled observer nodes = true
  | .checking observer _ => notifiedOnEnabled observer nodes = true
  | .calling left => left ≠ []

/-- The call has yet to read the flag of the observer. -/
def Progress.Decides (observer : Option ℕ) : Progress ν → Prop
  | .flagging _ => False
  | .reading obs => obs = observer
  | .checking obs _ => obs = observer
  | .calling _ => False

/-- A change was stored whose nodes are not flagged yet. -/
def Flagging (threads : List (Progress ν)) : Prop :=
  ∃ change, .flagging change ∈ threads

/-- No call starts in a window of another one. -/
def InTurn (pool : KeyPool ν) : KeyEvent ν → Prop
  | .start (.emit _) => ∀ thread ∈ pool.threads, ¬ thread.MayCall pool.shared.nodes
  | .start (.enableObservers subscriber) => Flagging pool.threads →
    ∀ node, nodeToEnable subscriber pool.shared.nodes = some node → node.isNotifyOnEnabled = false
  | .start (.disableObservers subscriber) => ∀ node ∈ pool.shared.nodes,
    node.subscriber = subscriber → ∀ thread ∈ pool.threads, ¬ thread.Decides node.observer
  | .advance _ => True

/-- No observer is registered twice. -/
def Distinct (nodes : List (ObserverNode ℕ ℕ)) : Prop :=
  (nodes.filterMap ObserverNode.observer).Nodup

/-! ## The node of an observer -/

section Nodes

variable {nodes : List (ObserverNode ℕ ℕ)} {node : ObserverNode ℕ ℕ} {subscriber o : ℕ}

/-- The first node of the observer. -/
def nodeOf (o : ℕ) (nodes : List (ObserverNode ℕ ℕ)) : Option (ObserverNode ℕ ℕ) :=
  nodes.find? fun node => node.observer = some o

theorem notifiedOnEnabled_some (o : ℕ) (nodes : List (ObserverNode ℕ ℕ)) :
    notifiedOnEnabled (some o) nodes =
      ((nodeOf o nodes).map ObserverNode.isNotifyOnEnabled).getD false :=
  rfl

theorem of_nodeOf (h : nodeOf o nodes = some node) : node ∈ nodes ∧ node.observer = some o :=
  ⟨List.mem_of_find?_eq_some h, by simpa using List.find?_some h⟩

/-- Which observers are registered, a step does not change. -/
theorem Distinct.of_map_eq {nodes' : List (ObserverNode ℕ ℕ)} (h : Distinct nodes)
    (hmap : nodes'.map ObserverNode.observer = nodes.map ObserverNode.observer) :
    Distinct nodes' := by
  have hids : ∀ l : List (ObserverNode ℕ ℕ),
      l.filterMap ObserverNode.observer = (l.map ObserverNode.observer).filterMap id :=
    fun l => by rw [List.filterMap_map, Function.id_comp]
  unfold Distinct at h ⊢
  rw [hids] at h ⊢
  rw [hmap]
  exact h

theorem distinct_cons {first : ObserverNode ℕ ℕ} (h : Distinct (first :: nodes)) :
    (∀ o, first.observer = some o → ∀ node ∈ nodes, node.observer ≠ some o) ∧ Distinct nodes := by
  obtain ⟨hfirst, hrest⟩ := List.pairwise_cons.mp (List.pairwise_filterMap.mp h)
  exact ⟨fun o ho node hnode heq => hfirst node hnode o ho o heq rfl,
    List.pairwise_filterMap.mpr hrest⟩

/-- An observer that is registered once has one node. -/
theorem Distinct.nodeOf_eq (h : Distinct nodes) (hnode : node ∈ nodes)
    (hobs : node.observer = some o) : nodeOf o nodes = some node := by
  induction nodes with
  | nil => exact absurd hnode List.not_mem_nil
  | cons first nodes ih =>
    obtain ⟨hother, hdistinct⟩ := distinct_cons h
    unfold nodeOf
    rcases List.mem_cons.mp hnode with rfl | hmem
    · exact List.find?_cons_of_pos (by simpa using hobs)
    · have hfirst : first.observer ≠ some o := fun heq => hother o heq node hmem hobs
      rw [List.find?_cons_of_neg (by simpa using hfirst)]
      exact ih hdistinct hmem

theorem nodeOf_setNotifiedOn : nodeOf o (setNotifiedOn nodes) =
    (nodeOf o nodes).map fun node => { node with isNotifyOnEnabled := !node.enabled } := by
  have hfind : nodeOf o (setNotifiedOn nodes) = (nodeOf o nodes).map fun value =>
      { value with isNotifyOnEnabled := !(value.enabled && value.observer.isSome) } := by
    unfold nodeOf setNotifiedOn
    rw [List.find?_map]
    rfl
  rw [hfind]
  cases hnode : nodeOf o nodes with
  | none => rfl
  | some node => simp [(of_nodeOf hnode).2]

/-- Disabling resets the node of the observer if it is enabled and of the subscriber. -/
theorem nodeOf_disableEnabled : nodeOf o (disableEnabled subscriber nodes) =
    (nodeOf o nodes).map fun item => if item.subscriber = subscriber ∧ item.enabled then
      { item with enabled := false, isNotifyOnEnabled := false } else item := by
  unfold disableEnabled
  split
  · have hsame : (fun node : ObserverNode ℕ ℕ => decide (node.observer = some o)) ∘ (fun item =>
        if item.subscriber = subscriber ∧ item.enabled then
          { item with enabled := false, isNotifyOnEnabled := false } else item) =
        fun node => decide (node.observer = some o) := by
      funext item
      rw [Function.comp_apply]
      split <;> rfl
    unfold nodeOf disableSubscriber
    rw [List.find?_map, hsame]
  · next hnone =>
    cases hnode : nodeOf o nodes with
    | none => rfl
    | some item =>
      obtain ⟨hmem, hobs⟩ := of_nodeOf hnode
      have hdisabled : ¬ (item.subscriber = subscriber ∧ item.enabled = true) := fun h =>
        hnone (hasEnabled_iff.mpr ⟨item, hmem, h.2, by rw [hobs]; rfl⟩)
      rw [Option.map_some, if_neg hdisabled]

/-- Enabling changes the node of the observer if it is the one to enable. -/
theorem nodeOf_enableFirst (h : Distinct nodes) (hnode : nodeToEnable subscriber nodes = some node) :
    nodeOf o (enableFirst subscriber nodes) =
      if node.observer = some o then some { node with enabled := true } else nodeOf o nodes := by
  obtain ⟨hfind, -⟩ := nodeToEnable_eq_some.mp hnode
  clear hnode
  induction nodes with
  | nil => exact absurd hfind (by simp)
  | cons first nodes ih =>
    obtain ⟨hother, hdistinct⟩ := distinct_cons h
    rw [enableFirst]
    unfold nodeOf at ih ⊢
    by_cases hsub : first.subscriber = subscriber
    · obtain rfl : first = node := by simpa [hsub] using hfind
      rw [if_pos hsub]
      by_cases hobs : first.observer = some o
      · simp [hobs]
      · simp [hobs]
    · rw [if_neg hsub]
      have hrest : nodes.find? (fun node => node.subscriber = subscriber) = some node := by
        simpa [hsub] using hfind
      have hih := ih hdistinct hrest
      by_cases hobs : first.observer = some o
      · have hne : node.observer ≠ some o := hother o hobs node (List.mem_of_find?_eq_some hrest)
        simp [hobs, hne]
      · simpa [hobs] using hih

/-- A change is collected for the observer once if it is enabled, and else not at all. -/
theorem count_enabledObservers (h : Distinct nodes) :
    (enabledObservers nodes).count o =
      (nodeOf o nodes).elim 0 fun node => if node.enabled then 1 else 0 := by
  induction nodes with
  | nil => rfl
  | cons first nodes ih =>
    obtain ⟨hother, hdistinct⟩ := distinct_cons h
    have hrest := ih hdistinct
    unfold enabledObservers nodeOf at hrest ⊢
    rw [List.filterMap_cons]
    by_cases hobs : first.observer = some o
    · have hnone : List.count o (nodes.filterMap fun value =>
          if value.enabled then value.observer else none) = 0 := by
        refine List.count_eq_zero.mpr fun hmem => ?_
        obtain ⟨node, hnode, heq⟩ := List.mem_filterMap.mp hmem
        split at heq
        · exact hother o hobs node hnode heq
        · exact absurd heq (by simp)
      rw [List.find?_cons_of_pos (by simpa using hobs), Option.elim_some]
      by_cases henabled : first.enabled = true
      · simp [henabled, hobs, hnone]
      · simp [henabled, hnone]
    · rw [List.find?_cons_of_neg (by simpa using hobs), ← hrest]
      by_cases henabled : first.enabled = true
      · rcases hfirst : first.observer with _ | other
        · simp [henabled]
        · have hne : other ≠ o := fun heq => hobs (by rw [hfirst, heq])
          simp [henabled, hne]
      · simp [henabled]

end Nodes

/-! ## Shares in the last change -/

section Shares

variable {o : ℕ} {state : KeyState ν} {threads threads' rest : List (Progress ν)}
  {thread : Progress ν} {log : List (ℕ × Change ν)} {due : Prop}

def Progress.isFlagging : Progress ν → Bool
  | .flagging _ => true
  | _ => false

/-- The callbacks that the call will make for the observer, as its flag is. -/
def Progress.share (o : ℕ) (flagged : Bool) : Progress ν → ℕ
  | .flagging _ => 0
  | .reading observer => if observer = some o ∧ flagged then 1 else 0
  | .checking observer _ => if observer = some o ∧ flagged then 1 else 0
  | .calling left => left.countP fun callback => callback.1 = o

def threadShares (o : ℕ) (flagged : Bool) (threads : List (Progress ν)) : ℕ :=
  (threads.map (Progress.share o flagged)).sum

/-- The callbacks made with the last change. -/
def calledShares (o : ℕ) (state : KeyState ν) (log : List (ℕ × Change ν)) : ℕ :=
  log.countP fun callback => callback.1 = o ∧ callback.2.serial = state.latest

/-- The observer waits for the last change, disabled and flagged. -/
def missedShares (o : ℕ) (nodes : List (ObserverNode ℕ ℕ)) : ℕ :=
  (nodeOf o nodes).elim 0 fun node =>
    if node.isNotifyOnEnabled ∧ node.enabled = false then 1 else 0

def flagOf (o : ℕ) (state : KeyState ν) : Bool :=
  notifiedOnEnabled (some o) state.nodes

/-- The callbacks with the last change that an observer got or has to get. -/
def shares (o : ℕ) (state : KeyState ν) (threads : List (Progress ν))
    (log : List (ℕ × Change ν)) : ℕ :=
  calledShares o state log + threadShares o (flagOf o state) threads + missedShares o state.nodes

theorem missedShares_le (o : ℕ) (nodes : List (ObserverNode ℕ ℕ)) : missedShares o nodes ≤ 1 := by
  unfold missedShares
  rcases nodeOf o nodes with _ | node
  · exact Nat.zero_le 1
  · rw [Option.elim_some]
    split <;> omega

theorem threadShares_cons (o : ℕ) (flagged : Bool) (thread : Progress ν)
    (threads : List (Progress ν)) : threadShares o flagged (thread :: threads) =
      thread.share o flagged + threadShares o flagged threads := by
  unfold threadShares
  rw [List.map_cons, List.sum_cons]

theorem threadShares_eq_zero {flagged : Bool} :
    threadShares o flagged threads = 0 ↔ ∀ thread ∈ threads, thread.share o flagged = 0 := by
  unfold threadShares
  rw [List.sum_eq_zero_iff_forall_eq_nat]
  exact List.forall_mem_map

/-- The flag matters to the calls that have yet to read it. -/
theorem threadShares_congr (flagged flagged' : Bool)
    (h : ∀ thread ∈ threads, ¬ thread.Decides (some o)) :
    threadShares o flagged threads = threadShares o flagged' threads := by
  unfold threadShares
  refine congrArg List.sum (List.map_congr_left fun thread hthread => ?_)
  have hnot := h thread hthread
  rcases thread with change | observer | ⟨observer, change⟩ | left
  · rfl
  · have hne : observer ≠ some o := hnot
    simp [Progress.share, hne]
  · have hne : observer ≠ some o := hnot
    simp [Progress.share, hne]
  · rfl

theorem share_false_eq_zero {flagged : Bool} (h : thread.share o flagged = 0) :
    thread.share o false = 0 := by
  rcases thread with change | observer | ⟨observer, change⟩ | left
  · rfl
  · simp [Progress.share]
  · simp [Progress.share]
  · exact h

theorem share_eq_zero_of_not_mayCall (h : ¬ thread.MayCall state.nodes) :
    thread.share o (flagOf o state) = 0 := by
  rcases thread with change | observer | ⟨observer, change⟩ | left
  · rfl
  · refine if_neg fun hobs => h ?_
    obtain ⟨rfl, hflag⟩ := hobs
    exact hflag
  · refine if_neg fun hobs => h ?_
    obtain ⟨rfl, hflag⟩ := hobs
    exact hflag
  · obtain rfl : left = [] := not_not.mp h
    rfl

/-- What holds of one observer at any time : it has at most one share in the last change, and one
if a change is due, once the change is flagged. -/
structure Orderly (due : Prop) (o : ℕ) (state : KeyState ν) (threads : List (Progress ν))
    (log : List (ℕ × Change ν)) : Prop where
  enabled : ∀ thread ∈ threads, thread.Decides (some o) →
    ∀ node, nodeOf o state.nodes = some node → node.enabled = true
  toCall : ∀ left, .calling left ∈ threads → ∀ change, (o, change) ∈ left →
    state.lastChangeNode = some change
  toCheck : flagOf o state = true → ∀ change, .checking (some o) change ∈ threads →
    state.lastChangeNode = some change
  toFlag : ∀ change, .flagging change ∈ threads → state.lastChangeNode = some change
  single : threads.countP Progress.isFlagging ≤ 1
  unflagged : Flagging threads →
    calledShares o state log + threadShares o (flagOf o state) threads = 0
  past : ∀ change, (o, change) ∈ log →
    state.lastChangeNode = some change ∨ change.serial < state.latest
  increasing : log.Pairwise fun a b => a.1 = o → b.1 = o → a.2.serial < b.2.serial
  atMost : shares o state threads log ≤ 1
  due : due → state.lastChangeNode ≠ none ∧
    ((nodeOf o state.nodes).isSome → ¬ Flagging threads → shares o state threads log = 1)

theorem flagging_cons_of_not (h : thread.isFlagging = false) :
    Flagging (thread :: threads) ↔ Flagging threads := by
  refine exists_congr fun change => ⟨fun hmem => ?_, List.mem_cons_of_mem _⟩
  rcases List.mem_cons.mp hmem with rfl | hmem
  · exact absurd h (by simp [Progress.isFlagging])
  · exact hmem

/-- A call that is no change may be where it is now. -/
structure Progress.Fits (o : ℕ) (state : KeyState ν) (thread : Progress ν) : Prop where
  notFlagging : thread.isFlagging = false
  enabled : thread.Decides (some o) →
    ∀ node, nodeOf o state.nodes = some node → node.enabled = true
  toCall : ∀ left, thread = .calling left → ∀ change, (o, change) ∈ left →
    state.lastChangeNode = some change
  toCheck : flagOf o state = true → ∀ change, thread = .checking (some o) change →
    state.lastChangeNode = some change

theorem Orderly.serial_le (h : Orderly due o state threads log) {change : Change ν}
    (hchange : (o, change) ∈ log) : change.serial ≤ state.latest := by
  rcases h.past change hchange with hlast | hlt
  · rw [KeyState.latest, hlast, Option.elim_some]
  · exact hlt.le

/-- The calls may be others, of the same shares, or of fewer if no change is due. -/
theorem Orderly.replace (h : Orderly due o state threads log)
    (hfits : ∀ thread ∈ threads', thread ∈ threads ∨ thread.Fits o state)
    (hflagging : threads'.countP Progress.isFlagging = threads.countP Progress.isFlagging)
    (hle : threadShares o (flagOf o state) threads' ≤ threadShares o (flagOf o state) threads)
    (heq : due → threadShares o (flagOf o state) threads ≤
      threadShares o (flagOf o state) threads') : Orderly due o state threads' log := by
  have hiff : Flagging threads' ↔ Flagging threads := by
    have hcount : ∀ l : List (Progress ν), Flagging l ↔ 0 < l.countP Progress.isFlagging := by
      intro l
      rw [List.countP_pos_iff]
      constructor
      · rintro ⟨change, hchange⟩
        exact ⟨_, hchange, rfl⟩
      · rintro ⟨thread, hthread, hflag⟩
        rcases thread with change | observer | ⟨observer, change⟩ | left
        · exact ⟨change, hthread⟩
        · exact absurd hflag Bool.false_ne_true
        · exact absurd hflag Bool.false_ne_true
        · exact absurd hflag Bool.false_ne_true
    rw [hcount, hcount, hflagging]
  have hall : shares o state threads' log ≤ shares o state threads log := by
    unfold shares
    omega
  exact {
    enabled := fun thread hthread hdecides => (hfits thread hthread).elim
      (fun hold => h.enabled thread hold hdecides) fun hnew => hnew.enabled hdecides
    toCall := fun left hleft => (hfits _ hleft).elim (h.toCall left) fun hnew => hnew.toCall left rfl
    toCheck := fun hflag change hchange => (hfits _ hchange).elim (h.toCheck hflag change)
      fun hnew => hnew.toCheck hflag change rfl
    toFlag := fun change hchange => (hfits _ hchange).elim (h.toFlag change)
      fun hnew => absurd hnew.notFlagging (by simp [Progress.isFlagging])
    single := hflagging ▸ h.single
    unflagged := fun hf => by
      have hzero := h.unflagged (hiff.mp hf)
      omega
    past := h.past
    increasing := h.increasing
    atMost := Nat.le_trans hall h.atMost
    due := fun hdue => by
      refine ⟨(h.due hdue).1, fun hsome hnot => ?_⟩
      have hone := (h.due hdue).2 hsome fun hf => hnot (hiff.mpr hf)
      have hge := heq hdue
      unfold shares at hone ⊢
      omega }

theorem Orderly.perm (h : Orderly due o state threads log) (hperm : threads.Perm threads') :
    Orderly due o state threads' log :=
  have hsum : threadShares o (flagOf o state) threads = threadShares o (flagOf o state) threads' :=
    (hperm.map _).sum_eq
  h.replace (fun _ hthread => .inl (hperm.mem_iff.mpr hthread)) (hperm.countP_eq _).symm hsum.ge
    fun _ => hsum.le

/-- One more call, that makes no callback to the observer. -/
theorem Orderly.join (h : Orderly due o state threads log) (hfits : thread.Fits o state)
    (hshare : thread.share o (flagOf o state) = 0) :
    Orderly due o state (thread :: threads) log := by
  have hsum : threadShares o (flagOf o state) (thread :: threads) =
      threadShares o (flagOf o state) threads := by
    rw [threadShares_cons, hshare, Nat.zero_add]
  refine h.replace (fun other hother => ?_) ?_ hsum.le fun _ => hsum.ge
  · rcases List.mem_cons.mp hother with rfl | hold
    · exact .inr hfits
    · exact .inl hold
  · rw [List.countP_cons_of_neg (by simp [hfits.notFlagging])]

/-- A call moves on with the same share, or gives it up if no change is due. -/
theorem Orderly.move {moved : Progress ν} (h : Orderly due o state (thread :: rest) log)
    (hthread : thread.isFlagging = false) (hfits : moved.Fits o state)
    (hle : moved.share o (flagOf o state) ≤ thread.share o (flagOf o state))
    (hge : due → thread.share o (flagOf o state) ≤ moved.share o (flagOf o state)) :
    Orderly due o state (moved :: rest) log := by
  refine h.replace (fun other hother => ?_) ?_ ?_ fun hdue => ?_
  · rcases List.mem_cons.mp hother with rfl | hold
    · exact .inr hfits
    · exact .inl (List.mem_cons_of_mem _ hold)
  · rw [List.countP_cons_of_neg (by simp [hfits.notFlagging]),
      List.countP_cons_of_neg (by simp [hthread])]
  · rw [threadShares_cons, threadShares_cons]
    omega
  · have hshare := hge hdue
    rw [threadShares_cons, threadShares_cons]
    omega

theorem fits_calling_nil : (Progress.calling []).Fits o state where
  notFlagging := rfl
  enabled := fun h => absurd h id
  toCall := fun left heq change hchange => by
    obtain rfl := Progress.calling.inj heq
    exact absurd hchange List.not_mem_nil
  toCheck := fun _ change heq => absurd heq (by simp)

/-- The nodes of other observers do not matter. -/
theorem Orderly.congr_nodes {nodes : List (ObserverNode ℕ ℕ)} (h : Orderly due o state threads log)
    (hnode : nodeOf o nodes = nodeOf o state.nodes) :
    Orderly due o { state with nodes := nodes } threads log := by
  have hflag : flagOf o { state with nodes := nodes } = flagOf o state := by
    unfold flagOf
    rw [notifiedOnEnabled_some, notifiedOnEnabled_some, hnode]
  have hshares : shares o { state with nodes := nodes } threads log =
      shares o state threads log := by
    unfold shares missedShares
    rw [hflag, hnode]
    rfl
  exact {
    enabled := fun thread hthread hdecides => by
      rw [hnode]
      exact h.enabled thread hthread hdecides
    toCall := h.toCall
    toCheck := hflag ▸ h.toCheck
    toFlag := h.toFlag
    single := h.single
    unflagged := fun hf => by
      rw [hflag]
      exact h.unflagged hf
    past := h.past
    increasing := h.increasing
    atMost := hshares ▸ h.atMost
    due := fun hdue => by
      rw [hshares, hnode]
      exact h.due hdue }

end Shares

end RdbSubscriberManager

end Cpp

end DataShare
