import DataShare.ReplayShares

/-!
# Replays between changes

Calls that are started in turn keep `Orderly` : a change is due to everyone once its nodes are
flagged, an enable takes over the share that its observer waited for, and a callback settles one. So
in every run of such calls, on observers that are registered once, every enabled observer gets the
last change, and none gets a change out of order or twice (`replayed`). Each of the windows breaks
this (`not_replayed`).
-/

namespace DataShare

namespace Cpp

namespace RdbSubscriberManager

open CallbacksManager

variable {ν : Type}

/-! ## Steps of calls in turn -/

section Steps

variable {o subscriber : ℕ} {state : KeyState ν} {threads rest : List (Progress ν)}
  {thread : Progress ν} {log : List (ℕ × Change ν)} {due : Prop} {changeNode : ν}

/-- A change that finds no callback to come is due to everyone once its nodes are flagged. -/
theorem Orderly.start_emit (h : Orderly due o state threads log)
    (hturn : InTurn ⟨state, threads⟩ (.start (.emit changeNode))) :
    Orderly True o (startCall state (.emit changeNode)).1
      ((startCall state (.emit changeNode)).2 :: threads) log := by
  have hquiet : ∀ thread ∈ threads, thread.share o (flagOf o state) = 0 := fun thread hthread =>
    share_eq_zero_of_not_mayCall (hturn thread hthread)
  have hnone : ∀ change, .flagging change ∉ threads := fun change hchange =>
    hturn _ hchange trivial
  have hcalled : calledShares o (startCall state (.emit changeNode)).1 log = 0 := by
    unfold calledShares
    refine List.countP_eq_zero.mpr fun callback hcallback hlast => ?_
    obtain ⟨hobs, hserial⟩ := of_decide_eq_true hlast
    have hpast : callback.2.serial ≤ state.latest := h.serial_le (hobs ▸ hcallback)
    have hnew : callback.2.serial = state.latest + 1 := hserial
    omega
  have hthreads : threadShares o (flagOf o state)
      (.flagging (state.toStore changeNode) :: threads) = 0 := by
    rw [threadShares_cons, threadShares_eq_zero.mpr hquiet]
    rfl
  exact {
    enabled := fun thread hthread hdecides => by
      rcases List.mem_cons.mp hthread with rfl | hold
      · exact absurd hdecides id
      · exact h.enabled thread hold hdecides
    toCall := fun left hleft change hchange => by
      rcases List.mem_cons.mp hleft with heq | hold
      · exact absurd heq (by simp [startCall])
      · obtain rfl : left = [] := not_not.mp (hturn _ hold)
        exact absurd hchange List.not_mem_nil
    toCheck := fun hflag change hchange => by
      rcases List.mem_cons.mp hchange with heq | hold
      · exact absurd heq (by simp [startCall])
      · exact absurd hflag (hturn _ hold)
    toFlag := fun change hchange => by
      rcases List.mem_cons.mp hchange with heq | hold
      · obtain rfl := Progress.flagging.inj heq
        rfl
      · exact absurd hold (hnone change)
    single := by
      have hzero : threads.countP Progress.isFlagging = 0 := by
        refine List.countP_eq_zero.mpr fun thread hthread hflag => ?_
        rcases thread with change | observer | ⟨observer, change⟩ | left
        · exact hnone change hthread
        · exact Bool.false_ne_true hflag
        · exact Bool.false_ne_true hflag
        · exact Bool.false_ne_true hflag
      rw [List.countP_cons, hzero]
      split <;> omega
    unflagged := fun _ => by
      rw [hcalled, Nat.zero_add]
      exact hthreads
    past := fun change hchange => .inr (Nat.lt_succ_of_le (h.serial_le hchange))
    increasing := h.increasing
    atMost := by
      unfold shares
      rw [hcalled]
      have hmissed := missedShares_le o state.nodes
      have hsum : threadShares o (flagOf o (startCall state (.emit changeNode)).1)
          ((startCall state (.emit changeNode)).2 :: threads) = 0 := hthreads
      have hnodes : (startCall state (.emit changeNode)).1.nodes = state.nodes := rfl
      rw [hsum, hnodes]
      omega
    due := fun _ => ⟨by simp [startCall], fun _ hnot =>
      absurd ⟨_, List.mem_cons_self⟩ hnot⟩ }

/-- The observer that is enabled had its share as a missed one, if it is flagged. -/
theorem Orderly.enable {nodes : List (ObserverNode ℕ ℕ)} {node : ObserverNode ℕ ℕ}
    (h : Orderly due o state threads log) (hold : nodeOf o state.nodes = some node)
    (hdisabled : node.enabled = false) (hnew : nodeOf o nodes = some { node with enabled := true })
    (hflagging : Flagging threads → node.isNotifyOnEnabled = false) :
    Orderly due o { state with nodes := nodes } (.reading (some o) :: threads) log := by
  have hundecided : ∀ thread ∈ threads, ¬ thread.Decides (some o) := fun thread hthread hdec => by
    rw [h.enabled thread hthread hdec node hold] at hdisabled
    exact absurd hdisabled.symm Bool.false_ne_true
  have hflagOld : flagOf o state = node.isNotifyOnEnabled := by
    rw [flagOf, notifiedOnEnabled_some, hold]
    rfl
  have hflag : flagOf o { state with nodes := nodes } = flagOf o state := by
    rw [hflagOld, flagOf, notifiedOnEnabled_some, hnew]
    rfl
  have hread : (Progress.reading (some o) : Progress ν).share o (flagOf o state) =
      missedShares o state.nodes := by
    rw [hflagOld, missedShares, hold]
    simp [Progress.share, hdisabled]
  have hmissed : missedShares o nodes = 0 := by
    rw [missedShares, hnew]
    simp
  have hsum : threadShares o (flagOf o { state with nodes := nodes })
      (.reading (some o) :: threads) =
        missedShares o state.nodes + threadShares o (flagOf o state) threads := by
    rw [hflag, threadShares_cons, hread]
  have hiff : Flagging (.reading (some o) :: threads) ↔ Flagging threads :=
    flagging_cons_of_not rfl
  have hshares : shares o { state with nodes := nodes } (.reading (some o) :: threads) log =
      shares o state threads log := by
    have hcalled : calledShares o { state with nodes := nodes } log = calledShares o state log := rfl
    unfold shares
    rw [hsum, hmissed, hcalled]
    omega
  exact {
    enabled := fun _ _ _ node' hnode' => by
      rw [hnew] at hnode'
      rw [← Option.some.inj hnode']
    toCall := fun left hleft => by
      rcases List.mem_cons.mp hleft with heq | hmem
      · exact absurd heq (by simp)
      · exact h.toCall left hmem
    toCheck := fun _ change hchange => by
      rcases List.mem_cons.mp hchange with heq | hmem
      · exact absurd heq (by simp)
      · exact absurd rfl (hundecided _ hmem)
    toFlag := fun change hchange => by
      rcases List.mem_cons.mp hchange with heq | hmem
      · exact absurd heq (by simp)
      · exact h.toFlag change hmem
    single := by
      rw [List.countP_cons_of_neg (by simp [Progress.isFlagging])]
      exact h.single
    unflagged := fun hf => by
      have hzero := h.unflagged (hiff.mp hf)
      have hunflagged : missedShares o state.nodes = 0 := by
        rw [missedShares, hold]
        simp [hflagging (hiff.mp hf)]
      rw [hsum, hunflagged, Nat.zero_add]
      exact hzero
    past := h.past
    increasing := h.increasing
    atMost := hshares ▸ h.atMost
    due := fun hdue => by
      obtain ⟨hlast, hone⟩ := h.due hdue
      refine ⟨hlast, fun _ hnot => hshares ▸ hone (by rw [hold]; rfl) fun hf => hnot (hiff.mpr hf)⟩ }

/-- An enable takes over the share of its observer, which waited for it if it is flagged. -/
theorem Orderly.start_enable (h : Orderly due o state threads log)
    (hdistinct : Distinct state.nodes)
    (hturn : InTurn ⟨state, threads⟩ (.start (.enableObservers subscriber))) :
    Orderly due o (startCall state (.enableObservers subscriber)).1
      ((startCall state (.enableObservers subscriber)).2 :: threads) log := by
  rcases hnode : nodeToEnable subscriber state.nodes with _ | node
  · rw [startCall_enable_of_none hnode]
    exact h.join fits_calling_nil rfl
  · rw [startCall_enable_of_some hnode]
    obtain ⟨hfirst, hdisabled⟩ := nodeToEnable_eq_some.mp hnode
    have hmem : node ∈ state.nodes := List.mem_of_find?_eq_some hfirst
    have henable := nodeOf_enableFirst (o := o) hdistinct hnode
    by_cases hobs : node.observer = some o
    · rw [if_pos hobs] at henable
      have hold : nodeOf o state.nodes = some node := hdistinct.nodeOf_eq hmem hobs
      have henabled := h.enable hold hdisabled henable fun hf => hturn hf node hnode
      rw [← hobs] at henabled
      exact henabled
    · rw [if_neg hobs] at henable
      have hfits : (Progress.reading node.observer : Progress ν).Fits o
          { state with nodes := enableFirst subscriber state.nodes } :=
        ⟨rfl, fun hdec => absurd hdec hobs, fun _ heq => absurd heq (by simp),
          fun _ _ heq => absurd heq (by simp)⟩
      exact (h.congr_nodes henable).join hfits (if_neg fun hflag => hobs hflag.1)

/-- A disable that finds no enable of its observers undecided leaves the shares as they are. -/
theorem Orderly.start_disable (h : Orderly due o state threads log)
    (hturn : InTurn ⟨state, threads⟩ (.start (.disableObservers subscriber))) :
    Orderly due o (startCall state (.disableObservers subscriber)).1
      ((startCall state (.disableObservers subscriber)).2 :: threads) log := by
  have hnew : nodeOf o (disableEnabled subscriber state.nodes) = _ := nodeOf_disableEnabled
  have hstart : startCall state (.disableObservers subscriber) =
      ({ state with nodes := disableEnabled subscriber state.nodes }, .calling []) := rfl
  rw [hstart]
  refine Orderly.join ?_ fits_calling_nil rfl
  dsimp only
  rcases hold : nodeOf o state.nodes with _ | node
  · rw [hold] at hnew
    exact h.congr_nodes (hnew.trans hold.symm)
  · rw [hold, Option.map_some] at hnew
    by_cases hreset : node.subscriber = subscriber ∧ node.enabled = true
    · rw [if_pos hreset] at hnew
      obtain ⟨hmem, hobs⟩ := of_nodeOf hold
      have hundecided : ∀ thread ∈ threads, ¬ thread.Decides (some o) := fun thread hthread hdec =>
        hturn node hmem hreset.1 thread hthread (hobs ▸ hdec)
      have hflag : flagOf o { state with nodes := disableEnabled subscriber state.nodes } = false := by
        rw [flagOf, notifiedOnEnabled_some, hnew]
        rfl
      have hsum := threadShares_congr false (flagOf o state) hundecided
      have hmissedOld : missedShares o state.nodes = 0 := by
        rw [missedShares, hold]
        simp [hreset.2]
      have hmissed : missedShares o (disableEnabled subscriber state.nodes) = 0 := by
        rw [missedShares, hnew]
        simp
      have hshares : shares o { state with nodes := disableEnabled subscriber state.nodes }
          threads log = shares o state threads log := by
        unfold shares
        rw [hflag, hsum, hmissedOld, hmissed]
        rfl
      exact {
        enabled := fun thread hthread hdec => absurd hdec (hundecided thread hthread)
        toCall := h.toCall
        toCheck := fun _ change hchange => absurd rfl (hundecided _ hchange)
        toFlag := h.toFlag
        single := h.single
        unflagged := fun hf => by
          rw [hflag, hsum]
          exact h.unflagged hf
        past := h.past
        increasing := h.increasing
        atMost := by
          have hle := h.atMost
          rw [← hshares] at hle
          exact hle
        due := fun hdue => by
          obtain ⟨hlast, hone⟩ := h.due hdue
          refine ⟨hlast, fun _ hnot => ?_⟩
          exact hshares.trans (hone (by rw [hold]; rfl) hnot) }
    · rw [if_neg hreset] at hnew
      exact h.congr_nodes (hnew.trans hold.symm)

/-- The nodes are flagged : the enabled observer is collected for the change, the disabled one waits
for it. -/
theorem Orderly.next_flagging {change : Change ν}
    (h : Orderly due o state (.flagging change :: rest) log) (hdistinct : Distinct state.nodes) :
    Orderly due o { state with nodes := setNotifiedOn state.nodes }
      (.calling ((enabledObservers state.nodes).map fun obs => (obs, change)) :: rest) log := by
  have hlast : state.lastChangeNode = some change := h.toFlag change List.mem_cons_self
  have hrest : rest.countP Progress.isFlagging = 0 := by
    have hsingle := h.single
    rw [List.countP_cons_of_pos rfl] at hsingle
    omega
  have hnone : ∀ other, .flagging other ∉ rest := fun other hother =>
    List.countP_eq_zero.mp hrest _ hother rfl
  have hzero := h.unflagged ⟨change, List.mem_cons_self⟩
  rw [threadShares_cons] at hzero
  have hnew : nodeOf o (setNotifiedOn state.nodes) = _ := nodeOf_setNotifiedOn
  have hflag : flagOf o { state with nodes := setNotifiedOn state.nodes } =
      (nodeOf o state.nodes).elim false fun node => !node.enabled := by
    rw [flagOf, notifiedOnEnabled_some, hnew]
    rcases nodeOf o state.nodes with _ | node <;> rfl
  have hcollected : (Progress.calling ((enabledObservers state.nodes).map fun obs =>
      (obs, change))).share o (flagOf o { state with nodes := setNotifiedOn state.nodes }) =
        (nodeOf o state.nodes).elim 0 fun node => if node.enabled then 1 else 0 := by
    rw [← count_enabledObservers hdistinct]
    simp only [Progress.share, List.countP_map, List.count_eq_countP]
    exact List.countP_congr fun obs _ => by simp
  have hquiet : threadShares o (flagOf o { state with nodes := setNotifiedOn state.nodes }) rest =
      0 := by
    have hbefore : threadShares o (flagOf o state) rest = 0 := by omega
    by_cases hwaits : flagOf o { state with nodes := setNotifiedOn state.nodes } = true
    · -- the observer is disabled, so no enable of it is under way
      rw [hflag] at hwaits
      obtain ⟨node, hnode, hdisabled⟩ : ∃ node, nodeOf o state.nodes = some node ∧
          node.enabled = false := by
        rcases hnode : nodeOf o state.nodes with _ | node
        · rw [hnode] at hwaits
          exact absurd hwaits Bool.false_ne_true
        · rw [hnode] at hwaits
          exact ⟨node, rfl, by simpa using hwaits⟩
      rw [threadShares_congr _ (flagOf o state) fun thread hthread hdec => ?_]
      · exact hbefore
      · rw [h.enabled thread (List.mem_cons_of_mem _ hthread) hdec node hnode] at hdisabled
        exact absurd hdisabled.symm Bool.false_ne_true
    · rw [Bool.eq_false_iff.mpr hwaits]
      rw [threadShares_eq_zero] at hbefore ⊢
      exact fun thread hthread => share_false_eq_zero (hbefore thread hthread)
  have hmissed : missedShares o (setNotifiedOn state.nodes) =
      (nodeOf o state.nodes).elim 0 fun node => if node.enabled then 0 else 1 := by
    rw [missedShares, hnew]
    rcases nodeOf o state.nodes with _ | node
    · rfl
    · rcases hon : node.enabled <;> simp [hon]
  have hcalled : calledShares o { state with nodes := setNotifiedOn state.nodes } log = 0 := by
    have hsame : calledShares o { state with nodes := setNotifiedOn state.nodes } log =
        calledShares o state log := rfl
    omega
  have hshares : shares o { state with nodes := setNotifiedOn state.nodes }
      (.calling ((enabledObservers state.nodes).map fun obs => (obs, change)) :: rest) log =
        (nodeOf o state.nodes).elim 0 fun _ => 1 := by
    unfold shares
    rw [threadShares_cons, hcollected, hquiet, hcalled, hmissed]
    rcases nodeOf o state.nodes with _ | node
    · rfl
    · rcases hon : node.enabled <;> simp [hon]
  have hnotFlagging : ¬ Flagging
      (.calling ((enabledObservers state.nodes).map fun obs => (obs, change)) :: rest) := by
    rw [flagging_cons_of_not rfl]
    exact fun hf => hf.elim hnone
  exact {
    enabled := fun thread hthread hdec node hnode => by
      rcases List.mem_cons.mp hthread with rfl | hmem
      · exact absurd hdec id
      · obtain ⟨old, hold, rfl⟩ := Option.map_eq_some_iff.mp (hnew.symm.trans hnode)
        exact h.enabled thread (List.mem_cons_of_mem _ hmem) hdec old hold
    toCall := fun left hleft other hother => by
      rcases List.mem_cons.mp hleft with heq | hmem
      · obtain rfl := Progress.calling.inj heq
        obtain ⟨obs, -, hpair⟩ := List.mem_map.mp hother
        rw [← (Prod.mk.inj hpair).2]
        exact hlast
      · exact h.toCall left (List.mem_cons_of_mem _ hmem) other hother
    toCheck := fun hwaits other hother => by
      rcases List.mem_cons.mp hother with heq | hmem
      · exact absurd heq (by simp)
      · rw [threadShares_eq_zero] at hquiet
        have hshare := hquiet _ hmem
        exact absurd hshare (by simp [Progress.share, hwaits])
    toFlag := fun other hother => absurd ⟨other, hother⟩ hnotFlagging
    single := by
      rw [List.countP_cons_of_neg (by simp [Progress.isFlagging]), hrest]
      exact Nat.zero_le 1
    unflagged := fun hf => absurd hf hnotFlagging
    past := h.past
    increasing := h.increasing
    atMost := by
      rw [hshares]
      rcases nodeOf o state.nodes with _ | node
      · exact Nat.zero_le 1
      · exact Nat.le_refl 1
    due := fun _ => by
      refine ⟨by rw [hlast]; simp, fun hsome _ => ?_⟩
      rw [hshares]
      rw [hnew, Option.isSome_map] at hsome
      obtain ⟨node, hnode⟩ := Option.isSome_iff_exists.mp hsome
      rw [hnode, Option.elim_some] }

/-- An enable reads the last node, which is the change it has a share in. -/
theorem Orderly.next_reading {observer : Option ℕ}
    (h : Orderly due o state (.reading observer :: rest) log) :
    Orderly due o (nextStep state (.reading observer)).1
      ((nextStep state (.reading observer)).2.1 :: rest) log := by
  rcases hlast : state.lastChangeNode with _ | change
  · have hnext : nextStep state (.reading observer) = (state, .calling [], []) := by
      simp only [nextStep, hlast]
    rw [hnext]
    exact h.move rfl fits_calling_nil (Nat.zero_le _) fun hdue => absurd hlast (h.due hdue).1
  · have hnext : nextStep state (.reading observer) = (state, .checking observer change, []) := by
      simp only [nextStep, hlast]
    have hfits : (Progress.checking observer change).Fits o state := {
      notFlagging := rfl
      enabled := fun hdec => h.enabled (.reading observer) List.mem_cons_self hdec
      toCall := fun _ heq => absurd heq (by simp)
      toCheck := fun _ other heq => by
        rw [hlast, (Progress.checking.inj heq).2] }
    rw [hnext]
    exact h.move rfl hfits (Nat.le_refl _) fun _ => Nat.le_refl _

/-- An enable settles on its callback if it has a share. -/
theorem Orderly.next_checking {observer : Option ℕ} {change : Change ν}
    (h : Orderly due o state (.checking observer change :: rest) log) :
    Orderly due o (nextStep state (.checking observer change)).1
      ((nextStep state (.checking observer change)).2.1 :: rest) log := by
  by_cases hnotified : notifiedOnEnabled observer state.nodes = true
  · have hnext : nextStep state (.checking observer change) =
        (state, .calling (observer.map fun obs => (obs, change)).toList, []) := if_pos hnotified
    have hfits : (Progress.calling (observer.map fun obs => (obs, change)).toList).Fits o state := {
      notFlagging := rfl
      enabled := fun hdec => absurd hdec id
      toCall := fun left heq other hother => by
        obtain rfl := Progress.calling.inj heq
        obtain ⟨obs, rfl, hpair⟩ := Option.map_eq_some_iff.mp (Option.mem_toList.mp hother)
        obtain ⟨rfl, rfl⟩ := Prod.mk.inj hpair
        exact h.toCheck hnotified change List.mem_cons_self
      toCheck := fun _ _ heq => absurd heq (by simp) }
    have hshare : (Progress.calling (observer.map fun obs => (obs, change)).toList).share o
        (flagOf o state) = (Progress.checking observer change).share o (flagOf o state) := by
      rcases observer with _ | obs
      · simp [Progress.share]
      · by_cases hobs : obs = o
        · subst hobs
          simp [Progress.share, flagOf, hnotified]
        · simp [Progress.share, hobs]
    rw [hnext]
    exact h.move rfl hfits hshare.le fun _ => hshare.ge
  · have hnext : nextStep state (.checking observer change) = (state, .calling [], []) :=
      if_neg hnotified
    have hshare : (Progress.checking observer change).share o (flagOf o state) = 0 := by
      refine if_neg fun hobs => hnotified ?_
      obtain ⟨rfl, hflag⟩ := hobs
      exact hflag
    rw [hnext]
    exact h.move rfl fits_calling_nil (Nat.zero_le _) fun _ => hshare.le

/-- The callback is made, in order : all earlier ones were made with older changes. -/
theorem Orderly.next_calling {callback : ℕ × Change ν} {left : List (ℕ × Change ν)}
    (h : Orderly due o state (.calling (callback :: left) :: rest) log) :
    Orderly due o state (.calling left :: rest) (log ++ [callback]) := by
  have hlast : callback.1 = o → state.lastChangeNode = some callback.2 := fun hobs =>
    h.toCall _ List.mem_cons_self callback.2 (hobs ▸ List.mem_cons_self)
  have hserial : callback.1 = o → callback.2.serial = state.latest := fun hobs => by
    rw [KeyState.latest, hlast hobs, Option.elim_some]
  have hsum : calledShares o state (log ++ [callback]) +
      threadShares o (flagOf o state) (.calling left :: rest) = calledShares o state log +
        threadShares o (flagOf o state) (.calling (callback :: left) :: rest) := by
    have hleft : (Progress.calling (callback :: left)).share o (flagOf o state) =
        (Progress.calling left).share o (flagOf o state) + if callback.1 = o then 1 else 0 := by
      simp [Progress.share, List.countP_cons]
    have hcalled : calledShares o state (log ++ [callback]) =
        calledShares o state log + if callback.1 = o then 1 else 0 := by
      unfold calledShares
      rw [List.countP_append, List.countP_singleton]
      by_cases hobs : callback.1 = o
      · simp [hobs, hserial hobs]
      · simp [hobs]
    rw [threadShares_cons, threadShares_cons, hleft, hcalled]
    omega
  have holder : callback.1 = o → ∀ earlier ∈ log, earlier.1 = o →
      earlier.2.serial < callback.2.serial := by
    intro hobs earlier hearlier hearlierObs
    have hle : earlier.2.serial ≤ state.latest := h.serial_le (hearlierObs ▸ hearlier)
    have hne : earlier.2.serial ≠ state.latest := fun heq => by
      have hcalled : 0 < calledShares o state log :=
        List.countP_pos_iff.mpr ⟨earlier, hearlier, by simp [hearlierObs, heq]⟩
      have hshare : 0 < (Progress.calling (callback :: left)).share o (flagOf o state) :=
        List.countP_pos_iff.mpr ⟨callback, List.mem_cons_self, by simpa using hobs⟩
      have hle := h.atMost
      unfold shares at hle
      rw [threadShares_cons] at hle
      omega
    rw [hserial hobs]
    omega
  have hshares : shares o state (.calling left :: rest) (log ++ [callback]) =
      shares o state (.calling (callback :: left) :: rest) log := by
    unfold shares
    omega
  have hiff : Flagging (.calling left :: rest) ↔ Flagging (.calling (callback :: left) :: rest) := by
    rw [flagging_cons_of_not rfl, flagging_cons_of_not rfl]
  exact {
    enabled := fun thread hthread hdec => by
      rcases List.mem_cons.mp hthread with rfl | hmem
      · exact absurd hdec id
      · exact h.enabled thread (List.mem_cons_of_mem _ hmem) hdec
    toCall := fun other hother change hchange => by
      rcases List.mem_cons.mp hother with heq | hmem
      · obtain rfl := Progress.calling.inj heq
        exact h.toCall _ List.mem_cons_self change (List.mem_cons_of_mem _ hchange)
      · exact h.toCall other (List.mem_cons_of_mem _ hmem) change hchange
    toCheck := fun hflag change hchange => by
      rcases List.mem_cons.mp hchange with heq | hmem
      · exact absurd heq (by simp)
      · exact h.toCheck hflag change (List.mem_cons_of_mem _ hmem)
    toFlag := fun change hchange => by
      rcases List.mem_cons.mp hchange with heq | hmem
      · exact absurd heq (by simp)
      · exact h.toFlag change (List.mem_cons_of_mem _ hmem)
    single := by
      have hsingle := h.single
      rw [List.countP_cons_of_neg (by simp [Progress.isFlagging])] at hsingle ⊢
      exact hsingle
    unflagged := fun hf => hsum.trans (h.unflagged (hiff.mp hf))
    past := fun change hchange => by
      rcases List.mem_append.mp hchange with hold | hnew
      · exact h.past change hold
      · rw [← List.mem_singleton.mp hnew] at hlast
        exact .inl (hlast rfl)
    increasing := by
      refine List.pairwise_append.mpr ⟨h.increasing, List.pairwise_singleton _ _, ?_⟩
      intro earlier hearlier last hlast hearlierObs hlastObs
      obtain rfl := List.mem_singleton.mp hlast
      exact holder hlastObs earlier hearlier hearlierObs
    atMost := hshares ▸ h.atMost
    due := fun hdue => ⟨(h.due hdue).1, fun hsome hnot =>
      hshares.trans ((h.due hdue).2 hsome fun hf => hnot (hiff.mpr hf))⟩ }

/-- A step of a call that is under way. -/
theorem Orderly.next (h : Orderly due o state (thread :: rest) log)
    (hdistinct : Distinct state.nodes) :
    Orderly due o (nextStep state thread).1 ((nextStep state thread).2.1 :: rest)
      (log ++ (nextStep state thread).2.2) := by
  rcases thread with change | observer | ⟨observer, change⟩ | ⟨_ | ⟨callback, left⟩⟩
  · simpa [nextStep] using h.next_flagging hdistinct
  · have hsilent : (nextStep state (.reading observer)).2.2 = [] := by
      unfold nextStep
      dsimp only
      rcases state.lastChangeNode <;> rfl
    rw [hsilent, List.append_nil]
    exact h.next_reading
  · have hsilent : (nextStep state (.checking observer change)).2.2 = [] := by
      unfold nextStep
      dsimp only
      split <;> rfl
    rw [hsilent, List.append_nil]
    exact h.next_checking
  · simpa [nextStep] using h
  · exact h.next_calling

end Steps

/-! ## Runs -/

section Runs

variable {state : KeyState ν} {pool : KeyPool ν} {log : List (ℕ × Change ν)} {due : Prop}
  {events : List (KeyEvent ν)}

theorem map_observer_disableEnabled (subscriber : ℕ) (nodes : List (ObserverNode ℕ ℕ)) :
    (disableEnabled subscriber nodes).map ObserverNode.observer =
      nodes.map ObserverNode.observer := by
  unfold disableEnabled
  split
  · exact map_observer_disableSubscriber
  · rfl

theorem map_observer_setNotifiedOn (nodes : List (ObserverNode ℕ ℕ)) :
    (setNotifiedOn nodes).map ObserverNode.observer = nodes.map ObserverNode.observer := by
  unfold setNotifiedOn
  rw [List.map_map]
  rfl

theorem Distinct.start (h : Distinct state.nodes) (call : KeyCall ν) :
    Distinct (startCall state call).1.nodes := by
  rcases call with changeNode | subscriber | subscriber
  · exact h
  · rcases hnode : nodeToEnable subscriber state.nodes with _ | node
    · rw [startCall_enable_of_none hnode]
      exact h
    · rw [startCall_enable_of_some hnode]
      exact h.of_map_eq (map_observer_enableFirst _)
  · exact h.of_map_eq (map_observer_disableEnabled _ _)

theorem Distinct.next (h : Distinct state.nodes) (thread : Progress ν) :
    Distinct (nextStep state thread).1.nodes := by
  rcases nextStep_fst state thread with heq | heq
  · rw [heq]
    exact h
  · rw [heq]
    exact h.of_map_eq (map_observer_setNotifiedOn _)

/-- Every observer is registered once, and has its share in the last change. -/
structure OrderlyPool (due : Prop) (pool : KeyPool ν) (log : List (ℕ × Change ν)) : Prop where
  distinct : Distinct pool.shared.nodes
  orderly : ∀ o, Orderly due o pool.shared pool.threads log

theorem OrderlyPool.init (hdistinct : Distinct state.nodes) :
    OrderlyPool False ⟨state, []⟩ [] where
  distinct := hdistinct
  orderly := fun o => {
    enabled := fun _ h => absurd h List.not_mem_nil
    toCall := fun _ h => absurd h List.not_mem_nil
    toCheck := fun _ _ h => absurd h List.not_mem_nil
    toFlag := fun _ h => absurd h List.not_mem_nil
    single := Nat.zero_le 1
    unflagged := fun ⟨_, h⟩ => absurd h List.not_mem_nil
    past := fun _ h => absurd h List.not_mem_nil
    increasing := List.Pairwise.nil
    atMost := by
      have hmissed := missedShares_le o state.nodes
      simpa [shares, calledShares, threadShares] using hmissed
    due := False.elim }

theorem OrderlyPool.emit {changeNode : ν} (h : OrderlyPool due pool log)
    (hturn : InTurn pool (.start (.emit changeNode))) :
    OrderlyPool True (keyProtocol.step pool (.start (.emit changeNode))).1
      (log ++ (keyProtocol.step pool (.start (.emit changeNode))).2) := by
  rw [step_start, List.append_nil]
  refine ⟨h.distinct.start _, fun o => ?_⟩
  exact ((h.orderly o).start_emit hturn).perm (List.perm_append_singleton _ _).symm

/-- A step other than a change keeps what is due. -/
theorem OrderlyPool.step {event : KeyEvent ν} (h : OrderlyPool due pool log)
    (hturn : InTurn pool event) (hemit : ∀ changeNode, event ≠ .start (.emit changeNode)) :
    OrderlyPool due (keyProtocol.step pool event).1 (log ++ (keyProtocol.step pool event).2) := by
  rcases event with call | i
  · rw [step_start, List.append_nil]
    refine ⟨h.distinct.start call, fun o => ?_⟩
    refine Orderly.perm ?_ (List.perm_append_singleton _ _).symm
    rcases call with changeNode | subscriber | subscriber
    · exact absurd rfl (hemit changeNode)
    · exact (h.orderly o).start_enable h.distinct hturn
    · exact (h.orderly o).start_disable hturn
  · rcases hi : pool.threads[i]? with _ | thread
    · rw [Protocol.step_advance_of_none hi, List.append_nil]
      exact h
    · rw [Protocol.step_advance_of_some hi]
      obtain ⟨rest, hperm, hset⟩ := Protocol.exists_perm_set hi
      refine ⟨h.distinct.next thread, fun o => ?_⟩
      exact (((h.orderly o).perm hperm).next h.distinct).perm (hset _).symm

theorem OrderlyPool.weaken (h : OrderlyPool due pool log) : OrderlyPool False pool log :=
  ⟨h.distinct, fun o => { h.orderly o with due := False.elim }⟩

/-- The calls of a run are started in turn. -/
def InTurnRun (state : KeyState ν) (events : List (KeyEvent ν)) : Prop :=
  AllowedRun keyProtocol.step InTurn ⟨state, []⟩ events

theorem orderlyPool_run (hdistinct : Distinct state.nodes) (h : InTurnRun state events) :
    OrderlyPool False (poolAfter state events) (callbacksOf state events) := by
  refine AllowedRun.invariant h (.init hdistinct) fun pool log event hturn hpool => ?_
  by_cases hemit : ∃ changeNode, event = .start (.emit changeNode)
  · obtain ⟨changeNode, rfl⟩ := hemit
    exact (hpool.emit hturn).weaken
  · exact hpool.step hturn fun changeNode heq => hemit ⟨changeNode, heq⟩

theorem lastChangeNode_step {event : KeyEvent ν}
    (hemit : ∀ changeNode, event ≠ .start (.emit changeNode)) :
    (keyProtocol.step pool event).1.shared.lastChangeNode = pool.shared.lastChangeNode := by
  rcases event with call | i
  · rw [step_start]
    dsimp only
    rcases call with changeNode | subscriber | subscriber
    · exact absurd rfl (hemit changeNode)
    · rcases hnode : nodeToEnable subscriber pool.shared.nodes with _ | node
      · rw [startCall_enable_of_none hnode]
      · rw [startCall_enable_of_some hnode]
    · rfl
  · rcases hi : pool.threads[i]? with _ | thread
    · rw [Protocol.step_advance_of_none hi]
    · rw [Protocol.step_advance_of_some hi]
      have hnext : (nextStep pool.shared thread).1.lastChangeNode = pool.shared.lastChangeNode := by
        rcases nextStep_fst pool.shared thread with heq | heq
        · rw [heq]
        · rw [heq]
      exact hnext

/-- The pool after the last change of a run has it due to every observer. -/
theorem orderlyPool_last {before after : List (KeyEvent ν)} {changeNode : ν}
    (hdistinct : Distinct state.nodes) (hlast : NoEmit after)
    (h : InTurnRun state (before ++ .start (.emit changeNode) :: after)) :
    OrderlyPool True (poolAfter state (before ++ .start (.emit changeNode) :: after))
        (callbacksOf state (before ++ .start (.emit changeNode) :: after)) ∧
      (poolAfter state (before ++ .start (.emit changeNode) :: after)).shared.lastChangeNode =
        some ((poolAfter state before).shared.toStore changeNode) := by
  have hsplit : before ++ .start (.emit changeNode) :: after =
      (before ++ [.start (.emit changeNode)]) ++ after := by simp
  unfold InTurnRun at h
  rw [hsplit] at h ⊢
  obtain ⟨hthen, hafter⟩ := h.of_append
  obtain ⟨hbefore, hturn⟩ := allowedRun_concat.mp hthen
  have hpool : OrderlyPool True (poolAfter state (before ++ [.start (.emit changeNode)]))
      (callbacksOf state (before ++ [.start (.emit changeNode)])) := by
    unfold poolAfter callbacksOf Protocol.run
    rw [runCalls_concat]
    exact (orderlyPool_run hdistinct hbefore).emit hturn
  have hstored : (poolAfter state (before ++ [.start (.emit changeNode)])).shared.lastChangeNode =
      some ((poolAfter state before).shared.toStore changeNode) := by
    unfold poolAfter Protocol.run
    rw [runCalls_concat]
    rfl
  have hallowed : AllowedRun keyProtocol.step (fun pool event => InTurn pool event ∧
      ∀ other, event ≠ .start (.emit other))
      (poolAfter state (before ++ [.start (.emit changeNode)])) after :=
    fun early event late heq => ⟨hafter early event late heq,
      fun other hevent => hlast other (by simp [heq, hevent])⟩
  have hrun := hallowed.invariant (P := fun pool log =>
    OrderlyPool True pool (callbacksOf state (before ++ [.start (.emit changeNode)]) ++ log) ∧
      pool.shared.lastChangeNode = some ((poolAfter state before).shared.toStore changeNode))
    ⟨by rwa [List.append_nil], hstored⟩ fun pool log event hevent hinv => by
      refine ⟨?_, (lastChangeNode_step hevent.2).trans hinv.2⟩
      rw [← List.append_assoc]
      exact hinv.1.step hevent.1 hevent.2
  unfold poolAfter callbacksOf Protocol.run at hrun ⊢
  rw [runCalls_append]
  exact hrun

/-- In a run of calls that are started in turn, on observers that are registered once, every enabled
observer gets the last change, and none gets a change out of order or twice. -/
theorem replayed (hdistinct : Distinct state.nodes) (h : InTurnRun state events) :
    Replayed state events := by
  have hpool := orderlyPool_run hdistinct h
  have hincreasing : (callbacksOf state events).Pairwise fun a b =>
      a.1 = b.1 → a.2.serial < b.2.serial := by
    rw [List.pairwise_iff_getElem]
    intro i j hi hj hij hobs
    exact List.pairwise_iff_getElem.mp (hpool.orderly _).increasing i j hi hj hij hobs rfl
  refine ⟨?_, hincreasing.imp fun hlt hobs => (hlt hobs).not_gt,
    hincreasing.imp fun hlt hobs => (hlt hobs).ne⟩
  rintro before changeNode after rfl hlast hfinished node hnode henabled observer hobs
  obtain ⟨hdue, hstored⟩ := orderlyPool_last hdistinct hlast h
  have hown := hdue.distinct.nodeOf_eq hnode hobs
  have hover : ¬ Flagging (poolAfter state (before ++ .start (.emit changeNode) :: after)).threads := by
    rintro ⟨change, hchange⟩
    exact absurd (hfinished _ hchange) (by simp)
  have hone := ((hdue.orderly observer).due trivial).2 (by rw [hown]; rfl) hover
  have hthreads : threadShares observer
      (flagOf observer (poolAfter state (before ++ .start (.emit changeNode) :: after)).shared)
      (poolAfter state (before ++ .start (.emit changeNode) :: after)).threads = 0 := by
    refine threadShares_eq_zero.mpr fun thread hthread => ?_
    rw [hfinished thread hthread]
    rfl
  have hmissed : missedShares observer
      (poolAfter state (before ++ .start (.emit changeNode) :: after)).shared.nodes = 0 := by
    rw [missedShares, hown]
    simp [henabled]
  unfold shares at hone
  have hcalled : 0 < calledShares observer
      (poolAfter state (before ++ .start (.emit changeNode) :: after)).shared
      (callbacksOf state (before ++ .start (.emit changeNode) :: after)) := by omega
  obtain ⟨callback, hcallback, hthis⟩ := List.countP_pos_iff.mp hcalled
  obtain ⟨rfl, hserial⟩ := of_decide_eq_true hthis
  rcases (hdue.orderly callback.1).past callback.2 hcallback with heq | hlt
  · rw [Option.some.inj (hstored.symm.trans heq)]
    exact hcallback
  · omega

end Runs

/-! ## Runs of one observer -/

/-- One enabled observer, that was called with nothing yet. -/
def oneObserver : KeyState ℕ :=
  ⟨[⟨some 0, true, 1, false⟩], none⟩

/-- The observer misses a change and is enabled. -/
def missThenEnable : List (KeyEvent ℕ) :=
  [.start (.disableObservers 1), .start (.emit 5), .advance 1, .start (.enableObservers 1),
    .advance 2, .advance 2, .advance 2]

theorem replayed_missThenEnable : Replayed oneObserver missThenEnable := by
  have hturn : InTurnRun oneObserver missThenEnable := by
    change AllowedRun _ _ _ ([] ++ [_] ++ [_] ++ [_] ++ [_] ++ [_] ++ [_] ++ [_])
    simp only [allowedRun_concat]
    refine ⟨⟨⟨⟨⟨⟨⟨allowedRun_nil, ?_⟩, ?_⟩, trivial⟩, ?_⟩, trivial⟩, trivial⟩, trivial⟩
    · exact fun _ _ _ _ hthread => absurd hthread List.not_mem_nil
    · intro thread hthread
      obtain rfl := List.mem_singleton.mp hthread
      exact not_not.mpr rfl
    · rintro ⟨change, hchange⟩
      have hthreads : Progress.flagging change ∈ [.calling [], .calling []] := hchange
      exact absurd hthreads (by simp)
  exact replayed (by unfold Distinct; decide) hturn

/-- The second change overtakes the first one. -/
def overtaken : List (KeyEvent ℕ) :=
  [.start (.emit 5), .advance 0, .start (.emit 6), .advance 1, .advance 1, .advance 0]

/-- An enable reads a change before its nodes are flagged. -/
def readBeforeFlag : List (KeyEvent ℕ) :=
  [.start (.disableObservers 1), .start (.emit 5), .advance 1, .start (.enableObservers 1),
    .start (.emit 6), .advance 2, .advance 2, .advance 3, .advance 3, .advance 2]

/-- A disable resets the flag before an enable reads it. -/
def resetBeforeRead : List (KeyEvent ℕ) :=
  [.start (.disableObservers 1), .start (.emit 5), .advance 1, .start (.enableObservers 1),
    .start (.disableObservers 1), .advance 2, .advance 2, .start (.enableObservers 1),
    .advance 4, .advance 4]

/-- Each of the windows breaks one part : the order, the single delivery, and the delivery. -/
theorem not_replayed : ¬ Replayed oneObserver overtaken ∧ ¬ Replayed oneObserver readBeforeFlag ∧
    ¬ Replayed oneObserver resetBeforeRead := by
  refine ⟨fun h => ?_, fun h => ?_, fun h => ?_⟩
  · have hordered := h.ordered
    exact absurd hordered (by decide)
  · have honce := h.once
    exact absurd honce (by decide)
  · have hdelivered := h.delivered [.start (.disableObservers 1)] 5
      [.advance 1, .start (.enableObservers 1), .start (.disableObservers 1), .advance 2,
        .advance 2, .start (.enableObservers 1), .advance 4, .advance 4] rfl
      (fun other => by simp) (by unfold Finished; decide) ⟨some 0, true, 1, false⟩ (by decide) rfl
      0 rfl
    exact absurd hdelivered (by decide)

end RdbSubscriberManager

end Cpp

end DataShare
