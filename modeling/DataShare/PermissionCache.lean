import DataShare.DataSharePermission
import Mathlib.Data.List.Count

/-!
# Stale permissions

A lookup holds the permission it has read until it puts it into the cache. A `DeleteCache` that
comes between does not see it, so the permission goes into the cache after its bundle has
changed. And lookups that have all found room in the cache may overfill it.

In runs without these two (`Quiet`) no answer from a cache is older than an event that has been
handled, and the caches keep to their size (`answers_fresh`).
-/

namespace DataShare

namespace Cpp

namespace DataSharePermission

/-! ## What lookups hold -/

namespace Phase

/-- The permission that was read, and is not in the cache yet. -/
def held : Phase → Option Permission
  | size p => some p
  | clear p => some p
  | emplace p => some p
  | _ => none

def isSize : Phase → Bool
  | size _ => true
  | _ => false

def isClear : Phase → Bool
  | clear _ => true
  | _ => false

def isEmplace : Phase → Bool
  | emplace _ => true
  | _ => false

end Phase

/-- The lookup will put its permission into `c` whatever the size of `c` is then. -/
def Lookup.inserts (c : CacheKind) (l : Lookup) : Bool :=
  decide (l.cache = c) && l.phase.isEmplace

theorem inserts_eq_false {c : CacheKind} {l : Lookup}
    (h : l.cache ≠ c ∨ l.phase.isEmplace = false) : l.inserts c = false := by
  unfold Lookup.inserts
  rcases h with hcache | hphase
  · rw [decide_eq_false hcache, Bool.false_and]
  · rw [hphase, Bool.and_false]

theorem toNat_eq_ite (b : Bool) : b.toNat = if b then 1 else 0 := by
  cases b <;> rfl

/-- Setting one entry, beside the `n` others that are counted. -/
theorem exists_countP_set {α : Type} (p : α → Bool) : ∀ {as : List α} {i : ℕ} {a : α},
    as[i]? = some a → ∃ n, as.countP p = n + (p a).toNat ∧
      ∀ b, (as.set i b).countP p = n + (p b).toNat
  | [], _, _, h => by simp at h
  | a :: as, 0, _, h => by
    obtain rfl := Option.some.inj h
    refine ⟨as.countP p, ?_, fun b => ?_⟩
    · rw [List.countP_cons, toNat_eq_ite]
    · rw [List.set_cons_zero, List.countP_cons]
      cases p b <;> rfl
  | a :: as, i + 1, _, h => by
    obtain ⟨n, hn, hset⟩ := exists_countP_set p (show as[i]? = _ from h)
    refine ⟨n + (p a).toNat, ?_, fun b => ?_⟩
    · rw [List.countP_cons, hn, ← toNat_eq_ite]
      exact Nat.add_right_comm ..
    · rw [List.set_cons_succ, List.countP_cons, hset, ← toNat_eq_ite]
      exact Nat.add_right_comm ..

section Runs

variable {cm : Cache} {β : Type} {pf : Platform β} {s s' : State cm β}

/-- A permission for the cache `c`, in it or on the way to it. -/
def State.Holds (s : State cm β) (c : CacheKind) (p : Permission) : Prop :=
  (∃ k, (k, p) ∈ cm.entries (s.cache c)) ∨ ∃ l ∈ s.lookups, l.cache = c ∧ l.phase.held = some p

def State.inserting (s : State cm β) (c : CacheKind) : ℕ :=
  s.lookups.countP (Lookup.inserts c)

/-- If the next call lets the lookup insert, there is room for it and for those who may
insert already. -/
def State.HasRoom (s : State cm β) (l : Lookup) : Prop :=
  (l.phase.isSize → cm.size (s.cache l.cache) < cacheSize →
    cm.size (s.cache l.cache) + s.inserting l.cache < cacheSize) ∧
  (l.phase.isClear → s.inserting l.cache < cacheSize)

/-- No lookup holds a permission of the bundle for the cache erased next, read before the
event. -/
def State.Outrun (s : State cm β) (d : Deletion) : Prop :=
  ∀ c ∈ d.pending.head?, ∀ l ∈ s.lookups, l.cache = c → ∀ p ∈ l.phase.held,
    p.bundleName = d.bundleName → d.receivedAt ≤ p.readAt

/-- The call does not race. -/
def State.Quiet (s : State cm β) : Action β → Prop
  | .lookup i => ∀ l ∈ s.lookups[i]?, s.HasRoom l
  | .erase j => ∀ d ∈ s.deletions[j]?, s.Outrun d
  | _ => True

/-- The states after some calls that do not race. -/
inductive Reachable (pf : Platform β) (bms : β) : State cm β → Prop
  | init : Reachable pf bms (init cm bms)
  | step {s s' : State cm β} {a : Action β} (h : Reachable pf bms s) (hquiet : s.Quiet a)
      (hstep : step pf s a = some s') : Reachable pf bms s'

/-- The next call of lookup `i` answers it with `p`, from its cache. -/
def State.Answers (s : State cm β) (i : ℕ) (p : Permission) : Prop :=
  ∃ l, s.lookups[i]? = some l ∧ l.phase = .find ∧ cm.find (s.cache l.cache) l.key = some p

/-! ## The invariant -/

structure Inv (s : State cm β) : Prop where
  /-- Where an event has been handled, its bundle has been read after it. -/
  fresh : ∀ d ∈ s.deletions, ∀ c, c ∉ d.pending → ∀ p, s.Holds c p →
    p.bundleName = d.bundleName → d.receivedAt ≤ p.readAt
  received : ∀ d ∈ s.deletions, d.receivedAt ≤ s.clock
  room : ∀ c, cm.size (s.cache c) + s.inserting c ≤ cacheSize

theorem size_empty (cm : Cache) : cm.size cm.empty = 0 := by
  unfold ConcurrentMap.size
  rw [cm.entries_empty]
  rfl

theorem inv_init (bms : β) : Inv (init cm bms) := by
  refine ⟨fun d hd => absurd hd List.not_mem_nil, fun d hd => absurd hd List.not_mem_nil,
    fun c => ?_⟩
  show cm.size cm.empty + 0 ≤ cacheSize
  rw [size_empty]
  exact Nat.zero_le _

/-- A step that adds neither permissions nor insertions. -/
theorem Inv.of_subset (h : Inv s) (hholds : ∀ c p, s'.Holds c p → s.Holds c p)
    (hroom : ∀ c, cm.size (s'.cache c) + s'.inserting c ≤ cm.size (s.cache c) + s.inserting c)
    (hdeletions : s'.deletions = s.deletions) (hclock : s.clock ≤ s'.clock) : Inv s' := by
  refine ⟨fun d hd c hc p hp => ?_, fun d hd => ?_, fun c => (hroom c).trans (h.room c)⟩
  · rw [hdeletions] at hd
    exact h.fresh d hd c hc p (hholds c p hp)
  · rw [hdeletions] at hd
    exact (h.received d hd).trans hclock

/-- A lookup that starts holds nothing. -/
theorem Inv.start (h : Inv s) {l : Lookup} (hheld : l.phase.held = none)
    (hphase : l.phase.isEmplace = false) :
    Inv { s with clock := s.clock + 1, lookups := s.lookups ++ [l] } := by
  refine h.of_subset (fun c p hp => ?_) (fun c => ?_) rfl (Nat.le_succ _)
  · refine hp.imp_right ?_
    rintro ⟨l', hl', hcache, hp'⟩
    rcases List.mem_append.mp hl' with hl' | hl'
    · exact ⟨l', hl', hcache, hp'⟩
    · obtain rfl := List.mem_singleton.mp hl'
      rw [hheld] at hp'
      cases hp'
  · have hinserts : l.inserts c = false := inserts_eq_false (.inr hphase)
    refine Nat.add_le_add_left (le_of_eq ?_) _
    unfold State.inserting
    rw [List.countP_append, List.countP_singleton, hinserts]
    rfl

theorem held_getUriPermission (pf : Platform β) (uri : StdString) (user : Int32)
    (isRead : Bool) : (getUriPermission pf uri user isRead).phase.held = none ∧
      (getUriPermission pf uri user isRead).phase.isEmplace = false := by
  unfold getUriPermission
  dsimp only
  split
  · exact ⟨rfl, rfl⟩
  split
  · exact ⟨rfl, rfl⟩
  split
  · exact ⟨rfl, rfl⟩
  split <;> exact ⟨rfl, rfl⟩

/-! ## A call of a lookup -/

section Advance

variable {bms : β} {now : ℕ} {m m' : cm.Map} {l l' : Lookup}

theorem readAt_of_read {p : Permission} (h : l.read pf bms now = .ok p) : p.readAt = now := by
  unfold Lookup.read at h
  split at h
  · unfold getExtensionInfoFromBMS at h
    split at h
    · cases h
    · rename_i hinfo
      obtain ⟨info, -, hinfo⟩ := Option.bind_eq_some_iff.mp hinfo
      split at hinfo
      · cases hinfo
        cases h
        rfl
      · cases hinfo
  · unfold getProviderInfo at h
    dsimp only at h
    split at h
    · cases h
    · split at h
      · cases h
      · split at h
        · cases h
        · cases h
          rfl

theorem advance_held (h : l.advance pf bms now m = (l', m')) {p : Permission}
    (hp : l'.phase.held = some p) :
    p.readAt = now ∨ l'.cache = l.cache ∧ l.phase.held = some p := by
  unfold Lookup.advance at h
  split at h
  · split at h <;> cases h <;> cases hp
  · split at h
    · rename_i hread
      cases h
      obtain rfl := Option.some.inj hp
      exact .inl (readAt_of_read hread)
    · split at h <;> cases h <;> cases hp
  · rename_i hphase
    rw [hphase]
    split at h <;> cases h <;> exact .inr ⟨rfl, hp⟩
  · rename_i hphase
    rw [hphase]
    cases h
    exact .inr ⟨rfl, hp⟩
  · cases h
    cases hp
  · cases h
    exact .inr ⟨rfl, hp⟩

theorem advance_entries (h : l.advance pf bms now m = (l', m')) {e : UriKey × Permission}
    (he : e ∈ cm.entries m') : e ∈ cm.entries m ∨ l.phase.held = some e.2 := by
  unfold Lookup.advance at h
  split at h
  · split at h <;> cases h <;> exact .inl he
  · split at h
    · cases h
      exact .inl he
    · split at h <;> cases h <;> exact .inl he
  · split at h <;> cases h <;> exact .inl he
  · cases h
    rw [cm.entries_empty] at he
    exact absurd he List.not_mem_nil
  · rename_i hphase
    cases h
    rw [hphase]
    rcases cm.mem_emplace he with rfl | he
    · exact .inr rfl
    · exact .inl he
  · cases h
    exact .inl he

/-- A lookup inserts into the cache it was at. -/
theorem advance_cache (h : l.advance pf bms now m = (l', m')) {c : CacheKind}
    (hc : c ≠ l.cache) : l'.cache ≠ c ∨ l'.phase.isEmplace = false := by
  unfold Lookup.advance at h
  split at h
  · split at h <;> cases h <;> exact .inr rfl
  · split at h
    · cases h
      exact .inr rfl
    · split at h <;> cases h <;> exact .inr rfl
  · split at h <;> cases h <;> exact .inl hc.symm
  · cases h
    exact .inl hc.symm
  · cases h
    exact .inr rfl
  · cases h
    exact .inl hc.symm

/-- `n` are the other lookups that may insert. -/
theorem advance_size (h : l.advance pf bms now m = (l', m')) {n : ℕ}
    (hroom : cm.size m + (n + (l.inserts l.cache).toNat) ≤ cacheSize)
    (hsize : l.phase.isSize → cm.size m < cacheSize → cm.size m + n < cacheSize)
    (hclear : l.phase.isClear → n < cacheSize) :
    cm.size m' + (n + (l'.inserts l.cache).toNat) ≤ cacheSize := by
  have hold : cm.size m + n ≤ cacheSize := by omega
  have hle : (l'.inserts l.cache).toNat ≤ 1 := Bool.toNat_le _
  have hkeep : l'.phase.isEmplace = false → m' = m →
      cm.size m' + (n + (l'.inserts l.cache).toNat) ≤ cacheSize := by
    rintro hphase rfl
    rw [inserts_eq_false (.inr hphase)]
    exact hold
  unfold Lookup.advance at h
  split at h
  · split at h <;> cases h <;> exact hkeep rfl rfl
  · split at h
    · cases h
      exact hkeep rfl rfl
    · split at h <;> cases h <;> exact hkeep rfl rfl
  · rename_i hphase
    rw [hphase] at hsize
    split at h
    · cases h
      exact hkeep rfl rfl
    · rename_i hlt
      cases h
      have hlt' := hsize rfl (Nat.lt_of_not_le hlt)
      omega
  · rename_i hphase
    rw [hphase] at hclear
    cases h
    have hlt := hclear rfl
    have hempty : cm.size cm.empty = 0 := size_empty cm
    omega
  · rename_i p hphase
    -- The lookup takes the room that was kept for it.
    have hinserts : l.inserts l.cache = true := by
      unfold Lookup.inserts
      rw [hphase, decide_eq_true rfl]
      rfl
    cases h
    have hlen : cm.size (cm.emplace m l.key p) ≤ cm.size m + 1 := cm.length_emplace
    rw [inserts_eq_false (.inr rfl)]
    rw [hinserts] at hroom
    exact le_trans (Nat.add_le_add_right hlen _) (le_of_eq_of_le (by simp; omega) hroom)
  · cases h
    exact hroom

end Advance

theorem Inv.advance (h : Inv s) {i : ℕ} {l l' : Lookup} {m : cm.Map}
    (hi : s.lookups[i]? = some l) (hroom : s.HasRoom l)
    (hadv : l.advance pf s.bms s.clock (s.cache l.cache) = (l', m)) :
    Inv { s with
      clock := s.clock + 1, lookups := s.lookups.set i l'
      cache := Function.update s.cache l.cache m } := by
  have hl : l ∈ s.lookups := List.mem_of_getElem? hi
  refine ⟨fun d hd c hc p hp hname => ?_, fun d hd => (h.received d hd).trans (Nat.le_succ _),
    fun c => ?_⟩
  · -- A permission that was not there before has just been read.
    have hnew : p.readAt = s.clock ∨ s.Holds c p := by
      rcases hp with ⟨k, hk⟩ | ⟨l'', hl'', hcache, hheld⟩
      · have hk : (k, p) ∈ cm.entries (Function.update s.cache l.cache m c) := hk
        by_cases hlc : c = l.cache
        · subst hlc
          rw [Function.update_self] at hk
          rcases advance_entries hadv hk with hk | hheld
          · exact .inr (.inl ⟨k, hk⟩)
          · exact .inr (.inr ⟨l, hl, rfl, hheld⟩)
        · rw [Function.update_of_ne hlc] at hk
          exact .inr (.inl ⟨k, hk⟩)
      · rcases List.mem_or_eq_of_mem_set hl'' with hl'' | rfl
        · exact .inr (.inr ⟨l'', hl'', hcache, hheld⟩)
        · rcases advance_held hadv hheld with hnow | ⟨hsame, hheld⟩
          · exact .inl hnow
          · exact .inr (.inr ⟨l, hl, hsame.symm.trans hcache, hheld⟩)
    rcases hnew with hnow | hold
    · rw [hnow]
      exact h.received d hd
    · exact h.fresh d hd c hc p hold hname
  · obtain ⟨n, hn, hset⟩ := exists_countP_set (Lookup.inserts c) hi
    show cm.size (Function.update s.cache l.cache m c) + (s.lookups.set i l').countP _ ≤ _
    have hcount : s.inserting c = n + (l.inserts c).toNat := hn
    have hbound := h.room c
    rw [hcount] at hbound
    rw [hset]
    by_cases hlc : c = l.cache
    · subst hlc
      rw [Function.update_self]
      unfold State.HasRoom at hroom
      rw [hcount] at hroom
      exact advance_size hadv hbound
        (fun hsize hlt => (Nat.add_le_add_left (Nat.le_add_right n _) _).trans_lt
          (hroom.1 hsize hlt))
        (fun hclear => (Nat.le_add_right _ _).trans_lt (hroom.2 hclear))
    · rw [Function.update_of_ne hlc, inserts_eq_false (advance_cache hadv hlc)]
      exact (Nat.add_le_add_left (Nat.le_add_right _ _) _).trans hbound

theorem Inv.receive (h : Inv s) (bundleName : StdString) :
    Inv { s with
      clock := s.clock + 1
      deletions := s.deletions ++ [⟨bundleName, s.clock, [.extension, .silent]⟩] } := by
  refine ⟨fun d hd c hc p hp hname => ?_, fun d hd => ?_, h.room⟩
  · rcases List.mem_append.mp hd with hd | hd
    · exact h.fresh d hd c hc p hp hname
    · obtain rfl := List.mem_singleton.mp hd
      rcases c with - | -
      · exact absurd List.mem_cons_self hc
      · exact absurd (List.mem_cons_of_mem _ List.mem_cons_self) hc
  · rcases List.mem_append.mp hd with hd | hd
    · exact (h.received d hd).trans (Nat.le_succ _)
    · obtain rfl := List.mem_singleton.mp hd
      exact Nat.le_succ _

theorem Inv.erase (h : Inv s) {j : ℕ} {d : Deletion} {c : CacheKind} {pending : List CacheKind}
    (hj : s.deletions[j]? = some d) (hpending : d.pending = c :: pending) (hout : s.Outrun d) :
    Inv { s with
      clock := s.clock + 1
      deletions := s.deletions.set j { d with pending }
      cache := Function.update s.cache c
        (cm.eraseIf (s.cache c) fun _ value => value.bundleName = d.bundleName) } := by
  have hd : d ∈ s.deletions := List.mem_of_getElem? hj
  -- The entries that are left were there before, and in `c` none is of the bundle.
  have hleft : ∀ {c' e}, e ∈ cm.entries (Function.update s.cache c (cm.eraseIf (s.cache c)
      fun _ value => value.bundleName = d.bundleName) c') →
        e ∈ cm.entries (s.cache c') ∧ (c' = c → e.2.bundleName ≠ d.bundleName) := by
    intro c' e he
    by_cases hc : c' = c
    · subst hc
      rw [Function.update_self, cm.entries_eraseIf, List.mem_filter] at he
      exact ⟨he.1, fun _ heq => by simp [heq] at he⟩
    · rw [Function.update_of_ne hc] at he
      exact ⟨he, fun heq => absurd heq hc⟩
  refine ⟨fun d' hd' c' hc' p hp hname => ?_, fun d' hd' => ?_, fun c' => ?_⟩
  · have hold : s.Holds c' p := hp.imp_left fun ⟨k, hk⟩ => ⟨k, (hleft hk).1⟩
    rcases List.mem_or_eq_of_mem_set hd' with hd' | rfl
    · exact h.fresh d' hd' c' hc' p hold hname
    by_cases hc : c' = c
    · subst hc
      rcases hp with ⟨k, hk⟩ | ⟨l, hl, hcache, hheld⟩
      · exact absurd hname ((hleft hk).2 rfl)
      · exact hout c' (by rw [hpending]; rfl) l hl hcache p hheld hname
    · refine h.fresh d hd c' (fun hmem => ?_) p hold hname
      rw [hpending] at hmem
      rcases List.mem_cons.mp hmem with heq | hmem
      · exact hc heq
      · exact hc' hmem
  · rcases List.mem_or_eq_of_mem_set hd' with hd' | rfl
    · exact (h.received d' hd').trans (Nat.le_succ _)
    · exact (h.received d hd).trans (Nat.le_succ _)
  · refine (Nat.add_le_add_right ?_ _).trans (h.room c')
    unfold ConcurrentMap.size
    dsimp only
    by_cases hc : c' = c
    · subst hc
      rw [Function.update_self, cm.entries_eraseIf]
      exact List.length_filter_le _ _
    · rw [Function.update_of_ne hc]

/-! ## Runs -/

theorem Inv.step (h : Inv s) {a : Action β} (hquiet : s.Quiet a)
    (hstep : step pf s a = some s') : Inv s' := by
  unfold DataSharePermission.step at hstep
  dsimp only at hstep
  rcases a with ⟨uri, user, isRead⟩ | ⟨uri, user, isRead⟩ | ⟨uri, user, isRead⟩ | i |
    ⟨event, bundleName⟩ | j | bms
  · cases hstep
    exact h.start rfl rfl
  · cases hstep
    exact h.start rfl rfl
  · cases hstep
    obtain ⟨hheld, hphase⟩ := held_getUriPermission pf uri user isRead
    exact h.start hheld hphase
  · obtain ⟨l, hi, hres⟩ := Option.bind_eq_some_iff.mp hstep
    cases hres
    exact h.advance hi (hquiet l hi) rfl
  · dsimp only at hstep
    split at hstep
    · cases hstep
      exact h.of_subset (fun _ _ hp => hp) (fun _ => le_rfl) rfl (Nat.le_succ _)
    · cases hstep
      exact h.receive bundleName
  · obtain ⟨d, hj, hres⟩ := Option.bind_eq_some_iff.mp hstep
    split at hres
    · cases hres
    · rename_i hpending
      cases hres
      exact h.erase hj hpending (hquiet d hj)
  · cases hstep
    exact h.of_subset (fun _ _ hp => hp) (fun _ => le_rfl) rfl (Nat.le_succ _)

theorem Reachable.inv {bms : β} (h : Reachable pf bms s) : Inv s := by
  induction h with
  | init => exact inv_init bms
  | step _ hquiet hstep ih => exact ih.step hquiet hstep

/-- In runs that do not race, an answer from a cache is not older than a handled event of its
bundle, and no cache has more than `CACHE_SIZE` entries. -/
theorem answers_fresh {bms : β} (h : Reachable pf bms s) :
    (∀ d ∈ s.deletions, d.pending = [] → ∀ i p, s.Answers i p →
      p.bundleName = d.bundleName → d.receivedAt ≤ p.readAt) ∧
    ∀ c, cm.size (s.cache c) ≤ cacheSize := by
  have hinv := h.inv
  refine ⟨fun d hd hpending i p hanswers hname => ?_,
    fun c => (Nat.le_add_right _ _).trans (hinv.room c)⟩
  obtain ⟨l, -, -, hfind⟩ := hanswers
  obtain ⟨k, hk, -⟩ := cm.mem_of_find hfind
  refine hinv.fresh d hd l.cache ?_ p (.inl ⟨k, hk⟩) hname
  rw [hpending]
  exact List.not_mem_nil

instance (l : Lookup) : Decidable (s.HasRoom l) :=
  inferInstanceAs (Decidable (_ ∧ _))

instance (d : Deletion) : Decidable (s.Outrun d) :=
  inferInstanceAs (Decidable (∀ c ∈ d.pending.head?, ∀ l ∈ s.lookups, l.cache = c →
    ∀ p ∈ l.phase.held, p.bundleName = d.bundleName → d.receivedAt ≤ p.readAt))

instance : ∀ a : Action β, Decidable (s.Quiet a)
  | .lookup i => inferInstanceAs (Decidable (∀ l ∈ s.lookups[i]?, s.HasRoom l))
  | .erase j => inferInstanceAs (Decidable (∀ d ∈ s.deletions[j]?, s.Outrun d))
  | .getExtensionUriPermission .. => isTrue trivial
  | .getSilentUriPermission .. => isTrue trivial
  | .getUriPermission .. => isTrue trivial
  | .receive .. => isTrue trivial
  | .bms _ => isTrue trivial

/-- A call, if it does not race. -/
def quietStep (pf : Platform β) (s : State cm β) (a : Action β) : Option (State cm β) :=
  if s.Quiet a then step pf s a else none

theorem Reachable.run {bms : β} (h : Reachable pf bms s) {actions : List (Action β)}
    (hrun : actions.foldlM (quietStep pf) s = some s') : Reachable pf bms s' := by
  induction actions generalizing s with
  | nil =>
    cases hrun
    exact h
  | cons a actions ih =>
    rw [List.foldlM_cons] at hrun
    obtain ⟨mid, hmid, hrest⟩ := Option.bind_eq_some_iff.mp hrun
    unfold quietStep at hmid
    split at hmid
    · rename_i hquiet
      exact ih (h.step hquiet hmid) hrest
    · cases hmid

end Runs

/-! ## Two races -/

section ListMap

variable {κ ν : Type} (lt : κ → κ → Bool)

/-- `emplace`, at the first key that is not less. -/
def emplaceEntry (k : κ) (v : ν) : List (κ × ν) → List (κ × ν)
  | [] => [(k, v)]
  | e :: entries =>
    if lt e.1 k then e :: emplaceEntry k v entries
    else if lt k e.1 then (k, v) :: e :: entries
    else e :: entries

theorem mem_emplaceEntry {k : κ} {v : ν} {e : κ × ν} : ∀ {entries : List (κ × ν)},
    e ∈ emplaceEntry lt k v entries → e = (k, v) ∨ e ∈ entries
  | [], h => .inl (List.mem_singleton.mp h)
  | e' :: entries, h => by
    unfold emplaceEntry at h
    split at h
    · rcases List.mem_cons.mp h with rfl | h
      · exact .inr List.mem_cons_self
      · exact (mem_emplaceEntry h).imp_right (List.mem_cons_of_mem _)
    · split at h
      · exact List.mem_cons.mp h
      · exact .inr h

theorem length_emplaceEntry {k : κ} {v : ν} : ∀ {entries : List (κ × ν)},
    (emplaceEntry lt k v entries).length ≤ entries.length + 1
  | [] => le_rfl
  | e' :: entries => by
    unfold emplaceEntry
    split
    · exact Nat.succ_le_succ length_emplaceEntry
    · split
      · exact le_rfl
      · exact Nat.le_succ _

/-- `find`, at the first key that is not less. -/
def findEquivalent (k : κ) (entries : List (κ × ν)) : Option ν :=
  (entries.find? fun e => !lt e.1 k).bind fun e => if lt k e.1 then none else some e.2

theorem mem_of_findEquivalent {entries : List (κ × ν)} {k : κ} {v : ν}
    (h : findEquivalent lt k entries = some v) :
    ∃ k', (k', v) ∈ entries ∧ lt k k' = false ∧ lt k' k = false := by
  obtain ⟨e, he, hv⟩ := Option.bind_eq_some_iff.mp h
  have hle : (!lt e.1 k) = true := List.find?_some (p := fun e : κ × ν => !lt e.1 k) he
  split at hv
  · cases hv
  · rename_i hlt
    cases hv
    exact ⟨e.1, List.mem_of_find?_eq_some he, Bool.eq_false_of_not_eq_true hlt,
      (Bool.not_eq_true' _).mp hle⟩

/-- A map as the list of its entries in the order of their keys. -/
def listMap : ConcurrentMap κ ν lt where
  Map := List (κ × ν)
  entries := id
  empty := []
  find m k := findEquivalent lt k m
  emplace m k v := emplaceEntry lt k v m
  eraseIf m p := m.filter fun e => !p e.1 e.2
  entries_empty := rfl
  mem_of_find := mem_of_findEquivalent lt
  mem_emplace := mem_emplaceEntry lt
  length_emplace := length_emplaceEntry lt
  entries_eraseIf := rfl

end ListMap

/-- The permissions of one bundle are its version. -/
def versionPlatform : Platform UInt8 where
  getScheme _ := utf8Bytes "datashare"
  getAuthority _ := []
  getPathSegments _ := []
  anyUserId := -4
  getBundleInfo _ _ _ := none
  queryExtensionAbilityInfoByUri version _ _ := some ⟨true, [98], [version], [version]⟩
  uriTrusts := none

/-- A lookup of the uri `[n]` by user 100. -/
def lookupOf (n : UInt8) : Action UInt8 :=
  .getExtensionUriPermission [n] 100 true

theorem answers_new_version : ∃ s : State (listMap UriKey.lt) UInt8,
    Reachable versionPlatform 0 s ∧ ∃ d ∈ s.deletions, d.pending = [] ∧ ∃ p, s.Answers 2 p ∧
      p.readPermission = [1] ∧ d.receivedAt ≤ p.readAt := by
  let actions : List (Action UInt8) :=
    [lookupOf 7, .lookup 0, .lookup 0, .lookup 0, .lookup 0, .bms 1, .receive .packageChanged [98],
      .erase 0, .erase 0, lookupOf 7, .lookup 1, .lookup 1, .lookup 1, .lookup 1, lookupOf 7]
  have hrun : (actions.foldlM (quietStep versionPlatform)
      (init (listMap UriKey.lt) 0)).any fun s =>
        decide (s.deletions = [⟨[98], 6, []⟩]) &&
        decide (s.lookups[2]? = some ⟨.extension, ⟨[7], 100⟩, true, false, .find⟩) &&
        decide ((listMap UriKey.lt).find (s.cache .extension) ⟨[7], 100⟩ =
          some ⟨[98], [1], [1], 11⟩) := by
    decide +kernel
  obtain ⟨s, hs, hcheck⟩ := (Option.any_eq_true _ _).mp hrun
  simp only [Bool.and_eq_true, decide_eq_true_eq] at hcheck
  obtain ⟨⟨hdeletions, hlookup⟩, hfind⟩ := hcheck
  have hreach := Reachable.init.run hs
  have hanswers : s.Answers 2 ⟨[98], [1], [1], 11⟩ := ⟨_, hlookup, rfl, hfind⟩
  have hd : ⟨[98], 6, []⟩ ∈ s.deletions := by
    rw [hdeletions]
    exact List.mem_singleton_self _
  exact ⟨s, hreach, _, hd, rfl, _, hanswers, rfl,
    (answers_fresh hreach).1 _ hd rfl 2 _ hanswers rfl⟩

/-- 33 lookups, all up to their `Emplace` before any of these. -/
def overfullRun : List (Action UInt8) :=
  (List.range 33).map (fun n => lookupOf (.ofNat n)) ++
    (List.replicate 4 (List.range 33)).flatten.map Action.lookup

/-- A lookup that reads version 0 before the package event, and inserts after it, leaves version
0 in the cache for the next one. And 33 lookups that all find an empty cache leave 33 entries
there. -/
theorem races : (∃ actions : List _, ∃ s : State (listMap UriKey.lt) UInt8,
      actions.foldlM (step versionPlatform) (init _ 0) = some s ∧ ∃ d ∈ s.deletions,
        d.pending = [] ∧ ∃ p, s.Answers 1 p ∧ p.bundleName = d.bundleName ∧
          p.readPermission = [0] ∧ p.readAt < d.receivedAt) ∧
    ∃ actions : List _, ∃ s : State (listMap UriKey.lt) UInt8,
      actions.foldlM (step versionPlatform) (init _ 0) = some s ∧
        (listMap UriKey.lt).size (s.cache .extension) = 33 := by
  constructor
  · let actions : List (Action UInt8) :=
      [lookupOf 7, .lookup 0, .lookup 0, .bms 1, .receive .packageChanged [98], .erase 0,
        .erase 0, .lookup 0, .lookup 0, lookupOf 7]
    have hrun : (actions.foldlM (step versionPlatform) (init (listMap UriKey.lt) 0)).any fun s =>
        decide (s.deletions = [⟨[98], 4, []⟩]) &&
        decide (s.lookups[1]? = some ⟨.extension, ⟨[7], 100⟩, true, false, .find⟩) &&
        decide ((listMap UriKey.lt).find (s.cache .extension) ⟨[7], 100⟩ =
          some ⟨[98], [0], [0], 2⟩) := by
      decide +kernel
    obtain ⟨s, hs, hcheck⟩ := (Option.any_eq_true _ _).mp hrun
    simp only [Bool.and_eq_true, decide_eq_true_eq] at hcheck
    obtain ⟨⟨hdeletions, hlookup⟩, hfind⟩ := hcheck
    refine ⟨actions, s, hs, ⟨[98], 4, []⟩, ?_, rfl, _, ⟨_, hlookup, rfl, hfind⟩, rfl, rfl, ?_⟩
    · rw [hdeletions]
      exact List.mem_singleton_self _
    · decide
  · have hrun : (overfullRun.foldlM (step versionPlatform) (init (listMap UriKey.lt) 0)).any
        fun s => (listMap UriKey.lt).size (s.cache .extension) == 33 := by
      decide +kernel
    obtain ⟨s, hs, hsize⟩ := (Option.any_eq_true _ _).mp hrun
    exact ⟨overfullRun, s, hs, eq_of_beq hsize⟩

end DataSharePermission

end Cpp

end DataShare
