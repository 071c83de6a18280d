import DataShare.BundleConfigCache
import Mathlib.Order.Nat

/-!
# Updates of a bundle while it is loaded

A load takes the lock of the cache to look its key up, asks the bundle manager without it, and
takes it again to insert the answer. An update of the bundle, and the `delete` that follows it,
may come between the question and the insertion, and another load may insert first. A step is
one of these parts of one load, an update, or a call that invalidates.

A load that inserts what was read before an update that has been deleted, or that finds an
older entry there and leaves it, is late. The cache is current in every state of a run exactly
if no insertion of the run is late (`alwaysCurrent_iff`).
-/

namespace DataShare

namespace BundleConfig

/-- The part of a load that comes next, or how it ended : with what it found in the cache, with
what it inserted, or with an answer that is not cached. -/
inductive Phase
  | query
  | insert (ptr : ℕ)
  | hit (ptr : ℕ)
  | inserted (ptr : ℕ)
  | failed (ptr : Option ℕ)
deriving DecidableEq

structure Load where
  id : BundleId
  phase : Phase
deriving DecidableEq

/-- The cache and the loads, with what the code does not keep : how often each bundle was
updated, how many of these updates a `delete` or `clear_cache` has followed, and how many of
them a query came after. -/
structure World where
  cache : Cache
  queries : List Query
  loads : List Load
  updates : BundleId → ℕ
  handled : BundleId → ℕ
  seen : ℕ → BundleId → ℕ

/-- A part of a load, named by the place of the load, or a call. The answer of a query is the
code of a configuration, or no configuration. -/
inductive Event
  | load (id : BundleId)
  | query (i : ℕ) (answer : Option Int32)
  | insert (i : ℕ)
  | update (id : BundleId)
  | delete (id : BundleId)
  | clearCache
deriving DecidableEq

namespace World

def initial : World where
  cache := none
  queries := []
  loads := []
  updates _ := 0
  handled _ := 0
  seen _ _ := 0

/-- The look-up, under the lock. -/
def beginLoad (w : World) (id : BundleId) : World :=
  match w.cache.lookUp (makeCacheKey id) with
  | some ptr => { w with loads := w.loads ++ [⟨id, .hit ptr⟩] }
  | none => { w with loads := w.loads ++ [⟨id, .query⟩] }

/-- The query, with the bundles as they are now. -/
def queryLoad (w : World) (i : ℕ) (answer : Option Int32) : World :=
  match w.loads[i]? with
  | some ⟨id, .query⟩ =>
    match answer with
    | none => { w with loads := w.loads.set i ⟨id, .failed none⟩ }
    | some code =>
      let ptr := w.queries.length
      { w with
        queries := w.queries ++ [⟨id, code⟩]
        seen := Function.update w.seen ptr w.updates
        loads := w.loads.set i ⟨id, if code = 0 then .insert ptr else .failed (some ptr)⟩ }
  | _ => w

/-- The insertion, under the lock. -/
def insertLoad (w : World) (i : ℕ) : World :=
  match w.loads[i]? with
  | some ⟨id, .insert ptr⟩ =>
    { w with
      cache := w.cache.orInsert (makeCacheKey id) ptr
      loads := w.loads.set i ⟨id, .inserted ptr⟩ }
  | _ => w

def step (w : World) : Event → World
  | .load id => w.beginLoad id
  | .query i answer => w.queryLoad i answer
  | .insert i => w.insertLoad i
  | .update id => { w with updates := Function.update w.updates id (w.updates id + 1) }
  | .delete id =>
    { w with
      cache := w.cache.remove (makeCacheKey id)
      handled := Function.update w.handled id (w.updates id) }
  | .clearCache => { w with cache := none, handled := w.updates }

def after (events : List Event) : World :=
  events.foldl step initial

/-- What a load of a bundle would be answered with from the cache was queried after every
update of the bundle that a `delete` or `clear_cache` has followed. -/
def Fresh (w : World) : Prop :=
  ∀ id ptr, w.cache.lookUp (makeCacheKey id) = some ptr → w.handled id ≤ w.seen ptr id

/-- No load has inserted a configuration that was queried after an update, where the one that
is cached was queried before it. -/
def Latest (w : World) : Prop :=
  ∀ id cached, w.cache.lookUp (makeCacheKey id) = some cached →
    ∀ (j ptr : ℕ), w.loads[j]? = some (Load.mk id (.inserted ptr)) → w.seen ptr id ≤ w.seen cached id

structure Current (w : World) : Prop where
  fresh : w.Fresh
  latest : w.Latest

/-- The insertion is not late. A configuration that goes into the cache was queried after every
update of the bundle that has been deleted, and is not older than what another load of the
bundle has inserted. One that does not go into the cache is not newer than what is there. -/
def Timely (w : World) : Event → Prop
  | .insert i =>
    ∀ id ptr, w.loads[i]? = some (Load.mk id (.insert ptr)) →
      (w.cache.lookUp (makeCacheKey id) = none →
        ∀ other, makeCacheKey other = makeCacheKey id → w.handled other ≤ w.seen ptr other ∧
          ∀ (j earlier : ℕ), w.loads[j]? = some (Load.mk other (.inserted earlier)) →
            w.seen earlier other ≤ w.seen ptr other) ∧
      ∀ cached, w.cache.lookUp (makeCacheKey id) = some cached →
        w.seen ptr id ≤ w.seen cached id
  | _ => True

/-- The pointers in the cache and in the loads are of queries that were made. -/
structure Valid (w : World) : Prop where
  cached : ∀ key ptr, w.cache.lookUp key = some ptr → ptr < w.queries.length
  inserting : ∀ load ∈ w.loads, ∀ ptr, load.phase = .insert ptr → ptr < w.queries.length
  inserted : ∀ load ∈ w.loads, ∀ ptr, load.phase = .inserted ptr → ptr < w.queries.length

/-! ## Steps -/

section Steps

variable {w w' : World}

/-- The loads that are there stay as they are, but for one that has not inserted. -/
def KeepsInserted (loads loads' : List Load) : Prop :=
  ∀ (j : ℕ) id ptr, loads[j]? = some (Load.mk id (.inserted ptr)) ↔
    loads'[j]? = some (Load.mk id (.inserted ptr))

theorem keepsInserted_append {loads : List Load} {load : Load}
    (h : ∀ ptr, load.phase ≠ .inserted ptr) : KeepsInserted loads (loads ++ [load]) := by
  intro j id ptr
  rcases lt_trichotomy j loads.length with hj | rfl | hj
  · rw [List.getElem?_append_left hj]
  · simp only [List.getElem?_eq_none (le_refl _), List.getElem?_concat_length]
    constructor
    · exact fun hnone => absurd hnone (by simp)
    · intro hload
      exact absurd (congrArg Load.phase (Option.some.inj hload)) (h ptr)
  · have hlong : (loads ++ [load]).length ≤ j := by
      rw [List.length_append]
      exact hj
    rw [List.getElem?_eq_none hj.le, List.getElem?_eq_none hlong]

theorem keepsInserted_set {loads : List Load} {i : ℕ} {old new : Load} (hold : loads[i]? = some old)
    (hno : ∀ ptr, old.phase ≠ .inserted ptr) (hnew : ∀ ptr, new.phase ≠ .inserted ptr) :
    KeepsInserted loads (loads.set i new) := by
  intro j id ptr
  rw [List.getElem?_set]
  split
  · next heq =>
    obtain rfl := heq
    obtain ⟨hlt, -⟩ := List.getElem?_eq_some_iff.mp hold
    rw [if_pos hlt, hold]
    constructor
    · exact fun hload => absurd (congrArg Load.phase (Option.some.inj hload)) (hno ptr)
    · exact fun hload => absurd (congrArg Load.phase (Option.some.inj hload)) (hnew ptr)
  · rfl

/-- A step after which the same is cached, or less, and nothing more is inserted or handled. -/
theorem current_of_kept (hvalid : w.Valid) (h : w.Current)
    (hcache : ∀ id ptr, w'.cache.lookUp (makeCacheKey id) = some ptr →
      w.cache.lookUp (makeCacheKey id) = some ptr ∧ w'.handled id = w.handled id)
    (hseen : ∀ ptr < w.queries.length, w'.seen ptr = w.seen ptr)
    (hloads : KeepsInserted w.loads w'.loads) : w'.Current := by
  constructor
  · intro id ptr hlook
    obtain ⟨hlook, hhandled⟩ := hcache id ptr hlook
    rw [hhandled, hseen ptr (hvalid.cached _ _ hlook)]
    exact h.fresh id ptr hlook
  · intro id cached hlook j ptr hload
    obtain ⟨hlook, -⟩ := hcache id cached hlook
    have hload := (hloads j id ptr).mpr hload
    rw [hseen cached (hvalid.cached _ _ hlook),
      hseen ptr (hvalid.inserted _ (List.mem_of_getElem? hload) ptr rfl)]
    exact h.latest id cached hlook j ptr hload

/-! ### Pointers -/

/-- A load that is there keeps its place, and the phase it gets points to a query. -/
theorem Valid.of_set {load : Load} {i : ℕ} (h : w.Valid)
    (hcache : ∀ key ptr, w'.cache.lookUp key = some ptr → ptr < w'.queries.length)
    (hqueries : w.queries.length ≤ w'.queries.length) (hloads : w'.loads = w.loads.set i load)
    (hload : ∀ ptr, load.phase = .insert ptr ∨ load.phase = .inserted ptr →
      ptr < w'.queries.length) : w'.Valid := by
  have hmem : ∀ l ∈ w'.loads, l ∈ w.loads ∨ l = load := by
    intro l hl
    exact List.mem_or_eq_of_mem_set (hloads ▸ hl)
  refine ⟨hcache, fun l hl ptr hphase => ?_, fun l hl ptr hphase => ?_⟩
  · rcases hmem l hl with hold | rfl
    · exact (h.inserting l hold ptr hphase).trans_le hqueries
    · exact hload ptr (Or.inl hphase)
  · rcases hmem l hl with hold | rfl
    · exact (h.inserted l hold ptr hphase).trans_le hqueries
    · exact hload ptr (Or.inr hphase)

/-- A step that leaves the loads and the queries alone. -/
theorem Valid.of_eq (h : w.Valid) (hqueries : w'.queries = w.queries) (hloads : w'.loads = w.loads)
    (hcache : ∀ key ptr, w'.cache.lookUp key = some ptr → w.cache.lookUp key = some ptr) :
    w'.Valid := by
  refine ⟨fun key ptr hlook => ?_, ?_, ?_⟩
  · rw [hqueries]
    exact h.cached key ptr (hcache key ptr hlook)
  · rw [hqueries, hloads]
    exact h.inserting
  · rw [hqueries, hloads]
    exact h.inserted

theorem Valid.of_append {load : Load} (h : w.Valid) (hload : ∀ ptr, load.phase ≠ .insert ptr)
    (hload' : ∀ ptr, load.phase ≠ .inserted ptr) :
    Valid { w with loads := w.loads ++ [load] } := by
  refine ⟨h.cached, fun l hl ptr hphase => ?_, fun l hl ptr hphase => ?_⟩
  · rcases List.mem_append.mp hl with hold | hnew
    · exact h.inserting l hold ptr hphase
    · exact absurd (List.mem_singleton.mp hnew ▸ hphase) (hload ptr)
  · rcases List.mem_append.mp hl with hold | hnew
    · exact h.inserted l hold ptr hphase
    · exact absurd (List.mem_singleton.mp hnew ▸ hphase) (hload' ptr)

theorem Valid.beginLoad (h : w.Valid) (id : BundleId) : (w.beginLoad id).Valid := by
  rw [World.beginLoad]
  split
  · exact h.of_append (fun ptr hphase => Phase.noConfusion hphase)
      (fun ptr hphase => Phase.noConfusion hphase)
  · exact h.of_append (fun ptr hphase => Phase.noConfusion hphase)
      (fun ptr hphase => Phase.noConfusion hphase)

/-- What the query of a load does to it. -/
theorem queryLoad_cases (w : World) (i : ℕ) (answer : Option Int32) :
    w.queryLoad i answer = w ∨ ∃ id, w.loads[i]? = some ⟨id, .query⟩ ∧
      ((answer = none ∧
          w.queryLoad i answer = { w with loads := w.loads.set i ⟨id, .failed none⟩ }) ∨
        ∃ code, answer = some code ∧ w.queryLoad i answer =
          { w with
            queries := w.queries ++ [⟨id, code⟩]
            seen := Function.update w.seen w.queries.length w.updates
            loads := w.loads.set i ⟨id, if code = 0 then .insert w.queries.length
              else .failed (some w.queries.length)⟩ }) := by
  rw [queryLoad]
  split
  · next id hload =>
    refine Or.inr ⟨id, hload, ?_⟩
    cases answer with
    | none => exact Or.inl ⟨rfl, rfl⟩
    | some code => exact Or.inr ⟨code, rfl, rfl⟩
  · exact Or.inl rfl

/-- What an insertion does. -/
theorem insertLoad_cases (w : World) (i : ℕ) :
    (w.insertLoad i = w ∧ ∀ id ptr, w.loads[i]? ≠ some (Load.mk id (.insert ptr))) ∨
      ∃ id ptr, w.loads[i]? = some ⟨id, .insert ptr⟩ ∧ w.insertLoad i =
        { w with
          cache := w.cache.orInsert (makeCacheKey id) ptr
          loads := w.loads.set i ⟨id, .inserted ptr⟩ } := by
  rw [insertLoad]
  split
  · next id ptr hload => exact Or.inr ⟨id, ptr, hload, rfl⟩
  · next hno => exact Or.inl ⟨rfl, fun id ptr hload => hno id ptr hload⟩

theorem Valid.queryLoad (h : w.Valid) (i : ℕ) (answer : Option Int32) :
    (w.queryLoad i answer).Valid := by
  rcases queryLoad_cases w i answer with heq | ⟨id, -, ⟨-, heq⟩ | ⟨code, -, heq⟩⟩
  · rwa [heq]
  · rw [heq]
    refine h.of_set h.cached (le_refl _) rfl fun ptr hphase => ?_
    rcases hphase with hphase | hphase <;> exact Phase.noConfusion hphase
  · rw [heq]
    refine h.of_set (fun key ptr hlook => ?_) ?_ rfl fun ptr hphase => ?_
    · exact (h.cached key ptr hlook).trans_le (by simp)
    · simp
    · by_cases hcode : code = 0
      · rcases hphase with hphase | hphase
        · rw [if_pos hcode] at hphase
          rw [← Phase.insert.inj hphase]
          simp
        · rw [if_pos hcode] at hphase
          exact Phase.noConfusion hphase
      · rw [if_neg hcode] at hphase
        rcases hphase with hphase | hphase <;> exact Phase.noConfusion hphase

theorem Valid.insertLoad (h : w.Valid) (i : ℕ) : (w.insertLoad i).Valid := by
  rcases insertLoad_cases w i with ⟨heq, -⟩ | ⟨id, ptr, hload, heq⟩
  · rwa [heq]
  · have hptr := h.inserting _ (List.mem_of_getElem? hload) ptr rfl
    rw [heq]
    refine h.of_set (fun key found hlook => ?_) (le_refl _) rfl fun found hphase => ?_
    · rw [Cache.lookUp_orInsert] at hlook
      split at hlook
      · cases hcached : w.cache.lookUp (makeCacheKey id) with
        | none =>
          rw [hcached] at hlook
          exact Option.some.inj hlook ▸ hptr
        | some cached =>
          rw [hcached] at hlook
          exact Option.some.inj hlook ▸ h.cached _ _ hcached
      · exact h.cached key found hlook
    · rcases hphase with hphase | hphase
      · exact Phase.noConfusion hphase
      · exact Phase.inserted.inj hphase ▸ hptr

theorem Valid.step (h : w.Valid) (event : Event) : (w.step event).Valid := by
  cases event with
  | load id => exact h.beginLoad id
  | query i answer => exact h.queryLoad i answer
  | insert i => exact h.insertLoad i
  | update id => exact h.of_eq rfl rfl fun _ _ hlook => hlook
  | delete id =>
    refine h.of_eq rfl rfl fun key ptr hlook => ?_
    rw [show (w.step (.delete id)).cache = w.cache.remove (makeCacheKey id) from rfl,
      Cache.lookUp_remove] at hlook
    split at hlook
    · exact absurd hlook (by simp)
    · exact hlook
  | clearCache => exact h.of_eq rfl rfl fun key ptr hlook => absurd hlook (by simp [World.step])

/-! ### The cache stays current -/

theorem Current.beginLoad (hvalid : w.Valid) (h : w.Current) (id : BundleId) :
    (w.beginLoad id).Current := by
  rw [World.beginLoad]
  split
  · exact current_of_kept hvalid h (fun _ _ hlook => ⟨hlook, rfl⟩) (fun _ _ => rfl)
      (keepsInserted_append fun ptr hphase => Phase.noConfusion hphase)
  · exact current_of_kept hvalid h (fun _ _ hlook => ⟨hlook, rfl⟩) (fun _ _ => rfl)
      (keepsInserted_append fun ptr hphase => Phase.noConfusion hphase)

theorem Current.queryLoad (hvalid : w.Valid) (h : w.Current) (i : ℕ) (answer : Option Int32) :
    (w.queryLoad i answer).Current := by
  rcases queryLoad_cases w i answer with heq | ⟨id, hload, ⟨-, heq⟩ | ⟨code, -, heq⟩⟩
  · rwa [heq]
  · rw [heq]
    exact current_of_kept hvalid h (fun _ _ hlook => ⟨hlook, rfl⟩) (fun _ _ => rfl)
      (keepsInserted_set hload (fun ptr hphase => Phase.noConfusion hphase)
        (fun ptr hphase => Phase.noConfusion hphase))
  · rw [heq]
    refine current_of_kept hvalid h (fun _ _ hlook => ⟨hlook, rfl⟩) (fun ptr hptr => ?_)
      (keepsInserted_set hload (fun ptr hphase => Phase.noConfusion hphase) fun ptr hphase => ?_)
    · exact Function.update_of_ne hptr.ne _ _
    · by_cases hcode : code = 0
      · exact Phase.noConfusion ((if_pos hcode).symm.trans hphase)
      · exact Phase.noConfusion ((if_neg hcode).symm.trans hphase)

theorem Current.delete (hvalid : w.Valid) (h : w.Current) (id : BundleId) :
    (w.step (.delete id)).Current := by
  refine current_of_kept hvalid h (fun other ptr hlook => ?_) (fun _ _ => rfl) fun _ _ _ => Iff.rfl
  rw [show (w.step (.delete id)).cache = w.cache.remove (makeCacheKey id) from rfl,
    Cache.lookUp_remove] at hlook
  split at hlook
  · exact absurd hlook (by simp)
  · next hne =>
    have hid : other ≠ id := fun heq => hne (congrArg makeCacheKey heq)
    exact ⟨hlook, Function.update_of_ne hid _ _⟩

/-- After an insertion the cache is current exactly if it was not late. -/
theorem current_insertLoad_iff (h : w.Current) (i : ℕ) :
    (w.insertLoad i).Current ↔ w.Timely (.insert i) := by
  rcases insertLoad_cases w i with ⟨heq, hno⟩ | ⟨id, ptr, hload, heq⟩
  · rw [heq]
    exact ⟨fun _ id ptr hload => absurd hload (hno id ptr), fun _ => h⟩
  · have hlook : ∀ key, (w.insertLoad i).cache.lookUp key = if key = makeCacheKey id then
        some ((w.cache.lookUp (makeCacheKey id)).getD ptr) else w.cache.lookUp key := by
      intro key
      rw [heq]
      exact Cache.lookUp_orInsert _ _ _ _
    obtain ⟨hlt, -⟩ := List.getElem?_eq_some_iff.mp hload
    have hnew : (w.insertLoad i).loads[i]? = some ⟨id, .inserted ptr⟩ := by
      rw [heq]
      simp [hlt]
    have hold : ∀ j, i ≠ j → (w.insertLoad i).loads[j]? = w.loads[j]? := by
      intro j hj
      rw [heq]
      simp [hj]
    have hseen : (w.insertLoad i).seen = w.seen := by rw [heq]
    have hhandled : (w.insertLoad i).handled = w.handled := by rw [heq]
    -- a load that has inserted before is another one
    have hkeeps : ∀ (j : ℕ) other earlier, w.loads[j]? = some (Load.mk other (.inserted earlier)) →
        (w.insertLoad i).loads[j]? = some ⟨other, .inserted earlier⟩ := by
      intro j other earlier hinserted
      rw [hold j, hinserted]
      rintro rfl
      exact Phase.noConfusion (congrArg Load.phase
        (Option.some.inj (hload.symm.trans hinserted)))
    constructor
    · intro hcurrent id' ptr' hload'
      obtain ⟨rfl, hphase⟩ := Load.mk.inj (Option.some.inj (hload.symm.trans hload'))
      obtain rfl := Phase.insert.inj hphase
      constructor
      · intro hvacant other hkey
        have hcached : (w.insertLoad i).cache.lookUp (makeCacheKey other) = some ptr := by
          rw [hlook, if_pos hkey, hvacant]
          rfl
        refine ⟨?_, fun j earlier hinserted => ?_⟩
        · have hfresh := hcurrent.fresh other ptr hcached
          rwa [hseen, hhandled] at hfresh
        · have hlatest := hcurrent.latest other ptr hcached j earlier (hkeeps j other earlier hinserted)
          rwa [hseen] at hlatest
      · intro cached hthere
        have hcached : (w.insertLoad i).cache.lookUp (makeCacheKey id) = some cached := by
          rw [hlook, if_pos rfl, hthere]
          rfl
        have hlatest := hcurrent.latest id cached hcached i ptr hnew
        rwa [hseen] at hlatest
    · intro htimely
      obtain ⟨hvacant, hthere⟩ := htimely id ptr hload
      constructor
      · intro other found hfound
        rw [hseen, hhandled]
        rw [hlook] at hfound
        split at hfound
        · next hkey =>
          cases hcached : w.cache.lookUp (makeCacheKey id) with
          | none =>
            rw [hcached] at hfound
            obtain rfl := Option.some.inj hfound
            exact (hvacant hcached other hkey).1
          | some cached =>
            rw [hcached] at hfound
            obtain rfl := Option.some.inj hfound
            exact h.fresh other cached (hkey ▸ hcached)
        · exact h.fresh other found hfound
      · intro other found hfound j earlier hinserted
        rw [hseen]
        rw [hlook] at hfound
        by_cases hj : i = j
        · obtain rfl := hj
          obtain ⟨rfl, hphase⟩ := Load.mk.inj (Option.some.inj (hnew.symm.trans hinserted))
          obtain rfl := Phase.inserted.inj hphase
          rw [if_pos rfl] at hfound
          cases hcached : w.cache.lookUp (makeCacheKey id) with
          | none =>
            rw [hcached] at hfound
            obtain rfl := Option.some.inj hfound
            exact le_refl _
          | some cached =>
            rw [hcached] at hfound
            obtain rfl := Option.some.inj hfound
            exact hthere cached hcached
        · rw [hold j hj] at hinserted
          split at hfound
          · next hkey =>
            cases hcached : w.cache.lookUp (makeCacheKey id) with
            | none =>
              rw [hcached] at hfound
              obtain rfl := Option.some.inj hfound
              exact (hvacant hcached other hkey).2 j earlier hinserted
            | some cached =>
              rw [hcached] at hfound
              obtain rfl := Option.some.inj hfound
              exact h.latest other cached (hkey ▸ hcached) j earlier hinserted
          · exact h.latest other found hfound j earlier hinserted

theorem current_step_iff (hvalid : w.Valid) (h : w.Current) (event : Event) :
    (w.step event).Current ↔ w.Timely event := by
  cases event with
  | load id => exact ⟨fun _ => trivial, fun _ => h.beginLoad hvalid id⟩
  | query i answer => exact ⟨fun _ => trivial, fun _ => h.queryLoad hvalid i answer⟩
  | insert i => exact current_insertLoad_iff h i
  | update id =>
    refine ⟨fun _ => trivial, fun _ => ?_⟩
    exact current_of_kept hvalid h (fun _ _ hlook => ⟨hlook, rfl⟩) (fun _ _ => rfl)
      fun _ _ _ => Iff.rfl
  | delete id => exact ⟨fun _ => trivial, fun _ => h.delete hvalid id⟩
  | clearCache =>
    refine ⟨fun _ => trivial, fun _ => ?_⟩
    exact current_of_kept hvalid h (fun _ _ hlook => absurd hlook (by simp [step]))
      (fun _ _ => rfl) fun _ _ _ => Iff.rfl

end Steps

/-! ## Runs -/

theorem after_concat (events : List Event) (event : Event) :
    after (events ++ [event]) = (after events).step event := by
  rw [after, List.foldl_append]
  rfl

theorem valid_after (events : List Event) : (after events).Valid := by
  induction events using List.reverseRecOn with
  | nil => exact ⟨fun _ _ hlook => absurd hlook (by simp [after, initial]), by simp [after, initial],
      by simp [after, initial]⟩
  | append_singleton events event ih =>
    rw [after_concat]
    exact ih.step event

theorem current_initial : initial.Current :=
  ⟨fun _ _ hlook => absurd hlook (by simp [initial]), fun _ _ hlook =>
    absurd hlook (by simp [initial])⟩

/-- The cache is current in every state of the run. -/
def AlwaysCurrent (events : List Event) : Prop :=
  ∀ before rest, events = before ++ rest → (after before).Current

/-- Exactly when the cache is current in every state of a run. -/
theorem alwaysCurrent_iff (events : List Event) :
    AlwaysCurrent events ↔ Throughout (fun before event => (after before).Timely event) events := by
  constructor
  · intro h before event rest heq
    have hbefore := h before (event :: rest) heq
    have hafter := h (before ++ [event]) rest (by simp [heq])
    rw [after_concat] at hafter
    exact (current_step_iff (valid_after before) hbefore event).mp hafter
  · intro h before rest heq
    induction before using List.reverseRecOn generalizing rest with
    | nil => exact current_initial
    | append_singleton before event ih =>
      have hbefore := ih (event :: rest) (by simp [heq])
      rw [after_concat]
      exact (current_step_iff (valid_after before) hbefore event).mpr
        (h before event rest (by simp [heq]))

/-- The first bundle is read, updated and deleted, and then inserted. -/
def lateInsertion : List Event :=
  [.load Configs.firstBundle, .query 0 (some 0), .update Configs.firstBundle,
    .delete Configs.firstBundle, .insert 0]

/-- It is read before and after an update, and what was read first is inserted first. -/
def olderFirst : List Event :=
  [.load Configs.firstBundle, .load Configs.firstBundle, .query 0 (some 0),
    .update Configs.firstBundle, .query 1 (some 0), .insert 0, .insert 1]

/-- A load is answered with what was deleted, and the older of two answers stays in the cache. -/
theorem not_alwaysCurrent :
    ¬(after lateInsertion).Fresh ∧ ¬(after olderFirst).Latest ∧
      ¬∀ events, AlwaysCurrent events := by
  have hfresh : ¬(after lateInsertion).Fresh := by
    intro h
    have hread := h Configs.firstBundle 0 (by decide +kernel)
    revert hread
    decide +kernel
  refine ⟨hfresh, fun h => ?_, fun h => ?_⟩
  · have hread := h Configs.firstBundle 0 (by decide +kernel) 1 1 (by decide +kernel)
    revert hread
    decide +kernel
  · exact hfresh (h lateInsertion lateInsertion [] (List.append_nil _).symm).fresh

end World

end BundleConfig

end DataShare
