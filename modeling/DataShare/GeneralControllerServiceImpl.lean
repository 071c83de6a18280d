import DataShare.ThreadMachine
import Mathlib.Data.Int.Notation
import Mathlib.Data.List.Nodup
import Mathlib.Data.List.Perm.Basic

/-!
# The silent controller of the Rust consumer

`GeneralControllerServiceImpl` keeps the URIs of each observer id so that `re_register_observer` can
register them again when the service restarts. `register_observer` and `unregister_observer` change the
table (`pushUri`, `retainUri`) and then call the observer service ; the re-registration takes the table
out and passes each pair of it to `register_observer`. `Observers` carries that an id has one entry, and
`pairs_push_perm` and `count_pairs_retain` say what the two updates do to the pairs of the table.

`controllerMachine` runs calls and restarts in steps, a table update or a call of the observer service
each. Restarts are handled one after the other, under a lock ; the machine lets them overlap.
-/

namespace DataShare

namespace Rust

namespace GeneralControllerServiceImpl

/-! ## The table -/

/-- An observer id and a URI. -/
abbrev Pair := ℕ × String

/-- `observers` : the URIs of each observer id. -/
structure Observers where
  entries : List (ℕ × List String)
  nodup : (entries.map Prod.fst).Nodup

/-- The pairs of the table, in order. -/
def pairsOf (entries : List (ℕ × List String)) : List Pair :=
  entries.flatMap fun entry => entry.2.map fun uri => (entry.1, uri)

/-- `uris.push(uri)` at the first entry with the id, or `observers.push((observer_id, vec![uri]))`. -/
def pushUri (uri : String) (observerId : ℕ) : List (ℕ × List String) → List (ℕ × List String)
  | [] => [(observerId, [uri])]
  | (id, uris) :: entries =>
    if id = observerId then (id, uris ++ [uri]) :: entries
    else (id, uris) :: pushUri uri observerId entries

/-- `Vec::swap_remove` : the last element takes the place of the removed one. -/
def swapRemove {α : Type} (list : List α) (pos : ℕ) : List α :=
  match list.getLast? with
  | none => []
  | some last => (list.set pos last).dropLast

/-- `observers[pos].1.retain(|u| u != uri)` at the first entry with the id, which is removed when
nothing is left of it. -/
def retainUri (uri : String) (observerId : ℕ) (entries : List (ℕ × List String)) :
    List (ℕ × List String) :=
  match entries.findIdx? fun entry => entry.1 = observerId with
  | none => entries
  | some pos =>
    let entries := entries.modify pos fun entry => (entry.1, entry.2.filter (· ≠ uri))
    if (entries[pos]?.map Prod.snd).getD [] = [] then swapRemove entries pos else entries

theorem swapRemove_perm {α : Type} {list : List α} {pos : ℕ} (h : pos < list.length) :
    (swapRemove list pos).Perm (list.eraseIdx pos) := by
  rcases List.eq_nil_or_concat list with rfl | ⟨front, last, rfl⟩
  · exact absurd h (Nat.not_lt_zero _)
  rw [List.concat_eq_append] at h ⊢
  rw [List.length_append, List.length_singleton] at h
  unfold swapRemove
  rw [List.getLast?_append, List.getLast?_singleton]
  dsimp only [Option.some_or]
  rcases Nat.lt_or_ge pos front.length with hlt | hge
  · rw [List.set_append_left _ _ hlt, List.dropLast_concat, List.eraseIdx_append_of_lt_length hlt]
    exact (List.set_perm_cons_eraseIdx hlt last).trans (List.perm_append_singleton last _).symm
  · obtain rfl : pos = front.length := by omega
    rw [List.set_append_right _ _ (Nat.le_refl _), List.eraseIdx_append_of_length_le (Nat.le_refl _)]
    simp

theorem map_fst_pushUri (uri : String) (observerId : ℕ) (entries : List (ℕ × List String)) :
    (pushUri uri observerId entries).map Prod.fst = if observerId ∈ entries.map Prod.fst then
      entries.map Prod.fst else entries.map Prod.fst ++ [observerId] := by
  induction entries with
  | nil => rfl
  | cons entry entries ih =>
    rw [pushUri]
    split
    · next h => simp [h]
    · next h =>
      have hne : ¬ observerId = entry.1 := fun heq => h heq.symm
      simp only [List.map_cons, ih, List.mem_cons, hne, false_or]
      split <;> rfl

/-- The entry with an id, if there is one, and what stands before and after it. -/
theorem findIdx?_cases (observerId : ℕ) (entries : List (ℕ × List String)) :
    ((entries.findIdx? fun entry => entry.1 = observerId) = none ∧
      observerId ∉ entries.map Prod.fst) ∨
    ∃ front uris back, entries = front ++ (observerId, uris) :: back ∧
      observerId ∉ front.map Prod.fst ∧
      (entries.findIdx? fun entry => entry.1 = observerId) = some front.length := by
  induction entries with
  | nil => exact .inl ⟨rfl, List.not_mem_nil⟩
  | cons entry entries ih =>
    by_cases h : entry.1 = observerId
    · exact .inr ⟨[], entry.2, entries, by rw [← h]; rfl, List.not_mem_nil,
        by simp [List.findIdx?_cons, h]⟩
    · rcases ih with ⟨hnone, hnot⟩ | ⟨front, uris, back, rfl, hnot, hsome⟩
      · refine .inl ⟨by simp [List.findIdx?_cons, h, hnone], ?_⟩
        rw [List.map_cons, List.mem_cons]
        exact not_or.mpr ⟨fun heq => h heq.symm, hnot⟩
      · refine .inr ⟨entry :: front, uris, back, rfl, ?_, by simp [List.findIdx?_cons, h, hsome]⟩
        rw [List.map_cons, List.mem_cons]
        exact not_or.mpr ⟨fun heq => h heq.symm, hnot⟩

theorem modify_length_append {α : Type} (front back : List α) (a : α) (f : α → α) :
    (front ++ a :: back).modify front.length f = front ++ f a :: back := by
  induction front with
  | nil => rfl
  | cons b front ih =>
    rw [List.cons_append, List.length_cons, List.modify_succ_cons, ih, List.cons_append]

/-- The URIs of the entry are filtered, and an entry without URIs leaves. -/
theorem retainUri_perm (uri : String) {observerId : ℕ} {entries front back : List (ℕ × List String)}
    {uris : List String} (heq : entries = front ++ (observerId, uris) :: back)
    (hfind : (entries.findIdx? fun entry => entry.1 = observerId) = some front.length) :
    (retainUri uri observerId entries).Perm (if uris.filter (· ≠ uri) = [] then front ++ back
      else front ++ (observerId, uris.filter (· ≠ uri)) :: back) := by
  unfold retainUri
  rw [hfind]
  dsimp only
  rw [heq, modify_length_append, List.getElem?_append_right (Nat.le_refl _), Nat.sub_self]
  simp only [List.getElem?_cons_zero, Option.map_some, Option.getD_some]
  split
  · refine (swapRemove_perm (by simp)).trans ?_
    rw [List.eraseIdx_append_of_length_le (Nat.le_refl _), Nat.sub_self, List.eraseIdx_cons_zero]
  · exact .refl _

theorem retainUri_of_none (uri : String) {observerId : ℕ} {entries : List (ℕ × List String)}
    (hfind : (entries.findIdx? fun entry => entry.1 = observerId) = none) :
    retainUri uri observerId entries = entries := by
  unfold retainUri
  rw [hfind]

theorem nodup_retainUri (uri : String) (observerId : ℕ) {entries : List (ℕ × List String)}
    (h : (entries.map Prod.fst).Nodup) :
    ((retainUri uri observerId entries).map Prod.fst).Nodup := by
  rcases findIdx?_cases observerId entries with ⟨hnone, -⟩ | ⟨front, uris, back, heq, -, hfind⟩
  · rwa [retainUri_of_none uri hnone]
  · rw [((retainUri_perm uri heq hfind).map Prod.fst).nodup_iff]
    rw [heq, List.map_append, List.map_cons] at h
    split
    · rw [List.map_append]
      exact (List.nodup_middle.mp h).of_cons
    · rwa [List.map_append, List.map_cons]

theorem nodup_pushUri (uri : String) (observerId : ℕ) {entries : List (ℕ × List String)}
    (h : (entries.map Prod.fst).Nodup) :
    ((pushUri uri observerId entries).map Prod.fst).Nodup := by
  rw [map_fst_pushUri]
  split
  · exact h
  · next hnot =>
    rw [← List.concat_eq_append]
    exact List.Nodup.concat hnot h

namespace Observers

/-- No observers. -/
def empty : Observers :=
  ⟨[], List.nodup_nil⟩

/-- The table update of `register_observer`. -/
def push (observers : Observers) (pair : Pair) : Observers :=
  ⟨pushUri pair.2 pair.1 observers.entries, nodup_pushUri pair.2 pair.1 observers.nodup⟩

/-- The table update of `unregister_observer`. -/
def retain (observers : Observers) (pair : Pair) : Observers :=
  ⟨retainUri pair.2 pair.1 observers.entries, nodup_retainUri pair.2 pair.1 observers.nodup⟩

/-- The pairs that are stored. -/
def pairs (observers : Observers) : List Pair :=
  pairsOf observers.entries

end Observers

theorem pairsOf_append (front back : List (ℕ × List String)) :
    pairsOf (front ++ back) = pairsOf front ++ pairsOf back :=
  List.flatMap_append

theorem pairsOf_cons (entry : ℕ × List String) (entries : List (ℕ × List String)) :
    pairsOf (entry :: entries) = (entry.2.map fun uri => (entry.1, uri)) ++ pairsOf entries :=
  List.flatMap_cons

theorem pairs_push_perm (observers : Observers) (pair : Pair) :
    (observers.push pair).pairs.Perm (pair :: observers.pairs) := by
  obtain ⟨entries, hnodup⟩ := observers
  unfold Observers.push Observers.pairs
  dsimp only
  clear hnodup
  induction entries with
  | nil => exact .refl _
  | cons entry entries ih =>
    rw [pushUri]
    split
    · next h =>
      rw [pairsOf_cons, pairsOf_cons, List.map_append, List.map_singleton, List.append_assoc, h]
      exact List.perm_middle
    · rw [pairsOf_cons, pairsOf_cons]
      exact (ih.append_left _).trans List.perm_middle

theorem not_mem_pairsOf {pair : Pair} {entries : List (ℕ × List String)}
    (h : pair.1 ∉ entries.map Prod.fst) : pair ∉ pairsOf entries := by
  intro hmem
  obtain ⟨entry, hentry, hin⟩ := List.mem_flatMap.mp hmem
  obtain ⟨uri, -, rfl⟩ := List.mem_map.mp hin
  exact h (List.mem_map.mpr ⟨entry, hentry, rfl⟩)

theorem count_map_filter {pair other : Pair} (h : ¬ other = pair) (uris : List String) :
    ((uris.filter (· ≠ pair.2)).map fun uri => (pair.1, uri)).count other =
      (uris.map fun uri => (pair.1, uri)).count other := by
  induction uris with
  | nil => rfl
  | cons uri uris ih =>
    rw [List.map_cons, List.count_cons, ← ih]
    by_cases heq : uri = pair.2
    · have hne : (pair.1, uri) ≠ other := by
        rw [heq]
        exact fun heq => h heq.symm
      rw [List.filter_cons_of_neg (by simp [heq]), beq_false_of_ne hne]
      rfl
    · rw [List.filter_cons_of_pos (by simpa using heq), List.map_cons, List.count_cons]

/-- A pair that is taken out is gone, and the others stay. -/
theorem count_pairs_retain (observers : Observers) (pair other : Pair) :
    (observers.retain pair).pairs.count other =
      if other = pair then 0 else observers.pairs.count other := by
  obtain ⟨entries, hnodup⟩ := observers
  unfold Observers.retain Observers.pairs
  dsimp only
  rcases findIdx?_cases pair.1 entries with ⟨hnone, hnot⟩ | ⟨front, uris, back, heq, hnot, hfind⟩
  · rw [retainUri_of_none pair.2 hnone]
    split
    · next h =>
      rw [h]
      exact List.count_eq_zero.mpr (not_mem_pairsOf hnot)
    · rfl
  · have hperm : (pairsOf (retainUri pair.2 pair.1 entries)).Perm (pairsOf front ++
        ((uris.filter (· ≠ pair.2)).map (fun uri => (pair.1, uri)) ++ pairsOf back)) := by
      refine ((retainUri_perm pair.2 heq hfind).flatMap_right _).trans ?_
      split
      · next hempty =>
        rw [hempty]
        exact .of_eq (pairsOf_append front back)
      · exact .of_eq ((pairsOf_append _ _).trans (congrArg _ (pairsOf_cons _ back)))
    have hback : pair.1 ∉ back.map Prod.fst := by
      rw [heq, List.map_append, List.map_cons] at hnodup
      exact fun hmem => (List.nodup_cons.mp (List.nodup_append.mp hnodup).2.1).1 hmem
    rw [hperm.count_eq, List.count_append, List.count_append]
    split
    · next h =>
      have hgone : pair ∉ (uris.filter (· ≠ pair.2)).map fun uri => (pair.1, uri) := by
        intro hmem
        obtain ⟨uri, huri, heq⟩ := List.mem_map.mp hmem
        rw [← heq] at huri
        simp at huri
      rw [h, List.count_eq_zero.mpr (not_mem_pairsOf hnot), List.count_eq_zero.mpr hgone,
        List.count_eq_zero.mpr (not_mem_pairsOf hback)]
    · next h =>
      rw [heq, pairsOf_append, pairsOf_cons, List.count_append, List.count_append,
        count_map_filter h]

/-! ## Calls and restarts -/

/-- The controller, and how many restarts of the service it was told of. -/
structure World where
  observers : Observers
  restarts : ℕ

/-- A user's call, or `on_add_system_ability`. -/
inductive Outside
  | registerObserver (pair : Pair)
  | unregisterObserver (pair : Pair)
  | onAddSystemAbility
deriving DecidableEq

/-- Where a call stands. `pending` are the pairs that the `k`-th re-registration has yet to pass to
`register_observer`. -/
inductive Thread
  | register (pair : Pair)
  | registerSilent (pair : Pair)
  | unregister (pair : Pair)
  | unregisterSilent (pair : Pair)
  | reRegister (k : ℕ)
  | reRegisterLoop (k : ℕ) (pending : List Pair)
  | reRegisterSilent (k : ℕ) (pair : Pair) (pending : List Pair)
  | finished
deriving DecidableEq

/-- What is told to the user, and what a re-registration passed to the observer service. -/
inductive Message
  | registered (pair : Pair)
  | unregistered (pair : Pair)
  | reRegistered (k : ℕ) (pair : Pair)
deriving DecidableEq

abbrev ControllerPool := Pool World Thread

abbrev ControllerEvent := MachineEvent Outside ℤ

abbrev ControllerMove := MachineMove World Thread Message

/-- Other observers are in the table. -/
def World.store (world : World) (observers : Observers) : World :=
  { world with observers := observers }

@[simp] theorem observers_store (world : World) (observers : Observers) :
    (world.store observers).observers = observers :=
  rfl

/-- The thread goes on with other observers in the table. -/
def World.become (world : World) (observers : Observers) (thread : Thread)
    (sent : List Message) : ControllerMove :=
  ⟨world.store observers, thread, [], sent⟩

/-- The next step of a call, where `reply` is what the observer service returns. -/
def World.next (world : World) : Thread → ℤ → ControllerMove
  | .register pair, _ =>
    world.become (world.observers.push pair) (.registerSilent pair) []
  | .registerSilent pair, reply =>
    world.become world.observers .finished (if reply = 0 then [.registered pair] else [])
  | .unregister pair, _ =>
    world.become (world.observers.retain pair) (.unregisterSilent pair) []
  | .unregisterSilent pair, reply =>
    world.become world.observers .finished (if reply = 0 then [.unregistered pair] else [])
  | .reRegister k, _ =>
    world.become .empty (.reRegisterLoop k world.observers.pairs) []
  | .reRegisterLoop _ [], _ => world.become world.observers .finished []
  | .reRegisterLoop k (pair :: pending), _ =>
    world.become (world.observers.push pair) (.reRegisterSilent k pair pending) []
  | .reRegisterSilent k pair pending, _ =>
    world.become world.observers (.reRegisterLoop k pending) [.reRegistered k pair]
  | .finished, _ => world.become world.observers .finished []

/-- Calls begin, also while a restart is handled. -/
def World.outside (world : World) : Outside → World × List Thread
  | .registerObserver pair => (world, [.register pair])
  | .unregisterObserver pair => (world, [.unregister pair])
  | .onAddSystemAbility => ({ world with restarts := world.restarts + 1 }, [.reRegister world.restarts])

/-- The controller and its calls. -/
def controllerMachine : Machine World Thread Outside ℤ Message where
  outside := World.outside
  next := World.next

/-- A new controller. -/
def initial : ControllerPool :=
  ⟨⟨.empty, 0⟩, []⟩

end GeneralControllerServiceImpl

end Rust

end DataShare
