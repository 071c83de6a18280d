import DataShare.CppBuffer
import DataShare.History
import Mathlib.Logic.Function.Basic

/-!
# Values of published items

A `PublishedDataItem` keeps a text itself, and a blob in an `Ashmem` that it manages. Its operations
clear, replace and move both.

An empty blob cannot be stored, as there is no `Ashmem` of size 0. `Set` then leaves an item that held a
text as it is, and one that held a blob with an empty text. In runs without empty blobs every item
presents the value it was given last (`run_published`).
-/

namespace DataShare

namespace Cpp

namespace Published

/-! ## Shared memory -/

structure Ashmem where
  name : StdString
  data : List UInt8
  isOpen : Bool
  deriving DecidableEq

/-- What the system says to `CreateAshmem`, `MapReadAndWriteAshmem` and `WriteToAshmem`. -/
structure AshmemSystem where
  creates : StdString → ℕ → Bool
  maps : StdString → ℕ → Bool
  writes : StdString → List UInt8 → Bool

/-- It refuses nothing but a size of 0. -/
structure AshmemSystem.Serves (sys : AshmemSystem) : Prop where
  creates : ∀ name size, sys.creates name size = true ↔ 0 < size
  maps : ∀ name size, 0 < size → sys.maps name size = true
  writes : ∀ name data, data ≠ [] → sys.writes name data = true

/-- `UnmapAshmem` and `CloseAshmem`. -/
def closeAshmem (ashmems : List Ashmem) (mem : ℕ) : List Ashmem :=
  ashmems.modify mem fun ashmem => { ashmem with isOpen := false }

def writeToAshmem (ashmems : List Ashmem) (mem : ℕ) (data : List UInt8) : List Ashmem :=
  ashmems.modify mem fun ashmem => { ashmem with data := data }

/-- `ReadFromAshmem` of all bytes. -/
def readFromAshmem (ashmems : List Ashmem) (mem : ℕ) : Option (List UInt8) :=
  match ashmems[mem]? with
  | some ashmem => if ashmem.isOpen then some ashmem.data else none
  | none => none

/-! ## Items -/

/-- `ashmem` is a number in the list of all. -/
structure AshmemNode where
  ashmem : Option ℕ := none
  isManaged : Bool := false
  deriving DecidableEq

inductive ItemValue
  | ashmem (node : AshmemNode)
  | string (s : StdString)
  deriving DecidableEq

structure PublishedDataItem where
  key : StdString := []
  subscriberId : Int64
  value : ItemValue := .ashmem {}
  deriving DecidableEq

inductive DataType
  | blob (data : List UInt8)
  | string (s : StdString)
  deriving DecidableEq

namespace PublishedDataItem

def clear (ashmems : List Ashmem) (item : PublishedDataItem) : List Ashmem × PublishedDataItem :=
  match item.value with
  | .ashmem node =>
    (match node.isManaged, node.ashmem with
      | true, some mem => closeAshmem ashmems mem
      | _, _ => ashmems,
      { item with value := .string [] })
  | .string _ => (ashmems, item)

/-- The name of the `Ashmem` of an item. -/
def ashmemName (item : PublishedDataItem) : StdString :=
  item.key ++ utf8Bytes (toString item.subscriberId.toInt)

def set (sys : AshmemSystem) (ashmems : List Ashmem) (item : PublishedDataItem) (value : DataType) :
    List Ashmem × PublishedDataItem :=
  let (ashmems, item) := item.clear ashmems
  match value with
  | .blob vecValue =>
    if !sys.creates item.ashmemName vecValue.length then (ashmems, item)
    else
      let mem := ashmems.length
      let ashmems := ashmems ++ [⟨item.ashmemName, List.replicate vecValue.length 0, true⟩]
      if !sys.maps item.ashmemName vecValue.length then (closeAshmem ashmems mem, item)
      else if !sys.writes item.ashmemName vecValue then (closeAshmem ashmems mem, item)
      else (writeToAshmem ashmems mem vecValue, { item with value := .ashmem ⟨some mem, true⟩ })
  | .string s => (ashmems, { item with value := .string s })

def getData (ashmems : List Ashmem) (item : PublishedDataItem) : DataType :=
  match item.value with
  | .ashmem node => .blob ((node.ashmem.bind (readFromAshmem ashmems)).getD [])
  | .string s => .string s

/-- An item that was moved out of, and gave up its `Ashmem` in `MoveOutAshmem`. `movedString` is
what the library leaves of a string. -/
def movedOut (movedString : StdString → StdString) (item : PublishedDataItem) : PublishedDataItem :=
  { item with
    key := movedString item.key
    value := match item.value with
      | .ashmem _ => .ashmem {}
      | .string s => .string (movedString s) }

end PublishedDataItem

/-! ## Runs -/

/-- The items of a process, by their addresses. -/
structure Process where
  ashmems : List Ashmem := []
  items : ℕ → Option PublishedDataItem := fun _ => none

inductive ItemCall
  | create (a : ℕ) (subscriberId : Int64)
  | construct (a : ℕ) (key : StdString) (subscriberId : Int64) (value : DataType)
  | set (a : ℕ) (value : DataType)
  | moveConstruct (a src : ℕ)
  | moveAssign (a src : ℕ)
  | destroy (a : ℕ)

namespace Process

def put (process : Process) (a : ℕ) (ashmems : List Ashmem) (item : Option PublishedDataItem) :
    Process where
  ashmems := ashmems
  items := Function.update process.items a item

/-- The item at `src` is moved to `a`. -/
def move (movedString : StdString → StdString) (process : Process) (a src : ℕ) : Process :=
  match process.items src with
  | some item =>
    (process.put a process.ashmems (some item)).put src process.ashmems
      (some (item.movedOut movedString))
  | none => process

def step (sys : AshmemSystem) (movedString : StdString → StdString) (process : Process) :
    ItemCall → Process
  | .create a subscriberId => process.put a process.ashmems (some { subscriberId })
  | .construct a key subscriberId value =>
    let (ashmems, item) := PublishedDataItem.set sys process.ashmems { key, subscriberId } value
    process.put a ashmems (some item)
  | .set a value =>
    match process.items a with
    | some item =>
      let (ashmems, item) := item.set sys process.ashmems value
      process.put a ashmems (some item)
    | none => process
  | .moveConstruct a src => process.move movedString a src
  | .moveAssign a src =>
    if (process.items a).isSome then process.move movedString a src else process
  | .destroy a =>
    match process.items a with
    | some item => process.put a (item.clear process.ashmems).1 none
    | none => process

end Process

/-! ## What the items are to present -/

/-- The objects, and for each the value it was given last, unless that was moved out. -/
abbrev Promises : Type :=
  ℕ → Option (Option DataType)

namespace Promises

def move (promises : Promises) (a src : ℕ) : Promises :=
  match promises src with
  | some promised => Function.update (Function.update promises a (some promised)) src (some none)
  | none => promises

def step (promises : Promises) : ItemCall → Promises
  | .create a _ => Function.update promises a (some none)
  | .construct a _ _ value => Function.update promises a (some (some value))
  | .set a value =>
    if (promises a).isSome then Function.update promises a (some (some value)) else promises
  | .moveConstruct a src => promises.move a src
  | .moveAssign a src => if (promises a).isSome then promises.move a src else promises
  | .destroy a => Function.update promises a none

end Promises

/-! ## Items that hold shared memory -/

open PublishedDataItem (getData clear)

variable {sys : AshmemSystem} {movedString : StdString → StdString}

/-- The item holds the shared memory `mem`. -/
def PublishedDataItem.Holds (item : PublishedDataItem) (mem : ℕ) : Prop :=
  ∃ node, item.value = .ashmem node ∧ node.ashmem = some mem

/-- The item manages the shared memory it holds, which is open. -/
def PublishedDataItem.Sound (ashmems : List Ashmem) (item : PublishedDataItem) : Prop :=
  ∀ node mem, item.value = .ashmem node → node.ashmem = some mem →
    node.isManaged = true ∧ ∃ ashmem, ashmems[mem]? = some ashmem ∧ ashmem.isOpen = true

theorem clear_snd_not_holds (ashmems : List Ashmem) (item : PublishedDataItem) (mem : ℕ) :
    ¬(item.clear ashmems).2.Holds mem := by
  unfold clear
  split
  · rintro ⟨node, hnode, -⟩
    cases hnode
  · next s hs =>
    rintro ⟨node, hnode, -⟩
    rw [hs] at hnode
    cases hnode

theorem length_clear (ashmems : List Ashmem) (item : PublishedDataItem) :
    (item.clear ashmems).1.length = ashmems.length := by
  unfold clear
  split
  · split <;> simp [closeAshmem]
  · rfl

/-- `Clear` touches no shared memory but that of the item. -/
theorem getElem?_clear {ashmems : List Ashmem} {item : PublishedDataItem} {mem : ℕ}
    (h : ¬item.Holds mem) : (item.clear ashmems).1[mem]? = ashmems[mem]? := by
  unfold clear
  split
  · next node hnode =>
    split
    · next other _ hother =>
      exact List.getElem?_modify_ne _ _ fun heq => h ⟨node, hnode, heq ▸ hother⟩
    · rfl
  · rfl

/-- What an operation leaves, that may have taken new shared memory for its item. -/
structure Takes (before : List Ashmem) (item : PublishedDataItem)
    (after : List Ashmem × PublishedDataItem) : Prop where
  length_le : before.length ≤ after.1.length
  frame : ∀ mem, mem < before.length → ¬item.Holds mem → after.1[mem]? = before[mem]?
  sound : after.2.Sound after.1
  fresh : ∀ mem, after.2.Holds mem → before.length ≤ mem

theorem takes_set (sys : AshmemSystem) (ashmems : List Ashmem) (item : PublishedDataItem)
    (value : DataType) : Takes ashmems item (item.set sys ashmems value) := by
  have hnone := clear_snd_not_holds ashmems item
  have hsound (ashmems' : List Ashmem) : (item.clear ashmems).2.Sound ashmems' :=
    fun node mem hnode hmem => absurd ⟨node, hnode, hmem⟩ (hnone mem)
  have hlength := length_clear ashmems item
  have hframe : ∀ mem, mem < ashmems.length → ¬item.Holds mem → ∀ (new : Ashmem) f,
      (((item.clear ashmems).1 ++ [new]).modify ashmems.length f)[mem]? = ashmems[mem]? := by
    intro mem hmem hnot new f
    rw [List.getElem?_modify_ne _ _ (Nat.ne_of_gt hmem), List.getElem?_append_left (hlength ▸ hmem),
      getElem?_clear hnot]
  unfold PublishedDataItem.set
  dsimp only
  split
  · split
    · exact ⟨hlength.ge, fun mem _ hnot => getElem?_clear hnot, hsound _,
        fun mem hmem => absurd hmem (hnone mem)⟩
    · rw [hlength]
      split
      · exact ⟨by simp [closeAshmem, hlength], fun mem hmem hnot => hframe mem hmem hnot _ _,
          hsound _, fun mem hmem => absurd hmem (hnone mem)⟩
      split
      · exact ⟨by simp [closeAshmem, hlength], fun mem hmem hnot => hframe mem hmem hnot _ _,
          hsound _, fun mem hmem => absurd hmem (hnone mem)⟩
      · refine ⟨by simp [writeToAshmem, hlength], fun mem hmem hnot => hframe mem hmem hnot _ _,
          ?_, ?_⟩
        · rintro node mem hnode hmem
          cases hnode
          cases hmem
          refine ⟨rfl, ?_⟩
          simp [writeToAshmem, hlength]
        · rintro mem ⟨node, hnode, hmem⟩
          cases hnode
          cases hmem
          exact le_rfl
  · refine ⟨hlength.ge, fun mem _ hnot => getElem?_clear hnot, ?_, ?_⟩
    · rintro node mem hnode
      cases hnode
    · rintro mem ⟨node, hnode, -⟩
      cases hnode

/-- Whether `Set` can store a value in an item. -/
def Stores (sys : AshmemSystem) (item : PublishedDataItem) : DataType → Prop
  | .blob vecValue => sys.creates item.ashmemName vecValue.length = true ∧
      sys.maps item.ashmemName vecValue.length = true ∧ sys.writes item.ashmemName vecValue = true
  | .string _ => True

theorem getData_set {ashmems : List Ashmem} {item : PublishedDataItem} {value : DataType}
    (h : Stores sys item value) :
    getData (item.set sys ashmems value).1 (item.set sys ashmems value).2 = value := by
  have hname : (item.clear ashmems).2.ashmemName = item.ashmemName := by
    unfold clear
    split <;> rfl
  unfold PublishedDataItem.set
  dsimp only
  split
  · obtain ⟨hcreates, hmaps, hwrites⟩ := h
    rw [hname, hcreates, hmaps, hwrites]
    simp [getData, readFromAshmem, writeToAshmem, List.getElem?_modify]
  · rfl

theorem getData_congr {ashmems ashmems' : List Ashmem} {item : PublishedDataItem}
    (h : ∀ mem, item.Holds mem → ashmems'[mem]? = ashmems[mem]?) :
    getData ashmems' item = getData ashmems item := by
  unfold getData
  split
  · next node hnode =>
    cases hmem : node.ashmem with
    | none => rfl
    | some mem => rw [Option.bind_some, Option.bind_some, readFromAshmem, readFromAshmem,
        h mem ⟨node, hnode, hmem⟩]
  · rfl

theorem not_holds_movedOut (item : PublishedDataItem) (mem : ℕ) :
    ¬(item.movedOut movedString).Holds mem := by
  rintro ⟨node, hnode, hmem⟩
  rw [PublishedDataItem.movedOut] at hnode
  dsimp only at hnode
  split at hnode
  · cases hnode
    cases hmem
  · cases hnode

/-! ## What every run keeps -/

/-- Each shared memory that is held is open, and held by one item. -/
structure Owned (process : Process) : Prop where
  sound : ∀ a item, process.items a = some item → item.Sound process.ashmems
  exclusive : ∀ a b item item' mem, process.items a = some item → process.items b = some item' →
    item.Holds mem → item'.Holds mem → a = b

/-- The items are those promised, and present what is promised of them. -/
structure Keeps (process : Process) (promises : Promises) : Prop where
  objects : ∀ a, (promises a).isSome = (process.items a).isSome
  presents : ∀ a item value, process.items a = some item → promises a = some (some value) →
    getData process.ashmems item = value

/-- What is written in the place of an item touches no other item. -/
structure Apart (process : Process) (a : ℕ) (ashmems : List Ashmem)
    (item : Option PublishedDataItem) : Prop where
  frame : ∀ b other mem, b ≠ a → process.items b = some other → other.Holds mem →
    ashmems[mem]? = process.ashmems[mem]?
  sound : ∀ new, item = some new → new.Sound ashmems
  others : ∀ new b other mem, item = some new → b ≠ a → process.items b = some other →
    other.Holds mem → ¬new.Holds mem

theorem Owned.put {process : Process} {a : ℕ} {ashmems : List Ashmem}
    {item : Option PublishedDataItem} (h : Owned process) (hapart : Apart process a ashmems item) :
    Owned (process.put a ashmems item) where
  sound := by
    intro b other hother node mem hnode hmem
    rw [Process.put] at hother
    dsimp only at hother
    rw [Function.update_apply] at hother
    split at hother
    · exact hapart.sound other hother node mem hnode hmem
    · next hne =>
      rw [Process.put, hapart.frame b other mem hne hother ⟨node, hnode, hmem⟩]
      exact h.sound b other hother node mem hnode hmem
  exclusive := by
    intro b c other other' mem hother hother' hmem hmem'
    rw [Process.put] at hother hother'
    dsimp only at hother hother'
    rw [Function.update_apply] at hother hother'
    split at hother
    · next hb =>
      split at hother'
      · next hc => rw [hb, hc]
      · next hc => exact absurd hmem (hapart.others other c other' mem hother hc hother' hmem')
    · next hb =>
      split at hother'
      · next hc => exact absurd hmem' (hapart.others other' b other mem hother' hb hother hmem)
      · exact h.exclusive b c other other' mem hother hother' hmem hmem'

theorem Keeps.put {process : Process} {promises : Promises} {a : ℕ} {ashmems : List Ashmem}
    {item : Option PublishedDataItem} {promised : Option (Option DataType)}
    (h : Keeps process promises) (hapart : Apart process a ashmems item)
    (hobject : promised.isSome = item.isSome) (hpresents : ∀ new value, item = some new →
      promised = some (some value) → getData ashmems new = value) :
    Keeps (process.put a ashmems item) (Function.update promises a promised) where
  objects b := by
    rw [Process.put]
    dsimp only
    rw [Function.update_apply, Function.update_apply]
    split
    · exact hobject
    · exact h.objects b
  presents := by
    intro b other value hother hvalue
    rw [Process.put] at hother
    dsimp only at hother
    rw [Function.update_apply] at hother hvalue
    split at hother
    · next hb =>
      rw [if_pos hb] at hvalue
      exact hpresents other value hother hvalue
    · next hb =>
      rw [if_neg hb] at hvalue
      rw [Process.put]
      exact (getData_congr fun mem hmem => hapart.frame b other mem hb hother hmem).trans
        (h.presents b other value hother hvalue)

/-- An operation on an item is apart from the others, if it begins with what no other holds. -/
theorem Takes.apart {process : Process} {a : ℕ} {item : PublishedDataItem}
    {after : List Ashmem × PublishedDataItem} (h : Takes process.ashmems item after)
    (howned : Owned process) (hitem : ∀ b other mem, b ≠ a → process.items b = some other →
      other.Holds mem → ¬item.Holds mem) : Apart process a after.1 (some after.2) := by
  have hlt : ∀ b other mem, process.items b = some other → other.Holds mem →
      mem < process.ashmems.length := by
    rintro b other mem hother ⟨node, hnode, hmem⟩
    obtain ⟨-, ashmem, hashmem, -⟩ := howned.sound b other hother node mem hnode hmem
    exact (List.getElem?_eq_some_iff.mp hashmem).1
  refine ⟨fun b other mem hb hother hmem => ?_, ?_, ?_⟩
  · exact h.frame mem (hlt b other mem hother hmem) (hitem b other mem hb hother hmem)
  · rintro new ⟨⟩
    exact h.sound
  · rintro new b other mem ⟨⟩ hb hother hmem hnew
    exact absurd (hlt b other mem hother hmem) (not_lt.mpr (h.fresh mem hnew))

theorem Owned.apart_of_holds {process : Process} (h : Owned process) {a : ℕ}
    {item : PublishedDataItem} (hitem : process.items a = some item) :
    ∀ b other mem, b ≠ a → process.items b = some other → other.Holds mem → ¬item.Holds mem :=
  fun b other mem hb hother hmem hmem' =>
    hb (h.exclusive b a other item mem hother hitem hmem hmem')

/-- An item that holds nothing is apart from all. -/
theorem apart_of_not_holds {process : Process} {a : ℕ} {item : PublishedDataItem}
    (h : ∀ mem, ¬item.Holds mem) : Apart process a process.ashmems (some item) where
  frame _ _ _ _ _ _ := rfl
  sound := by
    rintro new ⟨⟩ node mem hnode hmem
    exact absurd ⟨node, hnode, hmem⟩ (h mem)
  others := by
    rintro new b other mem ⟨⟩ - - -
    exact h mem

theorem apart_clear {process : Process} {a : ℕ} {item : PublishedDataItem} (h : Owned process)
    (hitem : process.items a = some item) : Apart process a (item.clear process.ashmems).1 none where
  frame b other mem hb hother hmem :=
    getElem?_clear (h.apart_of_holds hitem b other mem hb hother hmem)
  sound := by
    rintro new ⟨⟩
  others := by
    rintro new b other mem ⟨⟩

/-- The item that moves away leaves one that holds nothing, and takes its place elsewhere. -/
theorem move_eq {process : Process} {a src : ℕ} {item : PublishedDataItem} (hne : a ≠ src)
    (hitem : process.items src = some item) : process.move movedString a src =
      (process.put src process.ashmems (some (item.movedOut movedString))).put a process.ashmems
        (some item) := by
  rw [Process.move, hitem]
  exact congrArg (Process.mk process.ashmems) (Function.update_comm hne _ _ _)

theorem apart_moved {process : Process} {a src : ℕ} {item : PublishedDataItem} (h : Owned process)
    (hitem : process.items src = some item) :
    Apart (process.put src process.ashmems (some (item.movedOut movedString))) a process.ashmems
      (some item) where
  frame _ _ _ _ _ _ := rfl
  sound := by
    rintro new ⟨⟩
    exact h.sound src item hitem
  others := by
    rintro new b other mem ⟨⟩ - hother hmem
    rw [Process.put] at hother
    dsimp only at hother
    rw [Function.update_apply] at hother
    split at hother
    · obtain rfl := Option.some_inj.mp hother
      exact absurd hmem (not_holds_movedOut item mem)
    · next hb => exact h.apart_of_holds hitem b other mem hb hother hmem

theorem Owned.move {process : Process} (h : Owned process) (a src : ℕ) :
    Owned (process.move movedString a src) := by
  cases hitem : process.items src with
  | none => rwa [Process.move, hitem]
  | some item =>
    have hout : Owned (process.put src process.ashmems (some (item.movedOut movedString))) :=
      h.put (apart_of_not_holds (not_holds_movedOut item))
    rcases eq_or_ne a src with rfl | hne
    · rw [Process.move, hitem]
      dsimp only
      rw [Process.put, Process.put, Function.update_idem]
      exact hout
    · rw [move_eq hne hitem]
      exact hout.put (apart_moved h hitem)

theorem not_holds_new (item : PublishedDataItem) (h : item.value = .ashmem {}) (mem : ℕ) :
    ¬item.Holds mem := by
  rintro ⟨node, hnode, hmem⟩
  rw [h] at hnode
  cases hnode
  cases hmem

theorem Owned.step {process : Process} (h : Owned process) (call : ItemCall) :
    Owned (process.step sys movedString call) := by
  cases call with
  | create a subscriberId => exact h.put (apart_of_not_holds (not_holds_new _ rfl))
  | construct a key subscriberId value =>
    exact h.put ((takes_set sys process.ashmems { key, subscriberId } value).apart h
      fun _ _ mem _ _ _ => not_holds_new _ rfl mem)
  | set a value =>
    cases hitem : process.items a with
    | none => rwa [Process.step, hitem]
    | some item =>
      rw [Process.step, hitem]
      exact h.put ((takes_set sys process.ashmems item value).apart h (h.apart_of_holds hitem))
  | moveConstruct a src => exact h.move a src
  | moveAssign a src =>
    rw [Process.step]
    split
    · exact h.move a src
    · exact h
  | destroy a =>
    cases hitem : process.items a with
    | none => rwa [Process.step, hitem]
    | some item =>
      rw [Process.step, hitem]
      exact h.put (apart_clear h hitem)

/-! ## Runs without empty blobs -/

/-- A call that gives no empty blob, and moves no item into itself. -/
def ItemCall.Storable : ItemCall → Prop
  | .construct _ _ _ value | .set _ value => value ≠ .blob []
  | .moveConstruct a src | .moveAssign a src => a ≠ src
  | _ => True

theorem stores_of_ne {item : PublishedDataItem} {value : DataType} (hsys : sys.Serves)
    (h : value ≠ .blob []) : Stores sys item value := by
  cases value with
  | string s => trivial
  | blob vecValue =>
    have hne : vecValue ≠ [] := fun heq => h (congrArg DataType.blob heq)
    have hpos : 0 < vecValue.length := List.length_pos_iff.mpr hne
    exact ⟨(hsys.creates _ _).mpr hpos, hsys.maps _ _ hpos, hsys.writes _ _ hne⟩

theorem Keeps.isSome {process : Process} {promises : Promises} (h : Keeps process promises) {a : ℕ}
    {item : PublishedDataItem} (hitem : process.items a = some item) : (promises a).isSome = true := by
  rw [h.objects a, hitem]
  rfl

theorem Keeps.eq_none {process : Process} {promises : Promises} (h : Keeps process promises) {a : ℕ}
    (hitem : process.items a = none) : promises a = none := by
  rw [← Option.not_isSome_iff_eq_none, h.objects a, hitem]
  exact Bool.false_ne_true

theorem Keeps.move {process : Process} {promises : Promises} {a src : ℕ} (h : Keeps process promises)
    (howned : Owned process) (hne : a ≠ src) :
    Keeps (process.move movedString a src) (promises.move a src) := by
  cases hitem : process.items src with
  | none =>
    rw [Process.move, hitem, Promises.move, h.eq_none hitem]
    exact h
  | some item =>
    obtain ⟨promised, hpromised⟩ := Option.isSome_iff_exists.mp (h.isSome hitem)
    have hout : Keeps (process.put src process.ashmems (some (item.movedOut movedString)))
        (Function.update promises src (some none)) :=
      h.put (apart_of_not_holds (not_holds_movedOut item)) rfl (by rintro new value - ⟨⟩)
    rw [move_eq hne hitem, Promises.move, hpromised]
    dsimp only
    rw [Function.update_comm hne]
    refine hout.put (apart_moved howned hitem) rfl ?_
    rintro new value ⟨⟩ ⟨⟩
    exact h.presents src item value hitem hpromised

theorem Keeps.step {process : Process} {promises : Promises} {call : ItemCall}
    (h : Keeps process promises) (howned : Owned process) (hsys : sys.Serves) (hcall : call.Storable) :
    Keeps (process.step sys movedString call) (promises.step call) := by
  cases call with
  | create a subscriberId =>
    exact h.put (apart_of_not_holds (not_holds_new _ rfl)) rfl (by rintro new value - ⟨⟩)
  | construct a key subscriberId value =>
    have hdata : getData (PublishedDataItem.set sys process.ashmems { key, subscriberId } value).1
        (PublishedDataItem.set sys process.ashmems { key, subscriberId } value).2 = value :=
      getData_set (stores_of_ne hsys hcall)
    refine h.put ((takes_set sys process.ashmems { key, subscriberId } value).apart howned
      fun _ _ mem _ _ _ => not_holds_new _ rfl mem) rfl ?_
    rintro new value' ⟨⟩ ⟨⟩
    exact hdata
  | set a value =>
    cases hitem : process.items a with
    | none =>
      rw [Process.step, hitem, Promises.step, h.eq_none hitem]
      exact h
    | some item =>
      rw [Process.step, hitem, Promises.step, if_pos (h.isSome hitem)]
      refine h.put ((takes_set sys process.ashmems item value).apart howned
        (howned.apart_of_holds hitem)) rfl ?_
      rintro new value' ⟨⟩ ⟨⟩
      exact getData_set (stores_of_ne hsys hcall)
  | moveConstruct a src => exact h.move howned hcall
  | moveAssign a src =>
    rw [Process.step, Promises.step, h.objects a]
    split
    · exact h.move howned hcall
    · exact h
  | destroy a =>
    cases hitem : process.items a with
    | none =>
      have hsame : promises.step (.destroy a) = promises :=
        Function.update_eq_self_iff.mpr (h.eq_none hitem).symm
      rw [Process.step, hitem, hsame]
      exact h
    | some item =>
      rw [Process.step, hitem]
      exact h.put (apart_clear howned hitem) rfl (by rintro new value ⟨⟩)

/-- The items after calls. -/
def run (sys : AshmemSystem) (movedString : StdString → StdString) (calls : List ItemCall) : Process :=
  calls.foldl (Process.step sys movedString) {}

/-- What is promised of the items after calls. -/
def promised (calls : List ItemCall) : Promises :=
  calls.foldl Promises.step fun _ => none

/-- Every run keeps shared memory with one item. -/
theorem owned_run (sys : AshmemSystem) (movedString : StdString → StdString) (calls : List ItemCall) :
    Owned (run sys movedString calls) := by
  induction calls using List.reverseRecOn with
  | nil =>
    refine ⟨?_, ?_⟩
    · rintro a item ⟨⟩
    · rintro a b item item' mem ⟨⟩
  | append_singleton calls call ih =>
    rw [run, List.foldl_append]
    exact ih.step call

/-- An item presents the value it was given last. -/
def Presents (sys : AshmemSystem) (movedString : StdString → StdString) (calls : List ItemCall) :
    Prop :=
  ∀ a value, promised calls a = some (some value) →
    ∃ item, (run sys movedString calls).items a = some item ∧
      getData (run sys movedString calls).ashmems item = value

/-- An item does not go on with its value if `Set` cannot store another. -/
def Renews (sys : AshmemSystem) (movedString : StdString → StdString) (calls : List ItemCall) :
    Prop :=
  ∀ before a value after item, calls = before ++ .set a value :: after →
    (run sys movedString before).items a = some item → ¬Stores sys item value →
      getData (item.set sys (run sys movedString before).ashmems value).1
        (item.set sys (run sys movedString before).ashmems value).2 ≠
          getData (run sys movedString before).ashmems item

/-- In a run without empty blobs every item presents its value. -/
theorem run_published (sys : AshmemSystem) (hsys : sys.Serves) (movedString : StdString → StdString)
    (calls : List ItemCall) (h : ∀ call ∈ calls, call.Storable) :
    Presents sys movedString calls ∧ Renews sys movedString calls := by
  have hkeeps : Keeps (run sys movedString calls) (promised calls) := by
    induction calls using List.reverseRecOn with
    | nil =>
      refine ⟨fun a => rfl, ?_⟩
      rintro a item value ⟨⟩
    | append_singleton calls call ih =>
      rw [run, promised, List.foldl_append, List.foldl_append]
      exact (ih fun c hc => h c (List.mem_append_left _ hc)).step (owned_run sys movedString calls)
        hsys (h call (by simp))
  refine ⟨fun a value hvalue => ?_, ?_⟩
  · have hobject := hkeeps.objects a
    rw [hvalue] at hobject
    obtain ⟨item, hitem⟩ := Option.isSome_iff_exists.mp hobject.symm
    exact ⟨item, hitem, hkeeps.presents a item value hitem hvalue⟩
  · rintro before a value after item rfl hitem hstores
    exact absurd (stores_of_ne hsys (h (.set a value) (by simp))) hstores

/-- A system that refuses a size of 0. -/
def servingSystem : AshmemSystem where
  creates _ size := 0 < size
  maps _ _ := true
  writes _ _ := true

theorem servingSystem_serves : servingSystem.Serves :=
  ⟨fun _ _ => decide_eq_true_iff, fun _ _ _ => rfl, fun _ _ _ => rfl⟩

theorem run_published_moved :
    Presents servingSystem (fun _ => []) [.construct 0 [] 1 (.blob [1, 2]), .moveConstruct 1 0,
      .set 0 (.string [3]), .moveAssign 0 1] ∧
    Renews servingSystem (fun _ => []) [.construct 0 [] 1 (.blob [1, 2]), .moveConstruct 1 0,
      .set 0 (.string [3]), .moveAssign 0 1] := by
  refine run_published _ servingSystem_serves _ _ ?_
  simp [ItemCall.Storable]

/-- An item with a text that is given an empty blob still presents the text. -/
theorem text_outlives_emptyBlob : servingSystem.Serves ∧
    ¬Presents servingSystem (fun _ => []) [.construct 0 [] 1 (.string [97]), .set 0 (.blob [])] ∧
    ¬Renews servingSystem (fun _ => []) [.construct 0 [] 1 (.string [97]), .set 0 (.blob [])] := by
  refine ⟨servingSystem_serves, fun h => ?_, fun h => ?_⟩
  · obtain ⟨item, hitem, hdata⟩ := h 0 (.blob []) rfl
    cases hitem
    cases hdata
  · exact h [.construct 0 [] 1 (.string [97])] 0 (.blob []) [] _ rfl rfl (fun h => by cases h.1) rfl

end Published

end Cpp

end DataShare
