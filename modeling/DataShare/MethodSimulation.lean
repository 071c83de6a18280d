import Mathlib.Tactic.Common
import Mathlib.Data.Option.Basic

/-!
# Simulations of methods

A method of an object with states `ρ` is a `Method ρ α` : from a state it gives a result and the next
state, or nothing if its behaviour is undefined.

`Simulates f inv x y` : the map `f` of objects turns `x` into `y`. From every state in `inv` both are
undefined, or both give the same result, `y` ends in the image of the state `x` ends in, and that is in
`inv` again. Simulations are composed along the code of a method, so two implementations of the same
interface behave alike if their basic methods do.
-/

namespace DataShare

abbrev Method (ρ α : Type) := StateT ρ Option α

namespace Method

variable {ρ ρ' α β : Type}

/-- Read the state. -/
def read (g : ρ → α) : Method ρ α :=
  fun s => some (g s, s)

/-- Change the state. -/
def update (g : ρ → ρ) : Method ρ Unit :=
  fun s => some ((), g s)

/-- A value that may be undefined. -/
def lift (o : Option α) : Method ρ α :=
  fun s => o.map fun a => (a, s)

@[simp] theorem pure_apply (a : α) (s : ρ) : (Pure.pure a : Method ρ α) s = some (a, s) :=
  rfl

theorem bind_apply (x : Method ρ α) (g : α → Method ρ β) (s : ρ) :
    (x >>= g) s = (x s).bind fun r => g r.1 r.2 :=
  rfl

@[simp] theorem read_bind_apply (g : ρ → α) (x : α → Method ρ β) (s : ρ) :
    (Method.read g >>= x) s = x (g s) s :=
  rfl

@[simp] theorem update_bind_apply (g : ρ → ρ) (x : Unit → Method ρ β) (s : ρ) :
    (Method.update g >>= x) s = x () (g s) :=
  rfl

@[simp] theorem lift_bind_apply (o : Option α) (x : α → Method ρ β) (s : ρ) :
    (Method.lift o >>= x) s = o.bind fun a => x a s := by
  cases o <;> rfl

@[simp] theorem ite_apply {c : Prop} [Decidable c] (x y : Method ρ α) (s : ρ) :
    (if c then x else y) s = if c then x s else y s := by
  split <;> rfl

structure Simulates (f : ρ → ρ') (inv : ρ → Prop) (x : Method ρ α) (y : Method ρ' α) : Prop where
  eq : ∀ s, inv s → y (f s) = (x s).map (Prod.map id f)
  keeps : ∀ s, inv s → ∀ r ∈ x s, inv r.2

variable {f : ρ → ρ'} {inv : ρ → Prop}

theorem Simulates.pure (a : α) : Simulates f inv (Pure.pure a) (Pure.pure a) where
  eq _ _ := rfl
  keeps := by
    rintro s hs _ ⟨⟩
    exact hs

theorem Simulates.bind {x : Method ρ α} {y : Method ρ' α} {g : α → Method ρ β} {g' : α → Method ρ' β}
    (hx : Simulates f inv x y) (hg : ∀ a, Simulates f inv (g a) (g' a)) :
    Simulates f inv (x >>= g) (y >>= g') where
  eq s hs := by
    change (y (f s)).bind (fun r => g' r.1 r.2) =
      Option.map (Prod.map id f) ((x s).bind fun r => g r.1 r.2)
    rw [hx.eq s hs]
    rcases hxs : x s with _ | ⟨a, s'⟩
    · rfl
    · exact (hg a).eq s' (hx.keeps s hs _ hxs)
  keeps s hs r hr := by
    change r ∈ (x s).bind (fun r => g r.1 r.2) at hr
    obtain ⟨⟨a, s'⟩, hxs, hr⟩ := Option.bind_eq_some_iff.mp hr
    exact (hg a).keeps s' (hx.keeps s hs _ hxs) r hr

theorem Simulates.ite {c : Prop} [Decidable c] {x x' : Method ρ α} {y y' : Method ρ' α}
    (h : Simulates f inv x y) (h' : Simulates f inv x' y') :
    Simulates f inv (if c then x else x') (if c then y else y') := by
  split
  · exact h
  · exact h'

theorem Simulates.read {g : ρ → α} {g' : ρ' → α} (h : ∀ s, inv s → g' (f s) = g s) :
    Simulates f inv (Method.read g) (Method.read g') where
  eq s hs := by
    rw [Method.read, h s hs]
    rfl
  keeps := by
    rintro s hs _ ⟨⟩
    exact hs

theorem Simulates.update {g : ρ → ρ} {g' : ρ' → ρ'} (h : ∀ s, inv s → g' (f s) = f (g s) ∧ inv (g s)) :
    Simulates f inv (Method.update g) (Method.update g') where
  eq s hs := by
    rw [Method.update, (h s hs).1]
    rfl
  keeps := by
    rintro s hs _ ⟨⟩
    exact (h s hs).2

theorem Simulates.lift (o : Option α) : Simulates f inv (Method.lift o) (Method.lift o) where
  eq s _ := by cases o <;> rfl
  keeps s hs r hr := by
    obtain ⟨a, -, rfl⟩ := Option.map_eq_some_iff.mp hr
    exact hs

/-- What is read of the state decides how to go on. -/
theorem Simulates.readThen {γ : Type} {R : γ → γ → Prop} {g : ρ → γ} {g' : ρ' → γ}
    {x : γ → Method ρ α} {y : γ → Method ρ' α} (h : ∀ s, inv s → R (g s) (g' (f s)))
    (hxy : ∀ c c', R c c' → Simulates f inv (x c) (y c')) :
    Simulates f inv (Method.read g >>= x) (Method.read g' >>= y) where
  eq s hs := (hxy _ _ (h s hs)).eq s hs
  keeps s hs r hr := (hxy _ _ (h s hs)).keeps s hs r hr

theorem Simulates.mapM {ι : Type} {x : ι → Method ρ α} {y : ι → Method ρ' α}
    (h : ∀ i, Simulates f inv (x i) (y i)) : ∀ l : List ι, Simulates f inv (l.mapM x) (l.mapM y)
  | [] => by
    rw [List.mapM_nil, List.mapM_nil]
    exact .pure []
  | i :: l => by
    rw [List.mapM_cons, List.mapM_cons]
    exact (h i).bind fun a => (Simulates.mapM h l).bind fun as => .pure (a :: as)

/-- From a state in `P`, a method that is defined gives a result and a state in `Q`. -/
def Spec (P : ρ → Prop) (x : Method ρ α) (Q : α → ρ → Prop) : Prop :=
  ∀ s, P s → ∀ r ∈ x s, Q r.1 r.2

variable {P : ρ → Prop} {Q : α → ρ → Prop}

theorem Spec.pure {a : α} (h : ∀ s, P s → Q a s) : Spec P (Pure.pure a) Q := by
  rintro s hs _ ⟨⟩
  exact h s hs

theorem Spec.bind {x : Method ρ α} {g : α → Method ρ β} {R : β → ρ → Prop} (hx : Spec P x Q)
    (hg : ∀ a, Spec (Q a) (g a) R) : Spec P (x >>= g) R := by
  intro s hs r hr
  change r ∈ (x s).bind (fun r => g r.1 r.2) at hr
  obtain ⟨⟨a, s'⟩, hxs, hr⟩ := Option.bind_eq_some_iff.mp hr
  exact hg a s' (hx s hs _ hxs) r hr

theorem Spec.ite {c : Prop} [Decidable c] {x y : Method ρ α}
    (hx : c → Spec P x Q) (hy : ¬c → Spec P y Q) : Spec P (if c then x else y) Q := by
  split
  · exact hx ‹c›
  · exact hy ‹¬c›

theorem Spec.read {g : ρ → α} (h : ∀ s, P s → Q (g s) s) : Spec P (Method.read g) Q := by
  rintro s hs _ ⟨⟩
  exact h s hs

theorem Spec.update {g : ρ → ρ} {Q : Unit → ρ → Prop} (h : ∀ s, P s → Q () (g s)) :
    Spec P (Method.update g) Q := by
  rintro s hs _ ⟨⟩
  exact h s hs

theorem Spec.lift {o : Option α} (h : ∀ s a, o = some a → P s → Q a s) :
    Spec P (Method.lift o) Q := by
  intro s hs r hr
  obtain ⟨a, ha, rfl⟩ := Option.map_eq_some_iff.mp hr
  exact h s a ha hs

theorem Spec.mono {P' : ρ → Prop} {Q' : α → ρ → Prop} {x : Method ρ α} (h : Spec P' x Q')
    (hpre : ∀ s, P s → P' s) (hpost : ∀ a s, Q' a s → Q a s) : Spec P x Q :=
  fun s hs r hr => hpost r.1 r.2 (h s (hpre s hs) r hr)

/-- A method keeps an invariant. -/
def Keeps (P : ρ → Prop) (x : Method ρ α) : Prop :=
  Spec P x fun _ => P

theorem Keeps.pure (a : α) : Keeps P (Pure.pure a) :=
  Spec.pure fun _ hs => hs

theorem Keeps.bind {x : Method ρ α} {g : α → Method ρ β} (hx : Keeps P x)
    (hg : ∀ a, Keeps P (g a)) : Keeps P (x >>= g) :=
  Spec.bind hx hg

theorem Keeps.ite {c : Prop} [Decidable c] {x y : Method ρ α} (hx : Keeps P x) (hy : Keeps P y) :
    Keeps P (if c then x else y) :=
  Spec.ite (fun _ => hx) fun _ => hy

theorem Keeps.read (g : ρ → α) : Keeps P (Method.read g) :=
  Spec.read fun _ hs => hs

theorem Keeps.lift (o : Option α) : Keeps P (Method.lift o) :=
  Spec.lift fun _ _ _ hs => hs

theorem Keeps.update {g : ρ → ρ} (h : ∀ s, P s → P (g s)) : Keeps P (Method.update g) :=
  Spec.update h

/-- What each call keeps is kept by all of them. -/
theorem Keeps.mapM {ι : Type} {x : ι → Method ρ α} (h : ∀ i, Keeps P (x i)) :
    ∀ l : List ι, Keeps P (l.mapM x)
  | [] => by
    rw [List.mapM_nil]
    exact .pure []
  | i :: l => by
    rw [List.mapM_cons]
    exact (h i).bind fun a => (Keeps.mapM h l).bind fun as => .pure (a :: as)

end Method

end DataShare
