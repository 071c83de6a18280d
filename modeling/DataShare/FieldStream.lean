import DataShare.ByteCodec

/-!
# Decoding messages and cut messages

`Decodes feed p fs o` says all a reader does with the message `fs` : it gives `o` on every
stream that starts with `fs`, and it fails on every stream that ends within `fs`. The
tokens of a stream are of any type, and `feed` makes a stream of them.

A message of several parts is decoded part by part (`Decodes.bind`), and a counted list
element by element (`Decodes.readN`), with the `Option` monad on the side of the results.
So a decoder of messages is a function into `Option`, and what a reader refuses is read off
that function.

`Ensures p P` : whatever the stream, what `p` gives satisfies `P`.
-/

namespace DataShare

variable {τ σ α β : Type} {feed : List τ → σ}

/-! ## Messages -/

/-- `p` reads `fs` with the result `a`, and fails on a stream that ends before. -/
structure Consumes (feed : List τ → σ) (p : Reader σ α) (fs : List τ) (a : α) : Prop where
  whole : ∀ rest, p.run (feed (fs ++ rest)) = (some a, feed rest)
  short : ∀ s t, fs = s ++ t → t ≠ [] → (p.run (feed s)).1 = none

/-- `p` fails on `fs`, whatever follows, and on a stream that ends before. -/
structure Refuses (feed : List τ → σ) (p : Reader σ α) (fs : List τ) : Prop where
  whole : ∀ rest, (p.run (feed (fs ++ rest))).1 = none
  short : ∀ s t, fs = s ++ t → (p.run (feed s)).1 = none

/-- All that `p` does with `fs`. -/
def Decodes (feed : List τ → σ) (p : Reader σ α) (fs : List τ) : Option α → Prop
  | some a => Consumes feed p fs a
  | none => Refuses feed p fs

theorem Decodes.run {p : Reader σ α} {fs : List τ} {o : Option α} (h : Decodes feed p fs o)
    (rest : List τ) : (p.run (feed (fs ++ rest))).1 = o := by
  cases o with
  | none => exact h.whole rest
  | some a => rw [h.whole rest]

theorem Decodes.run_feed {p : Reader σ α} {fs : List τ} {o : Option α} (h : Decodes feed p fs o) :
    (p.run (feed fs)).1 = o := by
  simpa using h.run []

/-- A message that is cut short is refused. -/
theorem Decodes.run_cut {p : Reader σ α} {s t : List τ} {o : Option α}
    (h : Decodes feed p (s ++ t) o) (ht : t ≠ []) : (p.run (feed s)).1 = none := by
  cases o with
  | none => exact h.short s t rfl
  | some a => exact h.short s t rfl ht

theorem Refuses.fail (fs : List τ) : Refuses feed (Reader.fail : Reader σ α) fs :=
  ⟨fun _ => rfl, fun _ _ _ => rfl⟩

/-- A result that comes from elsewhere. -/
theorem Decodes.ofOption (o : Option α) : Decodes feed (Reader.ofOption o : Reader σ α) [] o := by
  cases o with
  | none => exact ⟨fun _ => rfl, fun _ _ _ => rfl⟩
  | some a => exact ⟨fun _ => rfl, fun s t h ht => absurd (List.append_eq_nil_iff.mp h.symm).2 ht⟩

theorem Consumes.pure (a : α) : Consumes feed (Pure.pure a) [] a where
  whole _ := rfl
  short _ _ h ht := absurd (List.append_eq_nil_iff.mp h.symm).2 ht

theorem Refuses.bind {p : Reader σ α} {fs : List τ} (h : Refuses feed p fs)
    (f : α → Reader σ β) (gs : List τ) : Refuses feed (p >>= f) (fs ++ gs) where
  whole rest := by
    rw [List.append_assoc]
    exact Reader.run_bind_of_none (h.whole _)
  short s t hst := by
    rcases List.append_eq_append_iff.mp hst with ⟨u, rfl, -⟩ | ⟨u, hfs, -⟩
    · exact Reader.run_bind_of_none (h.whole u)
    · exact Reader.run_bind_of_none (h.short s u hfs)

/-- After a first part that is read, the second part decides. -/
theorem Consumes.bind {p : Reader σ α} {f : α → Reader σ β} {fs gs : List τ} {a : α}
    {o : Option β} (hp : Consumes feed p fs a) (hf : Decodes feed (f a) gs o) :
    Decodes feed (p >>= f) (fs ++ gs) o := by
  have hwhole : ∀ rest, (p >>= f).run (feed (fs ++ gs ++ rest)) = (f a).run (feed (gs ++ rest)) := by
    intro rest
    rw [List.append_assoc, Reader.run_bind_of_some (hp.whole _)]
  have hcut : ∀ s t, fs ++ gs = s ++ t → t ≠ [] → ((p >>= f).run (feed s)).1 = none := by
    intro s t hst ht
    rcases List.append_eq_append_iff.mp hst with ⟨u, rfl, hgs⟩ | ⟨u, hfs, ht'⟩
    · rw [Reader.run_bind_of_some (hp.whole u)]
      exact (hgs ▸ hf).run_cut ht
    · by_cases hu : u = []
      · subst hu
        rw [List.append_nil] at hfs
        have hrun := Reader.run_bind_of_some (f := f) (hp.whole [])
        rw [List.append_nil, hfs] at hrun
        rw [hrun]
        rw [List.nil_append] at ht'
        exact (ht' ▸ hf : Decodes feed (f a) ([] ++ t) o).run_cut ht
      · exact Reader.run_bind_of_none (hp.short s u hfs hu)
  cases o with
  | none =>
    refine ⟨fun rest => by rw [hwhole]; exact hf.whole rest, fun s t hst => ?_⟩
    by_cases ht : t = []
    · subst ht
      have h := hwhole []
      simp only [List.append_nil] at h hst
      rw [← hst, h]
      exact hf.run_feed
    · exact hcut s t hst ht
  | some b => exact ⟨fun rest => (hwhole rest).trans (hf.whole rest), hcut⟩

/-- A step after which nothing more of the message is read. -/
theorem Consumes.bind_nil {p : Reader σ α} {f : α → Reader σ β} {fs : List τ} {a : α}
    {o : Option β} (hp : Consumes feed p fs a) (hf : Decodes feed (f a) [] o) :
    Decodes feed (p >>= f) fs o := by
  simpa using hp.bind hf

/-- Two parts, one after the other. -/
theorem Decodes.bind {p : Reader σ α} {f : α → Reader σ β} {fs gs : List τ} {o : Option α}
    {g : α → Option β} (hp : Decodes feed p fs o)
    (hf : ∀ a, o = some a → Decodes feed (f a) gs (g a)) :
    Decodes feed (p >>= f) (fs ++ gs) (o.bind g) := by
  cases o with
  | none => exact Refuses.bind hp f gs
  | some a => exact Consumes.bind hp (hf a rfl)

/-- The last step of a chain : nothing more is read. -/
theorem Decodes.map {p : Reader σ α} {fs : List τ} {o : Option α} (hp : Decodes feed p fs o)
    (g : α → β) : Decodes feed (p >>= fun x => Pure.pure (g x)) fs (o.map g) := by
  have h := hp.bind (f := fun x => Pure.pure (g x)) (g := fun x => some (g x))
    fun a _ => (Consumes.pure (g a) : Consumes feed (Pure.pure (g a)) [] (g a))
  rw [List.append_nil] at h
  cases o <;> exact h

theorem Consumes.decodes {p : Reader σ α} {fs : List τ} {a : α} (h : Consumes feed p fs a) :
    Decodes feed p fs (some a) :=
  h

theorem mapM_cons_eq {ι : Type} (dec : ι → Option α) (x : ι) (l : List ι) :
    (x :: l).mapM dec = (dec x).bind fun a => (l.mapM dec).map (a :: ·) := by
  rw [List.mapM_cons]
  cases dec x with
  | none => rfl
  | some a => cases l.mapM dec <;> rfl

/-- A counted loop decodes the concatenation of the elements. -/
theorem Decodes.readN {ι : Type} {p : Reader σ α} {enc : ι → List τ} {dec : ι → Option α} :
    ∀ {l : List ι}, (∀ x ∈ l, Decodes feed p (enc x) (dec x)) →
      Decodes feed (p.readN l.length) (l.flatMap enc) (l.mapM dec)
  | [], _ => Consumes.pure []
  | x :: l, h => by
    have hx := h x List.mem_cons_self
    have hl := Decodes.readN fun y hy => h y (List.mem_cons_of_mem x hy)
    rw [mapM_cons_eq]
    exact hx.bind fun a _ => hl.map (a :: ·)

/-- A loop that carries a value decodes the concatenation of what its rounds read. -/
theorem Decodes.foldN {ι : Type} {step : α → Reader σ α} {enc : ι → List τ}
    {dec : α → ι → Option α} : ∀ {l : List ι} {a : α},
      (∀ x ∈ l, ∀ a, Decodes feed (step a) (enc x) (dec a x)) →
        Decodes feed (Reader.foldN step l.length a) (l.flatMap enc) (l.foldlM dec a)
  | [], a, _ => Consumes.pure a
  | x :: _, a, h => (h x List.mem_cons_self a).bind fun _ _ =>
      Decodes.foldN fun y hy => h y (List.mem_cons_of_mem x hy)

/-- A list of results is there as a whole exactly when each of them is. -/
theorem isSome_mapM_iff {ι : Type} {dec : ι → Option α} :
    ∀ {l : List ι}, (l.mapM dec).isSome ↔ ∀ x ∈ l, (dec x).isSome
  | [] => by simp
  | x :: l => by
    have ih : (l.mapM dec).isSome ↔ ∀ y ∈ l, (dec y).isSome := isSome_mapM_iff
    rw [mapM_cons_eq]
    cases hx : dec x with
    | none => simp [hx]
    | some a => simp [hx, ih]

/-- A list of results, each of them there. -/
theorem mapM_eq_some_map {ι : Type} {dec : ι → Option α} {g : ι → α} :
    ∀ {l : List ι}, (∀ x ∈ l, dec x = some (g x)) → l.mapM dec = some (l.map g)
  | [], _ => rfl
  | x :: l, h => by
    have hl := mapM_eq_some_map fun y hy => h y (List.mem_cons_of_mem x hy)
    rw [mapM_cons_eq, h x List.mem_cons_self, hl]
    rfl

/-! ## What every result satisfies -/

/-- What `p` gives satisfies `P`, on every stream. -/
def Ensures (p : Reader σ α) (P : α → Prop) : Prop :=
  ∀ s a s', p.run s = (some a, s') → P a

theorem Ensures.pure {P : α → Prop} {a : α} (h : P a) : Ensures (Pure.pure a : Reader σ α) P := by
  intro s b s' hrun
  obtain rfl : a = b := Option.some.inj (congrArg Prod.fst hrun)
  exact h

theorem Ensures.fail (P : α → Prop) : Ensures (Reader.fail : Reader σ α) P := by
  intro s a s' hrun
  cases congrArg Prod.fst hrun

theorem Ensures.trivial (p : Reader σ α) : Ensures p fun _ => True :=
  fun _ _ _ _ => True.intro

theorem Ensures.bind {P : α → Prop} {Q : β → Prop} {p : Reader σ α} {f : α → Reader σ β}
    (hp : Ensures p P) (hf : ∀ a, P a → Ensures (f a) Q) : Ensures (p >>= f) Q := by
  intro s b s' hrun
  rw [Reader.run_bind] at hrun
  obtain ⟨o, s'', hps⟩ : ∃ o s'', p.run s = (o, s'') := ⟨_, _, rfl⟩
  rw [hps] at hrun
  cases o with
  | none => cases congrArg Prod.fst hrun
  | some a => exact hf a (hp s a s'' hps) s'' b s' hrun

/-- A step whose result does not matter. -/
theorem Ensures.bind_any {Q : β → Prop} (p : Reader σ α) {f : α → Reader σ β}
    (hf : ∀ a, Ensures (f a) Q) : Ensures (p >>= f) Q :=
  (Ensures.trivial p).bind fun a _ => hf a

theorem Ensures.readN {P : α → Prop} {p : Reader σ α} (h : Ensures p P) :
    ∀ n, Ensures (p.readN n) fun l => l.length = n ∧ ∀ a ∈ l, P a
  | 0 => Ensures.pure ⟨rfl, by simp⟩
  | n + 1 => h.bind fun a ha => (Ensures.readN h n).bind fun l hl =>
      Ensures.pure ⟨congrArg (· + 1) hl.1, List.forall_mem_cons.mpr ⟨ha, hl.2⟩⟩

end DataShare
