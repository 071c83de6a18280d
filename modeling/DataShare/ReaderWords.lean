import Mathlib.Data.List.Forall2
import DataShare.ByteCodec

/-!
# The words of a reader

What a reader of a byte stream accepts. `Spells p L` : whenever `p` gives `a`, the bytes it
took are a word `w` with `L a w`, and the stream it leaves holds exactly the rest. It is the
converse of `Reads`, and composes over `>>=` in the same way : the words of the second
reader are what is left of a word after the first.

Two readers of one format are compared by their words, and a reader that is given the words
of another format by what the two sets of words have in common.

`Reader.collect` is the counted loop that stops at the first failing round and keeps what
it has. It has all its elements exactly when the loop that gives up succeeds
(`Reader.collect_eq_iff`).
-/

namespace DataShare

open ByteFeed (feed take run_take)

/-- A stream that gives the bytes it holds, in their order. -/
class ExactFeed (σ : Type) [ByteFeed σ] : Prop where
  take_exact : ∀ (n : ℕ) (bs w : List UInt8) (s : σ), (take n).run (feed bs) = (some w, s) →
    w.length = n ∧ ∃ rest, bs = w ++ rest ∧ s = feed rest

/-- A scalar whose words are all the byte strings of its size. -/
class ExactType (α : Type) [BasicType α] : Prop where
  toNat_ofNat : ∀ n < 256 ^ BasicType.size α, BasicType.toNat (BasicType.ofNat n : α) = n

instance : ExactType UInt64 where
  toNat_ofNat _ h := UInt64.toNat_ofNat_of_lt' h

instance : ExactType Int32 where
  toNat_ofNat _ h := UInt32.toNat_ofNat_of_lt' h

instance : ExactType Int64 where
  toNat_ofNat _ h := UInt64.toNat_ofNat_of_lt' h

instance : ExactType Double where
  toNat_ofNat _ h := UInt64.toNat_ofNat_of_lt' h

theorem basicBytes_ofBasicBytes {α : Type} [BasicType α] [ExactType α] {w : List UInt8}
    (h : w.length = BasicType.size α) : basicBytes (ofBasicBytes w : α) = w := by
  have hlt := leNat_lt w
  rw [h] at hlt
  rw [ofBasicBytes, basicBytes, ExactType.toNat_ofNat _ hlt, ← h, leBytes_leNat]

section Spells

variable {σ α β : Type} [ByteFeed σ]

/-- The bytes that `p` takes to give `a` are a word of `a`. -/
def Spells (p : Reader σ α) (L : α → List UInt8 → Prop) : Prop :=
  ∀ bs a s, p.run (feed bs) = (some a, s) → ∃ w rest, L a w ∧ bs = w ++ rest ∧ s = feed rest

theorem Spells.mono {p : Reader σ α} {L M : α → List UInt8 → Prop} (h : Spells p L)
    (hLM : ∀ a w, L a w → M a w) : Spells p M := by
  intro bs a s hrun
  obtain ⟨w, rest, hw, hbs, hs⟩ := h bs a s hrun
  exact ⟨w, rest, hLM a w hw, hbs, hs⟩

theorem Spells.pure {M : α → List UInt8 → Prop} {a : α} (h : M a []) :
    Spells (Pure.pure a : Reader σ α) M := by
  intro bs b s hrun
  obtain ⟨rfl, rfl⟩ : a = b ∧ feed bs = s := by simpa using hrun
  exact ⟨[], bs, h, rfl, rfl⟩

theorem Spells.fail (M : α → List UInt8 → Prop) : Spells (Reader.fail : Reader σ α) M := by
  intro bs a s hrun
  simp at hrun

theorem Spells.ofOption {o : Option α} {M : α → List UInt8 → Prop}
    (h : ∀ a, o = some a → M a []) : Spells (Reader.ofOption o : Reader σ α) M := by
  intro bs a s hrun
  obtain ⟨ho, rfl⟩ : o = some a ∧ feed bs = s := by simpa [Reader.ofOption] using hrun
  exact ⟨[], bs, h a ho, rfl, rfl⟩

/-- The second reader is left with the rest of the word. -/
theorem Spells.bind {p : Reader σ α} {f : α → Reader σ β} {L : α → List UInt8 → Prop}
    {M : β → List UInt8 → Prop} (hp : Spells p L)
    (hf : ∀ a u, L a u → Spells (f a) fun b v => M b (u ++ v)) : Spells (p >>= f) M := by
  intro bs b s hrun
  obtain ⟨o, s', hps⟩ : ∃ o s', p.run (feed bs) = (o, s') := ⟨_, _, rfl⟩
  rw [Reader.run_bind, hps] at hrun
  cases o with
  | none => simp at hrun
  | some a =>
    obtain ⟨u, rest, hu, rfl, rfl⟩ := hp bs a s' hps
    obtain ⟨v, rest', hv, rfl, rfl⟩ := hf a u hu rest b s hrun
    exact ⟨u ++ v, rest', hv, (List.append_assoc u v rest').symm, rfl⟩

theorem Spells.ite {c : Prop} [Decidable c] {p q : Reader σ α} {M : α → List UInt8 → Prop}
    (hp : c → Spells p M) (hq : ¬c → Spells q M) : Spells (if c then p else q) M := by
  split
  · next hc => exact hp hc
  · next hc => exact hq hc

/-- The words of a counted loop are the words of its rounds, one after the other. -/
theorem Spells.readN {p : Reader σ α} {L : α → List UInt8 → Prop} (h : Spells p L) :
    ∀ n, Spells (p.readN n) fun as w =>
      as.length = n ∧ ∃ ws, List.Forall₂ L as ws ∧ w = ws.flatten
  | 0 => Spells.pure ⟨rfl, [], .nil, rfl⟩
  | n + 1 => by
    refine h.bind fun a u hu => (Spells.readN h n).bind ?_
    rintro as _ ⟨hlen, ws, hws, rfl⟩
    exact Spells.pure ⟨by rw [List.length_cons, hlen], u :: ws, .cons hu hws, by simp⟩

/-- A loop that carries a value, when nothing is said about the words of its rounds. -/
theorem Spells.foldN {step : α → Reader σ α} (h : ∀ a, Spells (step a) fun _ _ => True) :
    ∀ n a, Spells (Reader.foldN step n a) fun _ _ => True
  | 0, _ => Spells.pure trivial
  | n + 1, a => (h a).bind fun b _ _ => Spells.foldN h n b

/-- Elements that have one word each. -/
theorem flatten_of_forall₂ {enc : α → List UInt8} {as : List α} {ws : List (List UInt8)}
    (h : List.Forall₂ (fun a w => w = enc a) as ws) : ws.flatten = as.flatMap enc := by
  induction h with
  | nil => rfl
  | cons ha _ ih => rw [List.flatten_cons, List.flatMap_cons, ih, ha]

variable [ExactFeed σ]

theorem spells_take (n : ℕ) : Spells (take n : Reader σ _) fun bs w => bs.length = n ∧ w = bs := by
  intro bs w s hrun
  obtain ⟨hlen, rest, hbs, hs⟩ := ExactFeed.take_exact n bs w s hrun
  exact ⟨w, rest, ⟨hlen, rfl⟩, hbs, hs⟩

theorem spells_basic [BasicType α] :
    Spells (readBasic σ α) fun a w => w.length = BasicType.size α ∧ ofBasicBytes w = a := by
  refine (spells_take _).bind ?_
  rintro bs _ ⟨hlen, rfl⟩
  exact Spells.pure ⟨by simpa using hlen, by simp⟩

theorem spells_word [BasicType α] [ExactType α] :
    Spells (readBasic σ α) fun a w => w = basicBytes a := by
  refine spells_basic.mono ?_
  rintro a w ⟨hlen, rfl⟩
  exact (basicBytes_ofBasicBytes hlen).symm

theorem spells_size : Spells (readSize σ) fun n w => n < 2 ^ 64 ∧ w = sizeBytes n := by
  refine spells_word.bind ?_
  rintro a _ rfl
  exact Spells.pure ⟨UInt64.toNat_lt _, by rw [List.append_nil, sizeBytes, UInt64.ofNat_toNat]⟩

theorem spells_bytes (limit : ℕ) :
    Spells (readBytes σ limit) fun bs w => bs.length < 2 ^ 64 ∧ w = stringBytes bs := by
  refine spells_size.bind ?_
  rintro n _ ⟨hn, rfl⟩
  refine Spells.ite (fun _ => Spells.fail _) fun _ => (spells_take n).mono ?_
  rintro bs _ ⟨rfl, rfl⟩
  exact ⟨hn, rfl⟩

/-- The words of a container are its count and the words of its elements. -/
theorem spells_vec {p : Reader σ α} {L : α → List UInt8 → Prop} (h : Spells p L) :
    Spells (readVec p) fun as w =>
      as.length < 2 ^ 64 ∧ ∃ ws, List.Forall₂ L as ws ∧ w = sizeBytes as.length ++ ws.flatten := by
  refine spells_size.bind ?_
  rintro n _ ⟨hn, rfl⟩
  refine (h.readN n).mono ?_
  rintro as _ ⟨rfl, ws, hws, rfl⟩
  exact ⟨hn, ws, hws, rfl⟩

theorem spells_boundedVec {p : Reader σ α} {L : α → List UInt8 → Prop} (limit : ℕ)
    (h : Spells p L) :
    Spells (readBoundedVec limit p) fun as w =>
      as.length < 2 ^ 64 ∧ ∃ ws, List.Forall₂ L as ws ∧ w = sizeBytes as.length ++ ws.flatten := by
  refine spells_size.bind ?_
  rintro n _ ⟨hn, rfl⟩
  refine Spells.ite (fun _ => Spells.fail _) fun _ => (h.readN n).mono ?_
  rintro as _ ⟨rfl, ws, hws, rfl⟩
  exact ⟨hn, ws, hws, rfl⟩

end Spells

/-! ## Words that are read -/

section Reads

variable {σ α : Type} [ByteFeed σ]

theorem reads_basic_of_length [BasicType α] {w : List UInt8} (h : w.length = BasicType.size α) :
    Reads (readBasic σ α) w (ofBasicBytes w) := by
  have htake : Reads (take w.length : Reader σ _) w w := run_take _
  rw [h] at htake
  exact htake.bind_pure

theorem reads_readN_words {p : Reader σ α} {as : List α} {ws : List (List UInt8)}
    (h : List.Forall₂ (fun a w => Reads p w a) as ws) :
    Reads (p.readN as.length) ws.flatten as := by
  induction h with
  | nil => exact Reads.pure []
  | cons ha _ ih => exact ha.bind ih.bind_pure

end Reads

/-! ## Loops that keep what they have -/

namespace Reader

variable {σ α : Type}

/-- Run `p` up to `n` times, until it fails. -/
def collect (p : Reader σ α) : ℕ → σ → List α
  | 0, _ => []
  | n + 1, s =>
    match p.run s with
    | (some a, s') => a :: collect p n s'
    | (none, _) => []

theorem collect_succ_of_some {p : Reader σ α} {n : ℕ} {s s' : σ} {a : α}
    (h : p.run s = (some a, s')) : p.collect (n + 1) s = a :: p.collect n s' := by
  rw [collect, h]

theorem collect_succ_of_none {p : Reader σ α} {n : ℕ} {s s' : σ} (h : p.run s = (none, s')) :
    p.collect (n + 1) s = [] := by
  rw [collect, h]

/-- All the elements are there exactly when no round fails. -/
theorem collect_eq_iff (p : Reader σ α) : ∀ {as : List α} {s : σ},
    p.collect as.length s = as ↔ ∃ s', (p.readN as.length).run s = (some as, s')
  | [], s => by simp [collect, readN]
  | a :: as, s => by
    obtain ⟨o, s', hps⟩ : ∃ o s', p.run s = (o, s') := ⟨_, _, rfl⟩
    cases o with
    | none => simp [collect_succ_of_none hps, readN, run_bind, hps]
    | some b =>
      have ih : p.collect as.length s' = as ↔ ∃ t, (p.readN as.length).run s' = (some as, t) :=
        collect_eq_iff p
      rw [List.length_cons, collect_succ_of_some hps, List.cons_eq_cons, ih, readN,
        run_bind_of_some hps]
      constructor
      · rintro ⟨rfl, s'', hrest⟩
        exact ⟨s'', by rw [run_bind_of_some hrest, run_pure]⟩
      · rintro ⟨s'', hrest⟩
        obtain ⟨o, t, hq⟩ : ∃ o t, (p.readN as.length).run s' = (o, t) := ⟨_, _, rfl⟩
        rw [run_bind, hq] at hrest
        cases o with
        | none => simp at hrest
        | some bs =>
          obtain ⟨⟨rfl, rfl⟩, rfl⟩ : (b = a ∧ bs = as) ∧ t = s'' := by simpa using hrest
          exact ⟨rfl, t, hq⟩

end Reader

end DataShare
