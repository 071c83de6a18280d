import DataShare.ByteCodec

/-!
# Readers of streams that hold anything

`Takes k p` : whether `p` succeeds or fails, the stream it leaves is what is left of the bytes,
and with a success at least `k` of them are gone. It composes over `>>=`, where the bytes add
up.

A counted loop whose rounds take at least a byte begins no more than one round over the number
of bytes, whatever its count (`Reader.rounds_le`). So a count read from the stream bounds no
loop that the stream does not bound as well.
-/

namespace DataShare

open ByteFeed (feed take)

variable {σ α β : Type} [ByteFeed σ]

/-- Whatever the bytes, `p` leaves some of their end, and a success takes `k` or more. -/
def Takes (k : ℕ) (p : Reader σ α) : Prop :=
  ∀ bs, ∃ rest, rest <:+ bs ∧ (p.run (feed bs)).2 = feed rest ∧
    ((p.run (feed bs)).1.isSome → rest.length + k ≤ bs.length)

/-- A stream that does not grow, even when there is too little of it. -/
class BoundedFeed (σ : Type) [ByteFeed σ] : Prop where
  takes_take : ∀ n, Takes n (take n : Reader σ _)

theorem Takes.mono {j k : ℕ} {p : Reader σ α} (h : Takes k p) (hjk : j ≤ k) : Takes j p := by
  intro bs
  obtain ⟨rest, hrest, hs, hsome⟩ := h bs
  exact ⟨rest, hrest, hs, fun ho => by have := hsome ho; omega⟩

theorem Takes.zero {k : ℕ} {p : Reader σ α} (h : Takes k p) : Takes 0 p :=
  h.mono k.zero_le

theorem Takes.pure (a : α) : Takes 0 (Pure.pure a : Reader σ α) :=
  fun bs => ⟨bs, List.suffix_rfl, rfl, fun _ => le_rfl⟩

theorem Takes.fail (k : ℕ) : Takes k (Reader.fail : Reader σ α) :=
  fun bs => ⟨bs, List.suffix_rfl, rfl, fun ho => by simp at ho⟩

theorem Takes.ofOption (o : Option α) : Takes 0 (Reader.ofOption o : Reader σ α) :=
  fun bs => ⟨bs, List.suffix_rfl, rfl, fun _ => le_rfl⟩

/-- What two readers take adds up. -/
theorem Takes.bind {j k : ℕ} {p : Reader σ α} {f : α → Reader σ β} (hp : Takes j p)
    (hf : ∀ a, Takes k (f a)) : Takes (j + k) (p >>= f) := by
  intro bs
  obtain ⟨mid, hmid, hs, hfirst⟩ := hp bs
  obtain ⟨o, s, hrun⟩ : ∃ o s, p.run (feed bs) = (o, s) := ⟨_, _, rfl⟩
  rw [hrun] at hs hfirst
  obtain rfl : s = feed mid := hs
  rw [Reader.run_bind, hrun]
  cases o with
  | none => exact ⟨mid, hmid, rfl, fun ho => by simp at ho⟩
  | some a =>
    obtain ⟨rest, hrest, hs', hsecond⟩ := hf a mid
    refine ⟨rest, hrest.trans hmid, hs', fun ho => ?_⟩
    have hj := hfirst rfl
    have hk := hsecond ho
    omega

/-- The second reader is only known to give nothing back. -/
theorem Takes.bind_any {k : ℕ} {p : Reader σ α} {f : α → Reader σ β} (hp : Takes k p)
    (hf : ∀ a, Takes 0 (f a)) : Takes k (p >>= f) :=
  hp.bind hf

/-- The last field of a record, of which only that it gives nothing back matters. -/
theorem Takes.zero_map {k : ℕ} {p : Reader σ α} (h : Takes k p) (g : α → β) :
    Takes 0 (p >>= fun a => Pure.pure (g a)) :=
  h.zero.bind_any fun _ => .pure _

theorem Takes.ite {k : ℕ} {c : Prop} [Decidable c] {p q : Reader σ α} (hp : Takes k p)
    (hq : Takes k q) : Takes k (if c then p else q) := by
  split
  · exact hp
  · exact hq

theorem Takes.readN {p : Reader σ α} (h : Takes 0 p) : ∀ n, Takes 0 (p.readN n)
  | 0 => .pure []
  | n + 1 => h.bind_any fun _ => (Takes.readN h n).bind_any fun _ => .pure _

theorem Takes.foldN {step : α → Reader σ α} (h : ∀ a, Takes 0 (step a)) :
    ∀ n a, Takes 0 (Reader.foldN step n a)
  | 0, a => .pure a
  | n + 1, a => (h a).bind_any fun b => Takes.foldN h n b

section Bounded

variable [BoundedFeed σ]

theorem takes_basic (α : Type) [BasicType α] : Takes (BasicType.size α) (readBasic σ α) :=
  (BoundedFeed.takes_take _).bind_any fun _ => .pure _

theorem takes_size : Takes 8 (readSize σ) :=
  (takes_basic UInt64).bind_any fun _ => .pure _

theorem takes_bytes (limit : ℕ) : Takes 8 (readBytes σ limit) :=
  takes_size.bind_any fun n => .ite (.fail 0) (BoundedFeed.takes_take n).zero

theorem takes_vec {p : Reader σ α} (h : Takes 0 p) : Takes 8 (readVec p) :=
  takes_size.bind_any fun n => h.readN n

theorem takes_boundedVec {p : Reader σ α} (limit : ℕ) (h : Takes 0 p) :
    Takes 8 (readBoundedVec limit p) :=
  takes_size.bind_any fun n => .ite (.fail 0) (h.readN n)

end Bounded

/-! ## Rounds of a loop -/

/-- The rounds that a counted loop begins : it ends with the first that fails. -/
def Reader.rounds (step : α → Reader σ α) : ℕ → α → σ → ℕ
  | 0, _, _ => 0
  | n + 1, a, s =>
    match (step a).run s with
    | (some a', s') => rounds step n a' s' + 1
    | (none, _) => 1

theorem Reader.rounds_le {step : α → Reader σ α} (h : ∀ a, Takes 1 (step a)) :
    ∀ (n : ℕ) (a : α) (bs : List UInt8), rounds step n a (feed bs) ≤ bs.length + 1
  | 0, _, _ => Nat.zero_le _
  | n + 1, a, bs => by
    obtain ⟨rest, -, hs, hsome⟩ := h a bs
    obtain ⟨o, s, hrun⟩ : ∃ o s, (step a).run (feed bs) = (o, s) := ⟨_, _, rfl⟩
    rw [hrun] at hs hsome
    obtain rfl : s = feed rest := hs
    rw [rounds, hrun]
    cases o with
    | none => exact Nat.le_add_left 1 _
    | some a' =>
      have hlen := hsome rfl
      have ih := rounds_le h n a' rest
      dsimp only
      omega

end DataShare
