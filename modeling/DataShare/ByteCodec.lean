import Mathlib.Data.List.TakeWhile
import Mathlib.Data.Nat.ModEq
import Mathlib.Tactic.Ring
import Mathlib.Tactic.Common

/-!
# Readers over byte streams

A `Reader` consumes a stream of type `σ`. It may fail, and the stream it leaves
behind is visible either way, so code that ignores a failed read can be followed
too. `Reads p bs a` : on a stream that starts with `bs`, `p` succeeds with `a`
and leaves exactly the rest. `Rejects p bs` : on such a stream `p` fails, whatever
follows. Both compose over `>>=` and over counted loops (`Reads.readN`,
`Rejects.readN`), so a codec is proved one field at a time. Scalars, strings and
containers behind a 64-bit count come with their rules. Two readers of the same fields are
compared with `Reader.Parallel`.

`leBytes` and `leNat` are the little-endian words, and `BasicType` the scalar types
that are stored as one such word.
-/

namespace DataShare

/-! ## Little-endian words -/

/-- The `n` low bytes of `v`, least significant first. -/
def leBytes : ℕ → ℕ → List UInt8
  | 0, _ => []
  | n + 1, v => UInt8.ofNat v :: leBytes n (v / 256)

/-- The number a little-endian byte string denotes. -/
def leNat : List UInt8 → ℕ
  | [] => 0
  | b :: bs => b.toNat + 256 * leNat bs

@[simp] theorem length_leBytes : ∀ n v : ℕ, (leBytes n v).length = n
  | 0, _ => rfl
  | n + 1, v => by simp [leBytes, length_leBytes n]

theorem leNat_leBytes : ∀ n v : ℕ, leNat (leBytes n v) = v % 256 ^ n
  | 0, v => by simp [leBytes, leNat, Nat.mod_one]
  | n + 1, v => by
    have hb : (UInt8.ofNat v).toNat = v % 256 := UInt8.toNat_ofNat'
    rw [leBytes, leNat, leNat_leBytes n, hb, pow_succ', Nat.mod_mul]

theorem leNat_lt : ∀ bs : List UInt8, leNat bs < 256 ^ bs.length
  | [] => by simp [leNat]
  | b :: bs => by
    have hb : b.toNat < 256 := b.toNat_lt
    have ih := leNat_lt bs
    have hpow : 256 ^ (b :: bs).length = 256 * 256 ^ bs.length := by
      rw [List.length_cons, pow_succ']
    simp only [leNat]
    omega

theorem leNat_append : ∀ bs bs' : List UInt8,
    leNat (bs ++ bs') = leNat bs + 256 ^ bs.length * leNat bs'
  | [], bs' => by simp [leNat]
  | b :: bs, bs' => by
    rw [List.cons_append, leNat, leNat, leNat_append bs bs', List.length_cons]
    ring

theorem leBytes_leNat : ∀ bs : List UInt8, leBytes bs.length (leNat bs) = bs
  | [] => rfl
  | b :: bs => by
    have hb : b.toNat < 256 := b.toNat_lt
    have hdiv : (b.toNat + 256 * leNat bs) / 256 = leNat bs := by omega
    have hhead : UInt8.ofNat (b.toNat + 256 * leNat bs) = b := by
      apply UInt8.toNat_inj.mp
      rw [UInt8.toNat_ofNat']
      omega
    rw [List.length_cons, leBytes, leNat, hdiv, leBytes_leNat bs, hhead]

/-- A scalar stored as its object representation : one little-endian word of
`size` bytes. -/
class BasicType (α : Type) where
  size : ℕ
  toNat : α → ℕ
  ofNat : ℕ → α
  toNat_lt : ∀ a, toNat a < 256 ^ size
  ofNat_toNat : ∀ a, ofNat (toNat a) = a

export BasicType (toNat_lt ofNat_toNat)

/-- The object representation of a scalar. -/
def basicBytes {α : Type} [BasicType α] (a : α) : List UInt8 :=
  leBytes (BasicType.size α) (BasicType.toNat a)

/-- The scalar with the object representation `bs`. -/
def ofBasicBytes {α : Type} [BasicType α] (bs : List UInt8) : α :=
  BasicType.ofNat (leNat bs)

@[simp] theorem length_basicBytes {α : Type} [BasicType α] (a : α) :
    (basicBytes a).length = BasicType.size α :=
  length_leBytes _ _

@[simp] theorem ofBasicBytes_basicBytes {α : Type} [BasicType α] (a : α) :
    ofBasicBytes (basicBytes a) = a := by
  rw [ofBasicBytes, basicBytes, leNat_leBytes, Nat.mod_eq_of_lt (toNat_lt a), ofNat_toNat]

theorem basicBytes_injective {α : Type} [BasicType α] :
    Function.Injective (basicBytes : α → List UInt8) := by
  intro a b h
  rw [← ofBasicBytes_basicBytes a, h, ofBasicBytes_basicBytes]

/-- A 64-bit floating-point number, as its bit pattern. -/
structure Double where
  bits : UInt64
deriving DecidableEq, Repr

instance : BasicType UInt8 where
  size := 1
  toNat := UInt8.toNat
  ofNat := UInt8.ofNat
  toNat_lt := UInt8.toNat_lt
  ofNat_toNat a := by simp

instance : BasicType UInt32 where
  size := 4
  toNat := UInt32.toNat
  ofNat := UInt32.ofNat
  toNat_lt := UInt32.toNat_lt
  ofNat_toNat a := by simp

instance : BasicType UInt64 where
  size := 8
  toNat := UInt64.toNat
  ofNat := UInt64.ofNat
  toNat_lt := UInt64.toNat_lt
  ofNat_toNat a := by simp

instance : BasicType Int16 where
  size := 2
  toNat a := a.toUInt16.toNat
  ofNat n := ⟨UInt16.ofNat n⟩
  toNat_lt a := a.toUInt16.toNat_lt
  ofNat_toNat a := by simp

instance : BasicType Int32 where
  size := 4
  toNat a := a.toUInt32.toNat
  ofNat n := ⟨UInt32.ofNat n⟩
  toNat_lt a := a.toUInt32.toNat_lt
  ofNat_toNat a := by simp

instance : BasicType Int64 where
  size := 8
  toNat a := a.toUInt64.toNat
  ofNat n := ⟨UInt64.ofNat n⟩
  toNat_lt a := a.toUInt64.toNat_lt
  ofNat_toNat a := by simp

instance : BasicType Double where
  size := 8
  toNat a := a.bits.toNat
  ofNat n := ⟨UInt64.ofNat n⟩
  toNat_lt a := a.bits.toNat_lt
  ofNat_toNat a := by simp

instance : BasicType Bool where
  size := 1
  toNat := Bool.toNat
  ofNat n := n != 0
  toNat_lt a := by cases a <;> decide
  ofNat_toNat a := by cases a <;> rfl

/-! ## Strings -/

/-- The UTF-8 encoding of a string. -/
def utf8Bytes (s : String) : List UInt8 :=
  s.toByteArray.data.toList

/-- The string with the given UTF-8 encoding. -/
def fromUtf8 (bs : List UInt8) : Option String :=
  String.fromUTF8? ⟨bs.toArray⟩

theorem fromUtf8_utf8Bytes (s : String) : fromUtf8 (utf8Bytes s) = some s := by
  rw [fromUtf8, utf8Bytes, Array.toArray_toList, String.fromUTF8?, dif_pos s.isValidUTF8]
  rfl

theorem utf8Bytes_of_fromUtf8 {bs : List UInt8} {s : String} (h : fromUtf8 bs = some s) :
    utf8Bytes s = bs := by
  rw [fromUtf8, String.fromUTF8?] at h
  split at h
  · cases h
    rfl
  · cases h

theorem utf8Bytes_injective : Function.Injective utf8Bytes := by
  intro s t h
  have hs := fromUtf8_utf8Bytes s
  rw [h, fromUtf8_utf8Bytes] at hs
  exact (Option.some.inj hs).symm

@[simp] theorem utf8Bytes_eq_nil {s : String} : utf8Bytes s = [] ↔ s = "" :=
  ⟨fun h => utf8Bytes_injective (h.trans (by decide : utf8Bytes "" = []).symm),
    fun h => h ▸ (by decide : utf8Bytes "" = [])⟩

theorem utf8Bytes_ofList (l : List Char) :
    utf8Bytes (String.ofList l) = l.flatMap String.utf8EncodeChar := by
  rw [utf8Bytes, String.toByteArray_ofList, List.utf8Encode]
  simp [List.data_toByteArray]

/-- The part of a string before its first NUL. -/
def cString (s : String) : String :=
  String.ofList (s.toList.takeWhile (· ≠ '\x00'))

theorem ne_zero_of_mem_utf8EncodeChar {c : Char} (hc : c ≠ '\x00') {b : UInt8}
    (hb : b ∈ String.utf8EncodeChar c) : b ≠ 0 := by
  have hv : c.val.toNat ≠ 0 := fun h => hc (Char.ext (UInt32.toNat_inj.mp h))
  have hnat : ∀ n, n % 256 ≠ 0 → UInt8.ofNat n ≠ 0 := fun n hn h =>
    hn (by simpa using congrArg UInt8.toNat h)
  unfold String.utf8EncodeChar at hb
  dsimp only at hb
  split at hb
  · rw [List.mem_singleton.mp hb]
    exact hnat _ (by omega)
  split at hb
  · simp only [List.mem_cons, List.not_mem_nil, or_false] at hb
    rcases hb with rfl | rfl <;> exact hnat _ (by omega)
  split at hb
  · simp only [List.mem_cons, List.not_mem_nil, or_false] at hb
    rcases hb with rfl | rfl | rfl <;> exact hnat _ (by omega)
  · simp only [List.mem_cons, List.not_mem_nil, or_false] at hb
    rcases hb with rfl | rfl | rfl | rfl <;> exact hnat _ (by omega)

theorem takeWhile_flatMap_utf8EncodeChar : ∀ l : List Char,
    (l.flatMap String.utf8EncodeChar ++ [0]).takeWhile (· ≠ 0) =
      (l.takeWhile (· ≠ '\x00')).flatMap String.utf8EncodeChar
  | [] => rfl
  | c :: l => by
    rw [List.flatMap_cons, List.append_assoc]
    by_cases hc : c = '\x00'
    · subst hc
      rfl
    · rw [List.takeWhile_append_of_pos (by simpa using fun b => ne_zero_of_mem_utf8EncodeChar hc),
        takeWhile_flatMap_utf8EncodeChar l, List.takeWhile_cons_of_pos (by simpa using hc),
        List.flatMap_cons]

theorem takeWhile_utf8Bytes (s : String) :
    (utf8Bytes s ++ [0]).takeWhile (· ≠ 0) = utf8Bytes (cString s) := by
  have hs : s = String.ofList s.toList := by simp
  rw [cString, utf8Bytes_ofList, ← takeWhile_flatMap_utf8EncodeChar, ← utf8Bytes_ofList, ← hs]

theorem cString_of_notMem {s : String} (h : '\x00' ∉ s.toList) : cString s = s := by
  have htake : s.toList.takeWhile (· ≠ '\x00') = s.toList :=
    List.takeWhile_eq_self_iff.mpr fun c hc => by
      simpa using fun hnul : c = '\x00' => h (hnul ▸ hc)
  rw [cString, htake, String.ofList_toList]

/-! ## Readers -/

/-- A reader over a stream of type `σ`. -/
structure Reader (σ α : Type) where
  run : σ → Option α × σ

namespace Reader

variable {σ α β : Type}

/-- Run the next reader on the stream the last one left, unless that one failed. -/
def bind (p : Reader σ α) (f : α → Reader σ β) : Reader σ β where
  run s :=
    match p.run s with
    | (some a, s') => (f a).run s'
    | (none, s') => (none, s')

instance : Monad (Reader σ) where
  pure a := ⟨fun s => (some a, s)⟩
  bind := bind

/-- The reader that fails and leaves the stream as it is. -/
def fail : Reader σ α where
  run s := (none, s)

/-- Give `o`, read from elsewhere, and leave the stream as it is. -/
def ofOption (o : Option α) : Reader σ α where
  run s := (o, s)

/-- Run `p` and go on with `a` if it fails, on whatever stream it left. -/
def orDefault (a : α) (p : Reader σ α) : Reader σ α where
  run s := (some ((p.run s).1.getD a), (p.run s).2)

/-- Run `p` `n` times. -/
def readN (p : Reader σ α) : ℕ → Reader σ (List α)
  | 0 => pure []
  | n + 1 => do
    let a ← p
    let as ← readN p n
    pure (a :: as)

/-- Run `n` rounds of a loop that carries a value. -/
def foldN (step : α → Reader σ α) : ℕ → α → Reader σ α
  | 0, a => pure a
  | n + 1, a => do
    let a ← step a
    foldN step n a

@[simp] theorem run_pure (a : α) (s : σ) : (pure a : Reader σ α).run s = (some a, s) :=
  rfl

@[simp] theorem run_fail (s : σ) : (fail : Reader σ α).run s = (none, s) :=
  rfl

theorem run_bind (p : Reader σ α) (f : α → Reader σ β) (s : σ) :
    (p >>= f).run s =
      match p.run s with
      | (some a, s') => (f a).run s'
      | (none, s') => (none, s') :=
  rfl

theorem run_bind_of_some {p : Reader σ α} {f : α → Reader σ β} {s s' : σ} {a : α}
    (h : p.run s = (some a, s')) : (p >>= f).run s = (f a).run s' := by
  rw [run_bind, h]

theorem run_bind_of_none {p : Reader σ α} {f : α → Reader σ β} {s : σ}
    (h : (p.run s).1 = none) : ((p >>= f).run s).1 = none := by
  obtain ⟨o, s', hp⟩ : ∃ o s', p.run s = (o, s') := ⟨_, _, rfl⟩
  rw [hp] at h
  obtain rfl : o = none := h
  rw [run_bind, hp]

end Reader

/-! ## Two readers of the same fields -/

namespace Reader

variable {σ α β γ δ : Type}

/-- On every stream both fail or both succeed with related results, and both leave the
same stream. -/
def Parallel (R : α → β → Prop) (p : Reader σ α) (q : Reader σ β) : Prop :=
  ∀ s, Option.Rel R (p.run s).1 (q.run s).1 ∧ (p.run s).2 = (q.run s).2

theorem Parallel.refl (p : Reader σ α) : Parallel Eq p p := by
  intro s
  cases (p.run s).1 with
  | none => exact ⟨.none, rfl⟩
  | some a => exact ⟨.some rfl, rfl⟩

theorem Parallel.pure {R : α → β → Prop} {a : α} {b : β} (h : R a b) :
    Parallel R (Pure.pure a : Reader σ α) (Pure.pure b) :=
  fun _ => ⟨.some h, rfl⟩

theorem Parallel.bind {R : α → β → Prop} {S : γ → δ → Prop} {p : Reader σ α} {q : Reader σ β}
    {f : α → Reader σ γ} {g : β → Reader σ δ} (hp : Parallel R p q)
    (hf : ∀ a b, R a b → Parallel S (f a) (g b)) : Parallel S (p >>= f) (q >>= g) := by
  intro s
  obtain ⟨hrel, hstream⟩ := hp s
  rw [run_bind, run_bind]
  obtain ⟨o, s', hps⟩ : ∃ o s', p.run s = (o, s') := ⟨_, _, rfl⟩
  obtain ⟨o', s'', hqs⟩ : ∃ o s', q.run s = (o, s') := ⟨_, _, rfl⟩
  rw [hps, hqs] at hrel hstream
  obtain rfl : s' = s'' := hstream
  rw [hps, hqs]
  cases hrel with
  | none => exact ⟨.none, rfl⟩
  | some h => exact hf _ _ h s'

/-- A field that both read and neither keeps. -/
theorem Parallel.bind_same {S : γ → δ → Prop} (p : Reader σ α) {f : α → Reader σ γ}
    {g : α → Reader σ δ} (hf : ∀ a, Parallel S (f a) (g a)) : Parallel S (p >>= f) (p >>= g) := by
  refine (Parallel.refl p).bind ?_
  rintro a b rfl
  exact hf a

theorem Parallel.readN {R : α → β → Prop} {p : Reader σ α} {q : Reader σ β}
    (h : Parallel R p q) : ∀ n, Parallel (List.Forall₂ R) (p.readN n) (q.readN n)
  | 0 => Parallel.pure .nil
  | n + 1 => h.bind fun _ _ hab => (Parallel.readN h n).bind fun _ _ hl =>
      Parallel.pure (.cons hab hl)

/-- What the two make of one stream. -/
theorem Parallel.rel {R : α → β → Prop} {p : Reader σ α} {q : Reader σ β} (h : Parallel R p q)
    (s : σ) : Option.Rel R (p.run s).1 (q.run s).1 :=
  (h s).1

end Reader

/-- A stream type with a stream holding exactly the given bytes, and a way to take a
number of bytes from it. -/
class ByteFeed (σ : Type) where
  feed : List UInt8 → σ
  take : ℕ → Reader σ (List UInt8)
  run_take : ∀ bs rest, (take bs.length).run (feed (bs ++ rest)) = (some bs, feed rest)

open ByteFeed (feed take run_take)

variable {σ α β : Type} [ByteFeed σ]

/-- On a stream that starts with `bs`, `p` succeeds with `a` and leaves the rest. -/
def Reads (p : Reader σ α) (bs : List UInt8) (a : α) : Prop :=
  ∀ rest, p.run (feed (bs ++ rest)) = (some a, feed rest)

/-- On a stream that starts with `bs`, `p` fails. -/
def Rejects (p : Reader σ α) (bs : List UInt8) : Prop :=
  ∀ rest, (p.run (feed (bs ++ rest))).1 = none

theorem Reads.run_feed {p : Reader σ α} {bs : List UInt8} {a : α} (h : Reads p bs a) :
    p.run (feed bs) = (some a, feed []) := by
  simpa using h []

theorem Rejects.run_feed {p : Reader σ α} {bs : List UInt8} (h : Rejects p bs) :
    (p.run (feed bs)).1 = none := by
  simpa using h []

theorem Reads.pure (a : α) : Reads (Pure.pure a : Reader σ α) [] a :=
  fun _ => rfl

theorem Reads.bind {p : Reader σ α} {f : α → Reader σ β} {bs bs' : List UInt8} {a : α} {b : β}
    (hp : Reads p bs a) (hf : Reads (f a) bs' b) : Reads (p >>= f) (bs ++ bs') b := by
  intro rest
  rw [List.append_assoc, Reader.run_bind_of_some (hp _), hf]

/-- The last step of a chain : nothing more is read. -/
theorem Reads.bind_pure {p : Reader σ α} {g : α → β} {bs : List UInt8} {a : α}
    (hp : Reads p bs a) : Reads (p >>= fun x => Pure.pure (g x)) bs (g a) := by
  simpa using hp.bind (f := fun x => Pure.pure (g x)) (Reads.pure (g a))

theorem Reads.orDefault {p : Reader σ α} {bs : List UInt8} {a : α} (hp : Reads p bs a) (d : α) :
    Reads (p.orDefault d) bs a := by
  intro rest
  simp [Reader.orDefault, hp rest]

theorem Rejects.fail (bs : List UInt8) : Rejects (Reader.fail : Reader σ α) bs :=
  fun _ => rfl

/-- A failure in the first reader is a failure of the chain. -/
theorem Rejects.bind_left {p : Reader σ α} (f : α → Reader σ β) {bs : List UInt8}
    (hp : Rejects p bs) (bs' : List UInt8) : Rejects (p >>= f) (bs ++ bs') := by
  intro rest
  rw [List.append_assoc]
  exact Reader.run_bind_of_none (hp _)

theorem Rejects.bind {p : Reader σ α} {bs : List UInt8} (hp : Rejects p bs)
    (f : α → Reader σ β) : Rejects (p >>= f) bs := by
  simpa using hp.bind_left f []

/-- A failure after a successful first reader is a failure of the chain. -/
theorem Rejects.bind_right {p : Reader σ α} {f : α → Reader σ β} {bs bs' : List UInt8} {a : α}
    (hp : Reads p bs a) (hf : Rejects (f a) bs') : Rejects (p >>= f) (bs ++ bs') := by
  intro rest
  rw [List.append_assoc, Reader.run_bind_of_some (hp _)]
  exact hf rest

/-- A field that is present on one side of a condition only, or differs on the two. -/
theorem Reads.ite {c : Prop} [Decidable c] {p q : Reader σ α} {bs bs' : List UInt8} {a a' : α}
    (hp : c → Reads p bs a) (hq : ¬c → Reads q bs' a') :
    Reads (if c then p else q) (if c then bs else bs') (if c then a else a') := by
  by_cases hc : c
  · simpa only [if_pos hc] using hp hc
  · simpa only [if_neg hc] using hq hc

/-- A counted loop reads the concatenation of what each round reads. -/
theorem Reads.readN {ι : Type} {p : Reader σ α} {enc : ι → List UInt8} {val : ι → α} :
    ∀ {l : List ι}, (∀ x ∈ l, Reads p (enc x) (val x)) →
      Reads (p.readN l.length) (l.flatMap enc) (l.map val)
  | [], _ => Reads.pure []
  | x :: l, h => by
    have hx := h x List.mem_cons_self
    have hl := Reads.readN fun y hy => h y (List.mem_cons_of_mem x hy)
    exact hx.bind hl.bind_pure

/-- A loop that carries a value, when a round on the encoding of `x` updates it by `upd`. -/
theorem Reads.foldN {ι : Type} {step : α → Reader σ α} {enc : ι → List UInt8}
    {upd : α → ι → α} : ∀ {l : List ι} {a : α}, (∀ x ∈ l, ∀ a, Reads (step a) (enc x) (upd a x)) →
      Reads (Reader.foldN step l.length a) (l.flatMap enc) (l.foldl upd a)
  | [], a, _ => Reads.pure a
  | x :: _, a, h =>
    (h x List.mem_cons_self a).bind (Reads.foldN fun y hy => h y (List.mem_cons_of_mem x hy))

/-- A counted loop fails at its first failing round. -/
theorem Rejects.readN {ι : Type} {p : Reader σ α} {enc : ι → List UInt8} {val : ι → α}
    {ok : ι → Prop} :
    ∀ {l : List ι}, (∀ x ∈ l, ok x → Reads p (enc x) (val x)) →
      (∀ x ∈ l, ¬ok x → Rejects p (enc x)) → (∃ x ∈ l, ¬ok x) →
      Rejects (p.readN l.length) (l.flatMap enc)
  | [], _, _, hex => by simp at hex
  | x :: l, hok, hbad, hex => by
    by_cases hx : ok x
    · have hl : Rejects (p.readN l.length) (l.flatMap enc) := by
        refine Rejects.readN (fun y hy => hok y (List.mem_cons_of_mem x hy))
          (fun y hy => hbad y (List.mem_cons_of_mem x hy)) ?_
        obtain ⟨y, hy, hne⟩ := hex
        rcases List.mem_cons.mp hy with rfl | hy
        · exact (hne hx).elim
        · exact ⟨y, hy, hne⟩
      rw [List.flatMap_cons]
      refine Rejects.bind_right (hok x List.mem_cons_self hx) ?_
      exact hl.bind _
    · exact (hbad x List.mem_cons_self hx).bind_left _ _

/-! ## Scalars and counted containers -/

section Counted

variable {ι : Type}

/-- Read a scalar. -/
def readBasic (σ α : Type) [ByteFeed σ] [BasicType α] : Reader σ α := do
  let bytes ← take (BasicType.size α)
  pure (ofBasicBytes bytes)

/-- A count, as a 64-bit word. -/
def sizeBytes (n : ℕ) : List UInt8 :=
  basicBytes (UInt64.ofNat n)

def readSize (σ : Type) [ByteFeed σ] : Reader σ ℕ := do
  let size ← readBasic σ UInt64
  pure size.toNat

/-- A container as its count and its elements. -/
def vecBytes (enc : ι → List UInt8) (l : List ι) : List UInt8 :=
  sizeBytes l.length ++ l.flatMap enc

def readVec (p : Reader σ α) : Reader σ (List α) := do
  let len ← readSize σ
  p.readN len

/-- Read a container unless it has too many elements. -/
def readBoundedVec (limit : ℕ) (p : Reader σ α) : Reader σ (List α) := do
  let len ← readSize σ
  if len > limit then Reader.fail
  else p.readN len

/-- A byte string behind its length. -/
def stringBytes (bs : List UInt8) : List UInt8 :=
  sizeBytes bs.length ++ bs

/-- Read a byte string unless it is too long. -/
def readBytes (σ : Type) [ByteFeed σ] (limit : ℕ) : Reader σ (List UInt8) := do
  let len ← readSize σ
  if len > limit then Reader.fail
  else take len

theorem parallel_readVec {ρ : Type} {R : α → ρ → Prop} {p : Reader σ α} {q : Reader σ ρ}
    (h : Reader.Parallel R p q) : Reader.Parallel (List.Forall₂ R) (readVec p) (readVec q) :=
  Reader.Parallel.bind_same _ fun len => h.readN len

@[simp] theorem length_sizeBytes (n : ℕ) : (sizeBytes n).length = 8 :=
  length_basicBytes _

theorem length_vecBytes (enc : ι → List UInt8) (l : List ι) :
    (vecBytes enc l).length = 8 + (l.flatMap enc).length := by
  simp [vecBytes]

@[simp] theorem length_stringBytes (bs : List UInt8) :
    (stringBytes bs).length = 8 + bs.length := by
  simp [stringBytes]

theorem reads_basic [BasicType α] (a : α) : Reads (readBasic σ α) (basicBytes a) a := by
  have htake : Reads (take (basicBytes a).length : Reader σ _) (basicBytes a) (basicBytes a) :=
    run_take _
  have h := htake.bind_pure (g := ofBasicBytes (α := α))
  rwa [length_basicBytes, ofBasicBytes_basicBytes] at h

theorem reads_size {n : ℕ} (hn : n < 2 ^ 64) : Reads (readSize σ) (sizeBytes n) n := by
  have h := (reads_basic (σ := σ) (UInt64.ofNat n)).bind_pure (g := UInt64.toNat)
  rwa [UInt64.toNat_ofNat_of_lt' hn] at h

theorem reads_vec {enc : ι → List UInt8} {p : Reader σ α} {val : ι → α} {l : List ι}
    (hlen : l.length < 2 ^ 64) (h : ∀ x ∈ l, Reads p (enc x) (val x)) :
    Reads (readVec p) (vecBytes enc l) (l.map val) :=
  (reads_size hlen).bind (Reads.readN h)

theorem rejects_vec {enc : ι → List UInt8} {p : Reader σ α} {val : ι → α} {ok : ι → Prop}
    {l : List ι} (hlen : l.length < 2 ^ 64) (hok : ∀ x ∈ l, ok x → Reads p (enc x) (val x))
    (hbad : ∀ x ∈ l, ¬ok x → Rejects p (enc x)) (hex : ∃ x ∈ l, ¬ok x) :
    Rejects (readVec p) (vecBytes enc l) :=
  Rejects.bind_right (reads_size hlen) (Rejects.readN hok hbad hex)

theorem reads_boundedVec {enc : ι → List UInt8} {p : Reader σ α} {val : ι → α} {l : List ι}
    {limit : ℕ} (hlimit : l.length ≤ limit) (hlen : l.length < 2 ^ 64)
    (h : ∀ x ∈ l, Reads p (enc x) (val x)) :
    Reads (readBoundedVec limit p) (vecBytes enc l) (l.map val) := by
  refine (reads_size hlen).bind ?_
  rw [if_neg (by omega)]
  exact Reads.readN h

/-- A container with an element that is refused is refused. -/
theorem rejects_boundedVec_of_mem {enc : ι → List UInt8} {p : Reader σ α} {val : ι → α}
    {ok : ι → Prop} {l : List ι} {limit : ℕ} (hlimit : l.length ≤ limit)
    (hlen : l.length < 2 ^ 64) (hok : ∀ x ∈ l, ok x → Reads p (enc x) (val x))
    (hbad : ∀ x ∈ l, ¬ok x → Rejects p (enc x)) (hex : ∃ x ∈ l, ¬ok x) :
    Rejects (readBoundedVec limit p) (vecBytes enc l) := by
  refine Rejects.bind_right (reads_size hlen) ?_
  rw [if_neg (by omega)]
  exact Rejects.readN hok hbad hex

/-- A container with too many elements is refused before its elements are read. -/
theorem rejects_boundedVec (enc : ι → List UInt8) (p : Reader σ α) {l : List ι} {limit : ℕ}
    (hlimit : limit < l.length) (hlen : l.length < 2 ^ 64) :
    Rejects (readBoundedVec limit p) (vecBytes enc l) := by
  refine Rejects.bind_right (reads_size hlen) ?_
  rw [if_pos (by omega)]
  exact Rejects.fail _

theorem reads_bytes {bs : List UInt8} {limit : ℕ} (hlimit : bs.length ≤ limit)
    (hlen : bs.length < 2 ^ 64) : Reads (readBytes σ limit) (stringBytes bs) bs := by
  refine (reads_size hlen).bind ?_
  rw [if_neg (by omega)]
  exact run_take bs

theorem rejects_bytes {bs : List UInt8} {limit : ℕ} (hlimit : limit < bs.length)
    (hlen : bs.length < 2 ^ 64) : Rejects (readBytes σ limit) (stringBytes bs) := by
  refine Rejects.bind_right (reads_size hlen) ?_
  rw [if_pos (by omega)]
  exact Rejects.fail _

end Counted

/-! ## Lengths of encodings -/

theorem length_le_length_flatMap {ι : Type} (enc : ι → List UInt8) {x : ι} :
    ∀ {l : List ι}, x ∈ l → (enc x).length ≤ (l.flatMap enc).length
  | y :: l, hx => by
    rw [List.flatMap_cons, List.length_append]
    rcases List.mem_cons.mp hx with rfl | hx
    · omega
    · have := length_le_length_flatMap enc hx
      omega

/-- If every element takes at least one byte, there are no more elements than bytes. -/
theorem length_le_of_pos {ι : Type} {enc : ι → List UInt8} :
    ∀ {l : List ι}, (∀ x ∈ l, 0 < (enc x).length) → l.length ≤ (l.flatMap enc).length
  | [], _ => by simp
  | x :: l, hpos => by
    have hx := hpos x List.mem_cons_self
    have hl := length_le_of_pos fun y hy => hpos y (List.mem_cons_of_mem x hy)
    rw [List.flatMap_cons, List.length_append, List.length_cons]
    omega

/-- A container is at least as long as each of its elements, and as their number. -/
theorem bounds_of_vecBytes {ι : Type} {enc : ι → List UInt8} {l : List ι}
    (hpos : ∀ x ∈ l, 0 < (enc x).length) :
    l.length ≤ (vecBytes enc l).length ∧ ∀ x ∈ l, (enc x).length ≤ (vecBytes enc l).length := by
  have hcount := length_le_of_pos hpos
  rw [length_vecBytes]
  refine ⟨by omega, fun x hx => ?_⟩
  have := length_le_length_flatMap enc hx
  omega

/-! ## Encodings that may lose something

An encoding `bs'` of what is left of an encoding `bs` : it is never longer, and it is the
same exactly under the condition `c`. -/

structure Shrinks (bs' bs : List UInt8) (c : Prop) : Prop where
  length_le : bs'.length ≤ bs.length
  eq_iff : bs' = bs ↔ c

theorem Shrinks.of_eq {bs' bs : List UInt8} {c : Prop} (h : bs' = bs) (hc : c) :
    Shrinks bs' bs c :=
  ⟨h ▸ le_rfl, iff_of_true h hc⟩

theorem Shrinks.of_lt {bs' bs : List UInt8} {c : Prop} (h : bs'.length < bs.length) (hc : ¬c) :
    Shrinks bs' bs c :=
  ⟨h.le, iff_of_false (fun heq => by rw [heq] at h; omega) hc⟩

theorem Shrinks.congr {bs' bs : List UInt8} {c d : Prop} (h : Shrinks bs' bs c) (hcd : c ↔ d) :
    Shrinks bs' bs d :=
  ⟨h.length_le, h.eq_iff.trans hcd⟩

theorem Shrinks.append {as' as bs' bs : List UInt8} {c d : Prop} (ha : Shrinks as' as c)
    (hb : Shrinks bs' bs d) : Shrinks (as' ++ bs') (as ++ bs) (c ∧ d) := by
  have hla := ha.length_le
  have hlb := hb.length_le
  refine ⟨by rw [List.length_append, List.length_append]; omega, ?_⟩
  rw [← ha.eq_iff, ← hb.eq_iff]
  constructor
  · intro heq
    have hlen := congrArg List.length heq
    rw [List.length_append, List.length_append] at hlen
    exact List.append_inj heq (by omega)
  · rintro ⟨rfl, rfl⟩
    rfl

theorem Shrinks.flatMap {ι : Type} {f g : ι → List UInt8} {c : ι → Prop} :
    ∀ {l : List ι}, (∀ x ∈ l, Shrinks (f x) (g x) (c x)) →
      Shrinks (l.flatMap f) (l.flatMap g) (∀ x ∈ l, c x)
  | [], _ => Shrinks.of_eq rfl (by simp)
  | x :: l, h => by
    have hl := Shrinks.flatMap fun y hy => h y (List.mem_cons_of_mem x hy)
    rw [List.flatMap_cons, List.flatMap_cons]
    exact ((h x List.mem_cons_self).append hl).congr (List.forall_mem_cons).symm

theorem Shrinks.vecBytes {ι κ : Type} {f : κ → List UInt8} {g : ι → List UInt8} {φ : ι → κ}
    {c : ι → Prop} {l : List ι} (h : ∀ x ∈ l, Shrinks (f (φ x)) (g x) (c x)) :
    Shrinks (vecBytes f (l.map φ)) (vecBytes g l) (∀ x ∈ l, c x) := by
  have hcount : Shrinks (sizeBytes (l.map φ).length) (sizeBytes l.length) True :=
    Shrinks.of_eq (by rw [List.length_map]) trivial
  rw [DataShare.vecBytes, List.flatMap_map]
  exact (hcount.append (Shrinks.flatMap h)).congr (iff_of_eq (true_and _))

/-! ## Signed words -/

theorem toInt_eq_toNat {x : Int32} (h : x.toUInt32.toNat < 2 ^ 31) :
    x.toInt = x.toUInt32.toNat := by
  have hcond : x.toInt = if 2 * x.toUInt32.toNat < 2 ^ 32 then (x.toUInt32.toNat : ℤ)
      else x.toUInt32.toNat - (2 ^ 32 : ℕ) := BitVec.toInt_eq_toNat_cond x.toBitVec
  rw [hcond, if_pos (by omega)]

theorem toInt_sub_of_nonneg {a b : Int32} (ha : -1 ≤ a.toInt) (hb : 0 ≤ b.toInt) :
    (a - b).toInt = a.toInt - b.toInt := by
  have ha' := a.toInt_lt
  have hb' := b.toInt_lt
  rw [Int32.toInt_sub, Int.bmod_eq_of_le (by omega) (by omega)]

end DataShare
