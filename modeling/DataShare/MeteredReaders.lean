import DataShare.ReaderWords

/-!
# Readers that ask for memory

A reader of untrusted bytes often takes a count of them and asks for memory before it reads the
elements. A `MeteredReader` keeps what it asks for, with the bytes that remain then, and may
panic : a capacity that is too large is no failure of the reader but of the program.

`Accepts limit` and `GivesUp limit` : the reader gives a value, or gives up, and never asks for more
elements than bytes remain, nor for more than `limit` bytes of memory. Both compose over `>>=`
(`accepts_bind_iff`, `givesUp_bind_iff`), and so describe which bytes a reader is safe on. `Erases`
relates it to the reader without the requests.
-/

namespace DataShare

/-- Memory for `count` elements of `size` bytes, asked for with `remaining` bytes left. -/
structure MemoryRequest where
  count : ℕ
  size : ℕ
  remaining : ℕ
deriving DecidableEq, Repr

/-- No more elements than bytes remain, and no more memory than `limit`. -/
def MemoryRequest.Bounded (limit : ℕ) (r : MemoryRequest) : Prop :=
  r.count ≤ r.remaining ∧ r.count * r.size ≤ limit

instance (limit : ℕ) (r : MemoryRequest) : Decidable (r.Bounded limit) :=
  inferInstanceAs (Decidable (_ ∧ _))

/-- How a reader ends. -/
inductive ReaderEnd (α : Type)
  | done (a : α) (rest : List UInt8)
  | refused
  | panic
deriving DecidableEq, Repr

structure MeteredReader (α : Type) where
  run : List UInt8 → List MemoryRequest × ReaderEnd α

namespace MeteredReader

variable {α β σ : Type}

def bind (p : MeteredReader α) (f : α → MeteredReader β) : MeteredReader β where
  run bs :=
    match p.run bs with
    | (requests, .done a rest) => (requests ++ ((f a).run rest).1, ((f a).run rest).2)
    | (requests, .refused) => (requests, .refused)
    | (requests, .panic) => (requests, .panic)

instance : Monad MeteredReader where
  pure a := ⟨fun bs => ([], .done a bs)⟩
  bind := bind

def fail : MeteredReader α where
  run _ := ([], .refused)

def ofOption : Option α → MeteredReader α
  | some a => pure a
  | none => fail

/-- Take the next `n` bytes. -/
def take (n : ℕ) : MeteredReader (List UInt8) where
  run bs := ([], if n ≤ bs.length then .done (bs.take n) (bs.drop n) else .refused)

/-- `isize::MAX`, the largest capacity in bytes. -/
def maxCapacity : ℕ := 2 ^ 63 - 1

/-- Ask for memory for `count` elements of `size` bytes. -/
def allocate (count size : ℕ) : MeteredReader Unit where
  run bs := ([⟨count, size, bs.length⟩], if count * size ≤ maxCapacity then .done () bs else .panic)

def readN (p : MeteredReader α) : ℕ → MeteredReader (List α)
  | 0 => pure []
  | n + 1 => do
    let a ← p
    let as ← readN p n
    pure (a :: as)

/-- Run `p` up to `n` times, until it gives up, and keep what it gave. A panic gives nothing. -/
def collect (p : MeteredReader α) : ℕ → List UInt8 → List MemoryRequest × Option (List α)
  | 0, _ => ([], some [])
  | n + 1, bs =>
    match p.run bs with
    | (requests, .done a rest) =>
      (requests ++ (collect p n rest).1, (collect p n rest).2.map (a :: ·))
    | (requests, .refused) => (requests, some [])
    | (requests, .panic) => (requests, none)

theorem run_bind_of_done {p : MeteredReader α} (f : α → MeteredReader β) {bs rest : List UInt8}
    {requests : List MemoryRequest} {a : α} (h : p.run bs = (requests, .done a rest)) :
    (p >>= f).run bs = (requests ++ ((f a).run rest).1, ((f a).run rest).2) := by
  change (p.bind f).run bs = _
  simp only [bind, h]

theorem run_bind_of_refused {p : MeteredReader α} (f : α → MeteredReader β) {bs : List UInt8}
    {requests : List MemoryRequest} (h : p.run bs = (requests, .refused)) :
    (p >>= f).run bs = (requests, .refused) := by
  change (p.bind f).run bs = _
  simp only [bind, h]

theorem run_bind_of_panic {p : MeteredReader α} (f : α → MeteredReader β) {bs : List UInt8}
    {requests : List MemoryRequest} (h : p.run bs = (requests, .panic)) :
    (p >>= f).run bs = (requests, .panic) := by
  change (p.bind f).run bs = _
  simp only [bind, h]

theorem allocate_run_of_le {count size : ℕ} (h : count * size ≤ maxCapacity) (bs : List UInt8) :
    (allocate count size).run bs = ([⟨count, size, bs.length⟩], .done () bs) := by
  simp [allocate, h]

theorem allocate_run_of_lt {count size : ℕ} (h : ¬count * size ≤ maxCapacity) (bs : List UInt8) :
    (allocate count size).run bs = ([⟨count, size, bs.length⟩], .panic) := by
  simp [allocate, h]

/-! ## Safe runs -/

variable {limit : ℕ}

/-- `p` gives `a` and leaves `rest`, without a request that is too large. -/
def Accepts (limit : ℕ) (p : MeteredReader α) (bs : List UInt8) (a : α) (rest : List UInt8) : Prop :=
  (p.run bs).2 = .done a rest ∧ ∀ r ∈ (p.run bs).1, r.Bounded limit

/-- `p` gives up, without a request that is too large. -/
def GivesUp (limit : ℕ) (p : MeteredReader α) (bs : List UInt8) : Prop :=
  (p.run bs).2 = .refused ∧ ∀ r ∈ (p.run bs).1, r.Bounded limit

theorem accepts_bind_iff {p : MeteredReader α} {f : α → MeteredReader β} {bs rest : List UInt8}
    {b : β} : Accepts limit (p >>= f) bs b rest ↔
      ∃ a mid, Accepts limit p bs a mid ∧ Accepts limit (f a) mid b rest := by
  obtain ⟨requests, ending, hrun⟩ : ∃ requests ending, p.run bs = (requests, ending) :=
    ⟨_, _, rfl⟩
  unfold Accepts
  cases ending with
  | done a mid =>
    rw [run_bind_of_done f hrun, hrun]
    simp only [List.mem_append, or_imp, forall_and, ReaderEnd.done.injEq]
    constructor
    · rintro ⟨hend, hfirst, hsecond⟩
      exact ⟨a, mid, ⟨⟨rfl, rfl⟩, hfirst⟩, hend, hsecond⟩
    · rintro ⟨_, _, ⟨⟨rfl, rfl⟩, hfirst⟩, hend, hsecond⟩
      exact ⟨hend, hfirst, hsecond⟩
  | refused => simp [run_bind_of_refused f hrun, hrun]
  | panic => simp [run_bind_of_panic f hrun, hrun]

theorem givesUp_bind_iff {p : MeteredReader α} {f : α → MeteredReader β} {bs : List UInt8} :
    GivesUp limit (p >>= f) bs ↔
      GivesUp limit p bs ∨ ∃ a mid, Accepts limit p bs a mid ∧ GivesUp limit (f a) mid := by
  obtain ⟨requests, ending, hrun⟩ : ∃ requests ending, p.run bs = (requests, ending) :=
    ⟨_, _, rfl⟩
  unfold GivesUp Accepts
  cases ending with
  | done a mid =>
    rw [run_bind_of_done f hrun, hrun]
    simp only [List.mem_append, or_imp, forall_and, ReaderEnd.done.injEq, reduceCtorEq, false_and,
      false_or]
    constructor
    · rintro ⟨hend, hfirst, hsecond⟩
      exact ⟨a, mid, ⟨⟨rfl, rfl⟩, hfirst⟩, hend, hsecond⟩
    · rintro ⟨_, _, ⟨⟨rfl, rfl⟩, hfirst⟩, hend, hsecond⟩
      exact ⟨hend, hfirst, hsecond⟩
  | refused => simp [run_bind_of_refused f hrun, hrun]
  | panic => simp [run_bind_of_panic f hrun, hrun]

@[simp] theorem accepts_pure_iff {a b : α} {bs rest : List UInt8} :
    Accepts limit (pure a) bs b rest ↔ a = b ∧ bs = rest := by
  change ReaderEnd.done a bs = .done b rest ∧ (∀ r ∈ ([] : List MemoryRequest), r.Bounded limit) ↔ _
  simp

@[simp] theorem not_givesUp_pure {a : α} {bs : List UInt8} : ¬GivesUp limit (pure a) bs := by
  rintro ⟨hend, -⟩
  cases hend

@[simp] theorem not_accepts_fail {b : α} {bs rest : List UInt8} :
    ¬Accepts limit fail bs b rest := by
  rintro ⟨hend, -⟩
  cases hend

@[simp] theorem givesUp_fail {bs : List UInt8} : GivesUp limit (fail : MeteredReader α) bs :=
  ⟨rfl, by simp [fail]⟩

/-- The last step of a chain : nothing more is read. -/
theorem accepts_bind_pure_iff {p : MeteredReader α} {g : α → β} {bs rest : List UInt8} {b : β} :
    Accepts limit (p >>= fun a => pure (g a)) bs b rest ↔
      ∃ a, Accepts limit p bs a rest ∧ g a = b := by
  simp only [accepts_bind_iff, accepts_pure_iff]
  constructor
  · rintro ⟨a, mid, ha, hb, rfl⟩
    exact ⟨a, ha, hb⟩
  · rintro ⟨a, ha, hb⟩
    exact ⟨a, rest, ha, hb, rfl⟩

theorem givesUp_bind_pure_iff {p : MeteredReader α} {g : α → β} {bs : List UInt8} :
    GivesUp limit (p >>= fun a => pure (g a)) bs ↔ GivesUp limit p bs := by
  simp [givesUp_bind_iff]

theorem accepts_ofOption_iff {o : Option α} {a : α} {bs rest : List UInt8} :
    Accepts limit (ofOption o) bs a rest ↔ o = some a ∧ bs = rest := by
  cases o <;> simp [ofOption]

theorem givesUp_ofOption_iff {o : Option α} {bs : List UInt8} :
    GivesUp limit (ofOption o) bs ↔ o = none := by
  cases o <;> simp [ofOption]

theorem accepts_take_iff {n : ℕ} {bs w rest : List UInt8} :
    Accepts limit (take n) bs w rest ↔ w.length = n ∧ bs = w ++ rest := by
  rw [Accepts, take]
  dsimp only
  constructor
  · rintro ⟨hend, -⟩
    split at hend
    · next hn =>
      cases hend
      exact ⟨by simpa using hn, (List.take_append_drop n bs).symm⟩
    · cases hend
  · rintro ⟨rfl, rfl⟩
    simp

theorem givesUp_take_iff {n : ℕ} {bs : List UInt8} : GivesUp limit (take n) bs ↔ bs.length < n := by
  rw [GivesUp, take]
  dsimp only
  split
  · simp [*]
  · simpa using ‹¬n ≤ bs.length›

theorem accepts_allocate_iff {count size : ℕ} {bs rest : List UInt8} {u : Unit} :
    Accepts limit (allocate count size) bs u rest ↔
      (count ≤ bs.length ∧ count * size ≤ limit) ∧ count * size ≤ maxCapacity ∧ bs = rest := by
  rw [Accepts, allocate]
  dsimp only
  rw [List.forall_mem_singleton, MemoryRequest.Bounded]
  split
  · simp [*, and_comm]
  · simp [*]

theorem not_givesUp_allocate {count size : ℕ} {bs : List UInt8} :
    ¬GivesUp limit (allocate count size) bs := by
  rintro ⟨hend, -⟩
  rw [allocate] at hend
  dsimp only at hend
  split at hend <;> cases hend

/-! ## Loops -/

theorem accepts_readN_zero_iff {p : MeteredReader α} {bs rest : List UInt8} {as : List α} :
    Accepts limit (p.readN 0) bs as rest ↔ as = [] ∧ bs = rest := by
  rw [readN, accepts_pure_iff, eq_comm]

theorem accepts_readN_succ_iff {p : MeteredReader α} {n : ℕ} {bs rest : List UInt8}
    {as : List α} : Accepts limit (p.readN (n + 1)) bs as rest ↔
      ∃ a mid as', Accepts limit p bs a mid ∧ Accepts limit (p.readN n) mid as' rest ∧
        as = a :: as' := by
  simp only [readN, accepts_bind_iff, accepts_pure_iff]
  constructor
  · rintro ⟨a, mid, ha, as', mid', has, rfl, rfl⟩
    exact ⟨a, mid, as', ha, has, rfl⟩
  · rintro ⟨a, mid, as', ha, has, rfl⟩
    exact ⟨a, mid, ha, as', rest, has, rfl, rfl⟩

/-- A counted loop accepts the words of its rounds, on streams for which `p` accepts its words. -/
theorem accepts_readN_iff {p : MeteredReader α} {L : α → List UInt8 → Prop}
    {S : List UInt8 → Prop} (htail : ∀ {w rest}, S (w ++ rest) → S rest)
    (hp : ∀ {bs a rest}, S bs → (Accepts limit p bs a rest ↔ ∃ w, L a w ∧ bs = w ++ rest)) :
    ∀ {n : ℕ} {bs : List UInt8} {as : List α} {rest : List UInt8}, S bs →
      (Accepts limit (p.readN n) bs as rest ↔
        as.length = n ∧ ∃ ws, List.Forall₂ L as ws ∧ bs = ws.flatten ++ rest)
  | 0, bs, as, rest, _ => by
    rw [accepts_readN_zero_iff]
    constructor
    · rintro ⟨rfl, rfl⟩
      exact ⟨rfl, [], .nil, rfl⟩
    · rintro ⟨hlen, ws, hws, rfl⟩
      obtain rfl := List.length_eq_zero_iff.mp hlen
      cases hws
      exact ⟨rfl, rfl⟩
  | n + 1, bs, as, rest, h => by
    rw [accepts_readN_succ_iff]
    constructor
    · rintro ⟨a, mid, as, ha, has, rfl⟩
      obtain ⟨w, hw, rfl⟩ := (hp h).mp ha
      obtain ⟨hlen, ws, hws, rfl⟩ := (accepts_readN_iff htail hp (htail h)).mp has
      exact ⟨by rw [List.length_cons, hlen], w :: ws, .cons hw hws,
        by rw [List.flatten_cons, List.append_assoc]⟩
    · rintro ⟨hlen, ws, hws, rfl⟩
      obtain ⟨a, as, rfl⟩ := List.exists_cons_of_length_eq_add_one hlen
      obtain ⟨w, ws', hw, hws', rfl⟩ := List.forall₂_cons_left_iff.mp hws
      rw [List.flatten_cons, List.append_assoc] at h ⊢
      exact ⟨a, _, as, (hp h).mpr ⟨w, hw, rfl⟩, (accepts_readN_iff htail hp (htail h)).mpr
        ⟨Nat.succ_injective hlen, ws', hws', rfl⟩, rfl⟩

/-- A counted loop gives up in a round, after those that it accepts. -/
theorem givesUp_readN_iff {p : MeteredReader α} : ∀ {n : ℕ} {bs : List UInt8},
    GivesUp limit (p.readN n) bs ↔
      ∃ k < n, ∃ as rest, Accepts limit (p.readN k) bs as rest ∧ GivesUp limit p rest
  | 0, bs => by simp [readN]
  | n + 1, bs => by
    rw [readN, givesUp_bind_iff]
    constructor
    · rintro (h | ⟨a, mid, ha, h⟩)
      · exact ⟨0, n.succ_pos, [], bs, accepts_readN_zero_iff.mpr ⟨rfl, rfl⟩, h⟩
      · rcases givesUp_bind_iff.mp h with h | ⟨as, rest, -, h⟩
        · obtain ⟨k, hk, as, rest, has, hrest⟩ := givesUp_readN_iff.mp h
          exact ⟨k + 1, by omega, a :: as, rest,
            accepts_readN_succ_iff.mpr ⟨a, mid, as, ha, has, rfl⟩, hrest⟩
        · exact absurd h not_givesUp_pure
    · rintro ⟨k, hk, as, rest, has, hrest⟩
      rcases k with _ | k
      · obtain ⟨-, rfl⟩ := accepts_readN_zero_iff.mp has
        exact Or.inl hrest
      · obtain ⟨a, mid, as', ha, has', -⟩ := accepts_readN_succ_iff.mp has
        exact Or.inr ⟨a, mid, ha, givesUp_bind_iff.mpr
          (Or.inl (givesUp_readN_iff.mpr ⟨k, by omega, as', rest, has', hrest⟩))⟩

theorem collect_succ_of_done {p : MeteredReader α} (n : ℕ) {bs rest : List UInt8}
    {requests : List MemoryRequest} {a : α} (h : p.run bs = (requests, .done a rest)) :
    p.collect (n + 1) bs =
      (requests ++ (p.collect n rest).1, (p.collect n rest).2.map (a :: ·)) := by
  rw [collect, h]

theorem collect_succ_of_refused {p : MeteredReader α} (n : ℕ) {bs : List UInt8}
    {requests : List MemoryRequest} (h : p.run bs = (requests, .refused)) :
    p.collect (n + 1) bs = (requests, some []) := by
  rw [collect, h]

theorem collect_succ_of_panic {p : MeteredReader α} (n : ℕ) {bs : List UInt8}
    {requests : List MemoryRequest} (h : p.run bs = (requests, .panic)) :
    p.collect (n + 1) bs = (requests, none) := by
  rw [collect, h]

/-- The loop that keeps what it has has everything exactly if no round gives up. -/
theorem collect_all_iff {p : MeteredReader α} : ∀ {n : ℕ} {bs : List UInt8},
    ((∀ r ∈ (p.collect n bs).1, r.Bounded limit) ∧
        ∃ as, (p.collect n bs).2 = some as ∧ as.length = n) ↔
      ∃ as rest, Accepts limit (p.readN n) bs as rest
  | 0, bs => by simp [collect, accepts_readN_zero_iff]
  | n + 1, bs => by
    have ih := @collect_all_iff p n
    obtain ⟨requests, ending, hrun⟩ : ∃ requests ending, p.run bs = (requests, ending) :=
      ⟨_, _, rfl⟩
    simp only [accepts_readN_succ_iff]
    simp only [Accepts, hrun]
    cases ending with
    | done a mid =>
      rw [collect_succ_of_done n hrun]
      simp only [List.mem_append, or_imp, forall_and, ReaderEnd.done.injEq, Option.map_eq_some_iff]
      constructor
      · rintro ⟨⟨hfirst, hrest⟩, _, ⟨as, has, rfl⟩, hlen⟩
        obtain ⟨as', rest, has', hbounded⟩ := ih.mp ⟨hrest, as, has, Nat.succ_injective hlen⟩
        exact ⟨_, rest, a, mid, as', ⟨⟨rfl, rfl⟩, hfirst⟩, ⟨has', hbounded⟩, rfl⟩
      · rintro ⟨_, rest, _, _, as', ⟨⟨rfl, rfl⟩, hfirst⟩, has', rfl⟩
        obtain ⟨hbounded, as, has, hlen⟩ := ih.mpr ⟨as', rest, has'⟩
        exact ⟨⟨hfirst, hbounded⟩, _, ⟨as, has, rfl⟩, by rw [List.length_cons, hlen]⟩
    | refused => simp [collect_succ_of_refused n hrun]
    | panic => simp [collect_succ_of_panic n hrun]

/-- It has nothing if the first round gives up. -/
theorem collect_nil_iff {p : MeteredReader α} {n : ℕ} (hn : 0 < n) {bs : List UInt8} :
    ((∀ r ∈ (p.collect n bs).1, r.Bounded limit) ∧ (p.collect n bs).2 = some []) ↔
      GivesUp limit p bs := by
  obtain ⟨n, rfl⟩ := Nat.exists_eq_succ_of_ne_zero hn.ne'
  obtain ⟨requests, ending, hrun⟩ : ∃ requests ending, p.run bs = (requests, ending) :=
    ⟨_, _, rfl⟩
  rw [GivesUp, Nat.succ_eq_add_one, hrun]
  cases ending with
  | done a rest => simp [collect_succ_of_done n hrun]
  | refused => simp [collect_succ_of_refused n hrun]
  | panic => simp [collect_succ_of_panic n hrun]

/-! ## Scalars -/

def readBasic (α : Type) [BasicType α] : MeteredReader α := do
  let bytes ← take (BasicType.size α)
  pure (ofBasicBytes bytes)

def readSize : MeteredReader ℕ := do
  let size ← readBasic UInt64
  pure size.toNat

theorem accepts_basic_iff [BasicType α] {bs rest : List UInt8} {a : α} :
    Accepts limit (readBasic α) bs a rest ↔
      ∃ w, w.length = BasicType.size α ∧ ofBasicBytes w = a ∧ bs = w ++ rest := by
  simp only [readBasic, accepts_bind_pure_iff, accepts_take_iff]
  constructor
  · rintro ⟨w, ⟨hlen, rfl⟩, ha⟩
    exact ⟨w, hlen, ha, rfl⟩
  · rintro ⟨w, hlen, ha, rfl⟩
    exact ⟨w, ⟨hlen, rfl⟩, ha⟩

theorem accepts_word_iff [BasicType α] [ExactType α] {bs rest : List UInt8} {a : α} :
    Accepts limit (readBasic α) bs a rest ↔ bs = basicBytes a ++ rest := by
  rw [accepts_basic_iff]
  constructor
  · rintro ⟨w, hlen, rfl, rfl⟩
    rw [basicBytes_ofBasicBytes hlen]
  · rintro rfl
    exact ⟨basicBytes a, by simp, by simp, rfl⟩

theorem givesUp_basic_iff [BasicType α] {bs : List UInt8} :
    GivesUp limit (readBasic α) bs ↔ bs.length < BasicType.size α := by
  rw [readBasic, givesUp_bind_pure_iff, givesUp_take_iff]

theorem accepts_size_iff {bs rest : List UInt8} {n : ℕ} :
    Accepts limit readSize bs n rest ↔ n < 2 ^ 64 ∧ bs = sizeBytes n ++ rest := by
  simp only [readSize, accepts_bind_pure_iff, accepts_word_iff, sizeBytes]
  constructor
  · rintro ⟨size, rfl, rfl⟩
    exact ⟨size.toNat_lt, by rw [UInt64.ofNat_toNat]⟩
  · rintro ⟨hn, rfl⟩
    exact ⟨UInt64.ofNat n, rfl, UInt64.toNat_ofNat_of_lt' hn⟩

theorem givesUp_size_iff {bs : List UInt8} : GivesUp limit readSize bs ↔ bs.length < 8 := by
  rw [readSize, givesUp_bind_pure_iff, givesUp_basic_iff]
  rfl

/-- Readers that ask for nothing, one after the other. -/
theorem requests_bind_eq_nil {p : MeteredReader α} {f : α → MeteredReader β}
    (hp : ∀ bs, (p.run bs).1 = []) (hf : ∀ a bs, ((f a).run bs).1 = []) (bs : List UInt8) :
    ((p >>= f).run bs).1 = [] := by
  obtain ⟨requests, ending, hrun⟩ : ∃ requests ending, p.run bs = (requests, ending) :=
    ⟨_, _, rfl⟩
  obtain rfl : requests = [] := by simpa [hrun] using hp bs
  cases ending with
  | done a rest => rw [run_bind_of_done f hrun, hf, List.append_nil]
  | refused => rw [run_bind_of_refused f hrun]
  | panic => rw [run_bind_of_panic f hrun]

theorem requests_readSize (bs : List UInt8) : (readSize.run bs).1 = [] :=
  requests_bind_eq_nil (requests_bind_eq_nil (fun _ => rfl) fun _ _ => rfl) (fun _ _ => rfl) bs

theorem readSize_run {n : ℕ} (hn : n < 2 ^ 64) (rest : List UInt8) :
    readSize.run (sizeBytes n ++ rest) = ([], .done n rest) := by
  have haccepts : Accepts 0 readSize (sizeBytes n ++ rest) n rest := accepts_size_iff.mpr ⟨hn, rfl⟩
  exact Prod.ext (requests_readSize _) haccepts.1

theorem readSize_run_of_lt {bs : List UInt8} (h : bs.length < 8) :
    readSize.run bs = ([], .refused) := by
  have hgives : GivesUp 0 readSize bs := givesUp_size_iff.mpr h
  exact Prod.ext (requests_readSize _) hgives.1

/-- A request that comes first, where no memory within the limit is too much. -/
theorem accepts_allocate_bind_iff {count size : ℕ} {p : Unit → MeteredReader α}
    {bs rest : List UInt8} {a : α} (hlimit : limit ≤ maxCapacity) :
    Accepts limit (allocate count size >>= p) bs a rest ↔
      (count ≤ bs.length ∧ count * size ≤ limit) ∧ Accepts limit (p ()) bs a rest := by
  simp only [accepts_bind_iff, accepts_allocate_iff]
  constructor
  · rintro ⟨_, mid, ⟨hcount, -, rfl⟩, h⟩
    exact ⟨hcount, h⟩
  · rintro ⟨hcount, h⟩
    exact ⟨(), bs, ⟨hcount, hcount.2.trans hlimit, rfl⟩, h⟩

theorem givesUp_allocate_bind_iff {count size : ℕ} {p : Unit → MeteredReader α}
    {bs : List UInt8} (hlimit : limit ≤ maxCapacity) :
    GivesUp limit (allocate count size >>= p) bs ↔
      (count ≤ bs.length ∧ count * size ≤ limit) ∧ GivesUp limit (p ()) bs := by
  simp only [givesUp_bind_iff, accepts_allocate_iff]
  constructor
  · rintro (h | ⟨_, mid, ⟨hcount, -, rfl⟩, h⟩)
    · exact absurd h not_givesUp_allocate
    · exact ⟨hcount, h⟩
  · rintro ⟨hcount, h⟩
    exact Or.inr ⟨(), bs, ⟨hcount, hcount.2.trans hlimit, rfl⟩, h⟩

/-! ## Without the requests -/

section Erases

open ByteFeed (feed run_take)

variable [ByteFeed σ]

/-- Where `p` does not panic, `q` gives the same. -/
def Erases (p : MeteredReader α) (q : Reader σ α) : Prop :=
  ∀ bs, (∀ a rest, (p.run bs).2 = .done a rest → q.run (feed bs) = (some a, feed rest)) ∧
    ((p.run bs).2 = .refused → (q.run (feed bs)).1 = none)

theorem Erases.pure (a : α) : Erases (Pure.pure a) (Pure.pure a : Reader σ α) := by
  intro bs
  constructor
  · rintro b rest hend
    cases (hend : ReaderEnd.done a bs = .done b rest)
    rfl
  · intro hend
    cases hend

theorem Erases.ofOption (o : Option α) :
    Erases (ofOption o) (Reader.ofOption o : Reader σ α) := by
  cases o with
  | some a => exact .pure a
  | none => exact fun bs => ⟨fun a rest hend => (by cases hend), fun _ => rfl⟩

theorem Erases.fail : Erases fail (Reader.fail : Reader σ α) :=
  .ofOption none

theorem Erases.bind {p : MeteredReader α} {f : α → MeteredReader β} {q : Reader σ α}
    {g : α → Reader σ β} (hp : Erases p q) (hf : ∀ a, Erases (f a) (g a)) :
    Erases (p >>= f) (q >>= g) := by
  intro bs
  obtain ⟨hdone, hrefused⟩ := hp bs
  obtain ⟨requests, ending, hrun⟩ : ∃ requests ending, p.run bs = (requests, ending) :=
    ⟨_, _, rfl⟩
  rw [hrun] at hdone hrefused
  cases ending with
  | done a mid =>
    rw [run_bind_of_done f hrun, Reader.run_bind_of_some (hdone a mid rfl)]
    exact hf a mid
  | refused =>
    rw [run_bind_of_refused f hrun]
    exact ⟨fun b rest hend => (by cases hend), fun _ => Reader.run_bind_of_none (hrefused rfl)⟩
  | panic =>
    rw [run_bind_of_panic f hrun]
    exact ⟨fun b rest hend => (by cases hend), fun hend => (by cases hend)⟩

theorem Erases.allocate_bind (count size : ℕ) {p : Unit → MeteredReader α} {q : Reader σ α}
    (h : Erases (p ()) q) : Erases (allocate count size >>= p) q := by
  intro bs
  by_cases hcap : count * size ≤ maxCapacity
  · rw [run_bind_of_done p (allocate_run_of_le hcap bs)]
    exact h bs
  · rw [run_bind_of_panic p (allocate_run_of_lt hcap bs)]
    exact ⟨fun a rest hend => (by cases hend), fun hend => (by cases hend)⟩

theorem Erases.take [ExactFeed σ] (n : ℕ) : Erases (take n) (ByteFeed.take n : Reader σ _) := by
  intro bs
  rw [MeteredReader.take]
  dsimp only
  split
  · next hn =>
    refine ⟨fun w rest hend => ?_, fun hend => by cases hend⟩
    cases hend
    have hread := run_take (σ := σ) (bs.take n) (bs.drop n)
    rwa [List.take_append_drop, List.length_take_of_le hn] at hread
  · next hn =>
    refine ⟨fun w rest hend => (by cases hend), fun _ => ?_⟩
    obtain ⟨o, s, hrun⟩ : ∃ o s, (ByteFeed.take n : Reader σ _).run (feed bs) = (o, s) :=
      ⟨_, _, rfl⟩
    cases o with
    | none => rw [hrun]
    | some w =>
      obtain ⟨hlen, rest, hbs, -⟩ := ExactFeed.take_exact n bs w s hrun
      rw [hbs, List.length_append] at hn
      omega

theorem Erases.readBasic [ExactFeed σ] (α : Type) [BasicType α] :
    Erases (readBasic α) (DataShare.readBasic σ α) :=
  (Erases.take _).bind fun _ => .pure _

theorem Erases.readSize [ExactFeed σ] : Erases readSize (DataShare.readSize σ) :=
  (Erases.readBasic UInt64).bind fun _ => .pure _

theorem Erases.readN {p : MeteredReader α} {q : Reader σ α} (h : Erases p q) :
    ∀ n, Erases (p.readN n) (q.readN n)
  | 0 => .pure []
  | n + 1 => h.bind fun _ => (Erases.readN h n).bind fun _ => .pure _

/-- The words of `q` are those that `p` accepts. -/
theorem Erases.spelled {p : MeteredReader α} {q : Reader σ α} (h : Erases p q)
    {L : α → List UInt8 → Prop} (hwords : Spells q L)
    (hfeed : Function.Injective (feed : List UInt8 → σ)) {bs rest : List UInt8} {a : α}
    (haccepts : Accepts limit p bs a rest) : ∃ w, L a w ∧ bs = w ++ rest := by
  obtain ⟨w, rest', hw, hbs, hrest⟩ := hwords bs a _ ((h bs).1 a rest haccepts.1)
  rw [hfeed hrest]
  exact ⟨w, hw, hbs⟩

theorem Erases.collect {p : MeteredReader α} {q : Reader σ α} (h : Erases p q) :
    ∀ (n : ℕ) (bs : List UInt8) (as : List α), (p.collect n bs).2 = some as →
      q.collect n (feed bs) = as
  | 0, _, _, has => Option.some.inj has
  | n + 1, bs, as, has => by
    obtain ⟨hdone, hrefused⟩ := h bs
    obtain ⟨requests, ending, hrun⟩ : ∃ requests ending, p.run bs = (requests, ending) :=
      ⟨_, _, rfl⟩
    rw [hrun] at hdone hrefused
    cases ending with
    | done a mid =>
      rw [collect_succ_of_done n hrun] at has
      obtain ⟨as', has', rfl⟩ := Option.map_eq_some_iff.mp has
      rw [Reader.collect_succ_of_some (hdone a mid rfl), Erases.collect h n mid as' has']
    | refused =>
      rw [collect_succ_of_refused n hrun] at has
      cases has
      have hnone : q.run (feed bs) = (none, (q.run (feed bs)).2) := Prod.ext (hrefused rfl) rfl
      exact Reader.collect_succ_of_none hnone
    | panic =>
      rw [collect_succ_of_panic n hrun] at has
      cases has

end Erases

end MeteredReader

end DataShare
