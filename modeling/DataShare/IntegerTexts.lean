import Mathlib.Data.List.TakeWhile
import Mathlib.Tactic.Ring

/-!
# Integers as texts

Two readers of a 64-bit integer. `decimal` takes a sign and decimal digits, and nothing else.
`strtoll` with base 0 skips blanks, takes a sign, finds the base by a prefix, takes the digits it
finds in that base, ignores the rest, and saturates.

`strtoll_eq_number_iff` says when both give the same : where the text is a decimal integer that
fits, if no prefix changes what its digits stand for (`KeepsBase`), and else if `strtoll` finds
no digit but zeros (`FindsZeros`).

`strtoul` with base 10 reads decimal digits in the same way, and takes a negative integer modulo
`2 ^ 64`. `strtoul_eq_iff` : it reads all of a text exactly if the text is a decimal integer behind
blanks.
-/

namespace DataShare

/-! ## Digits -/

def digitOf (c : UInt8) : Option ℕ :=
  if 48 ≤ c ∧ c ≤ 57 then some (c.toNat - 48)
  else if 97 ≤ c ∧ c ≤ 122 then some (c.toNat - 87)
  else if 65 ≤ c ∧ c ≤ 90 then some (c.toNat - 55)
  else none

def isDigitIn (base : ℕ) (c : UInt8) : Bool :=
  (digitOf c).any (· < base)

def digit (c : UInt8) : ℕ :=
  (digitOf c).getD 0

/-- The number that digits stand for. -/
def numeral (base : ℕ) (ds : List UInt8) : ℕ :=
  ds.foldl (fun n c => base * n + digit c) 0

theorem numeral_append (base : ℕ) (ds es : List UInt8) :
    numeral base (ds ++ es) = numeral base ds * base ^ es.length + numeral base es := by
  have hfold : ∀ (es : List UInt8) (n : ℕ), es.foldl (fun n c => base * n + digit c) n =
      n * base ^ es.length + numeral base es := by
    intro es
    induction es with
    | nil => simp [numeral]
    | cons c es ih =>
      intro n
      have hcons : numeral base (c :: es) = digit c * base ^ es.length + numeral base es := by
        rw [numeral, List.foldl_cons, ih, Nat.mul_zero, Nat.zero_add]
      rw [List.foldl_cons, ih, hcons, List.length_cons]
      ring
  rw [numeral, List.foldl_append, hfold]
  rfl

theorem numeral_cons (base : ℕ) (c : UInt8) (ds : List UInt8) :
    numeral base (c :: ds) = digit c * base ^ ds.length + numeral base ds := by
  rw [← List.singleton_append, numeral_append]
  simp [numeral]

theorem numeral_eq_zero_iff {base : ℕ} (hbase : 0 < base) (ds : List UInt8) :
    numeral base ds = 0 ↔ ∀ c ∈ ds, digit c = 0 := by
  induction ds with
  | nil => simp [numeral]
  | cons c ds ih =>
    have hpow : base ^ ds.length ≠ 0 := (Nat.pow_pos hbase).ne'
    rw [numeral_cons, Nat.add_eq_zero_iff, ih, Nat.mul_eq_zero, or_iff_left hpow]
    simp

theorem numeral_le_numeral {base base' : ℕ} (h : base ≤ base') (ds : List UInt8) :
    numeral base ds ≤ numeral base' ds := by
  induction ds with
  | nil => exact le_rfl
  | cons c ds ih =>
    rw [numeral_cons, numeral_cons]
    exact Nat.add_le_add (Nat.mul_le_mul_left _ (Nat.pow_le_pow_left h _)) ih

theorem digitOf_eq_some_zero_iff {c : UInt8} : digitOf c = some 0 ↔ c = 48 := by
  rw [← UInt8.toNat_inj]
  simp only [digitOf, UInt8.le_iff_toNat_le, UInt8.reduceToNat]
  split
  · rw [Option.some.injEq]
    omega
  split
  · rw [Option.some.injEq]
    omega
  split
  · rw [Option.some.injEq]
    omega
  · constructor
    · exact fun h => by cases h
    · omega

/-- Of the digits only `0` is zero. -/
theorem digit_eq_zero_iff {base : ℕ} {c : UInt8} (h : isDigitIn base c = true) :
    digit c = 0 ↔ c = 48 := by
  obtain ⟨d, hd, -⟩ := (Option.any_eq_true _ _).mp h
  rw [← digitOf_eq_some_zero_iff, digit, hd, Option.getD_some, Option.some.injEq]

theorem isDigitIn_mono {base base' : ℕ} (h : base ≤ base') {c : UInt8}
    (hc : isDigitIn base c = true) : isDigitIn base' c = true := by
  obtain ⟨d, hd, hlt⟩ := (Option.any_eq_true _ _).mp hc
  refine (Option.any_eq_true _ _).mpr ⟨d, hd, ?_⟩
  rw [decide_eq_true_eq] at hlt ⊢
  exact hlt.trans_le h

theorem isDigitIn_ten_iff {c : UInt8} : isDigitIn 10 c = true ↔ 48 ≤ c.toNat ∧ c.toNat ≤ 57 := by
  simp only [isDigitIn, digitOf, UInt8.le_iff_toNat_le, UInt8.reduceToNat]
  split
  · simp only [Option.any_some, decide_eq_true_eq]
    omega
  split
  · simp only [Option.any_some, decide_eq_true_eq]
    omega
  split
  · simp only [Option.any_some, decide_eq_true_eq]
    omega
  · simp only [Option.any_none]
    constructor
    · exact fun h => by cases h
    · omega

/-! ## Both readers -/

/-- If there is a minus, and what follows the sign. -/
def takeSign : List UInt8 → Bool × List UInt8
  | 45 :: s => (true, s)
  | 43 :: s => (false, s)
  | s => (false, s)

def signed (negative : Bool) (n : ℕ) : ℤ :=
  if negative then -n else n

/-- An integer that a `long long` can be. -/
def InRange (v : ℤ) : Prop :=
  -2 ^ 63 ≤ v ∧ v < 2 ^ 63

instance (v : ℤ) : Decidable (InRange v) :=
  inferInstanceAs (Decidable (_ ∧ _))

/-- The integer that a text of a sign, or none, and decimal digits stands for. -/
def decimal (s : List UInt8) : Option ℤ :=
  if (takeSign s).2 ≠ [] ∧ (takeSign s).2.all (isDigitIn 10) then
    some (signed (takeSign s).1 (numeral 10 (takeSign s).2))
  else none

/-- The text is a decimal integer that fits. -/
def IsLong (s : List UInt8) : Prop :=
  ∃ v, decimal s = some v ∧ InRange v

/-- The decimal integer that a text is, or 0. -/
def number (s : List UInt8) : ℤ :=
  ((decimal s).filter fun v => decide (InRange v)).getD 0

/-- `isspace`. -/
def isBlank (c : UInt8) : Bool :=
  c == 32 || (9 ≤ c && c ≤ 13)

/-- The base by the prefix, and the text without `0x`. -/
def takeBase : List UInt8 → ℕ × List UInt8
  | 48 :: x :: c :: s =>
    if (x = 120 ∨ x = 88) ∧ isDigitIn 16 c then (16, c :: s) else (8, 48 :: x :: c :: s)
  | 48 :: s => (8, 48 :: s)
  | s => (10, s)

def saturate (v : ℤ) : Int64 :=
  if v < -2 ^ 63 then .ofInt (-2 ^ 63)
  else if 2 ^ 63 ≤ v then .ofInt (2 ^ 63 - 1)
  else .ofInt v

/-- The sign, and what follows the blanks and it. -/
def afterSign (s : List UInt8) : Bool × List UInt8 :=
  takeSign (s.dropWhile isBlank)

/-- The base, and the digits in it. -/
def digitsFound (s : List UInt8) : ℕ × List UInt8 :=
  ((takeBase s).1, (takeBase s).2.takeWhile (isDigitIn (takeBase s).1))

/-- `strtoll` with base 0. -/
def strtoll (s : List UInt8) : Int64 :=
  saturate (signed (afterSign s).1
    (numeral (digitsFound (afterSign s).2).1 (digitsFound (afterSign s).2).2))

/-! ## Where they agree -/

/-- No digit is found but zeros. -/
def FindsZeros (s : List UInt8) : Prop :=
  ∀ c ∈ (digitsFound (afterSign s).2).2, c = 48

/-- There is no leading zero, or one octal digit after zeros. -/
def KeepsBase (ds : List UInt8) : Prop :=
  ds.head? ≠ some 48 ∨ ∃ n c, isDigitIn 8 c = true ∧ ds = List.replicate n 48 ++ [c]

def SameNumber (s : List UInt8) : Prop :=
  (IsLong s → KeepsBase (takeSign s).2) ∧ (¬IsLong s → FindsZeros s)

theorem number_of_decimal {s : List UInt8} {v : ℤ} (h : decimal s = some v) (hv : InRange v) :
    number s = v := by
  rw [number, h, Option.filter_some, if_pos (decide_eq_true hv), Option.getD_some]

theorem number_of_not_isLong {s : List UInt8} (h : ¬IsLong s) : number s = 0 := by
  rw [number]
  cases hd : decimal s with
  | none => rfl
  | some v =>
    have hv : ¬InRange v := fun hv => h ⟨v, hd, hv⟩
    rw [Option.filter_some, if_neg (by simpa using hv), Option.getD_none]

theorem toInt_saturate {v : ℤ} (h : InRange v) : (saturate v).toInt = v := by
  obtain ⟨hge, hlt⟩ := h
  rw [saturate, if_neg (not_lt.mpr hge), if_neg (not_le.mpr hlt), Int64.toInt_ofInt]
  have hsize : (Int64.size : ℤ) = 2 ^ 64 := rfl
  exact Int.bmod_eq_of_le (by omega) (by omega)

theorem toInt_saturate_eq_zero_iff {v : ℤ} : (saturate v).toInt = 0 ↔ v = 0 := by
  by_cases h : InRange v
  · rw [toInt_saturate h]
  · have hv : v ≠ 0 := by
      rintro rfl
      exact h (by decide)
    refine iff_of_false ?_ hv
    rw [saturate]
    split
    · decide
    split
    · decide
    · rename_i hge hlt
      exact absurd ⟨not_lt.mp hge, not_le.mp hlt⟩ h

theorem signed_inj {negative : Bool} {n n' : ℕ} : signed negative n = signed negative n' ↔ n = n' := by
  cases negative <;> simp [signed]

theorem takeSign_cons (c : UInt8) (s : List UInt8) :
    takeSign (c :: s) = if c = 45 then (true, s) else if c = 43 then (false, s) else (false, c :: s) := by
  by_cases hminus : c = 45
  · subst hminus
    rfl
  by_cases hplus : c = 43
  · subst hplus
    rfl
  rw [if_neg hminus, if_neg hplus, takeSign.eq_def]
  split
  · rename_i heq
    exact absurd (List.cons.inj heq).1 hminus
  · rename_i heq
    exact absurd (List.cons.inj heq).1 hplus
  · rfl

/-- What `decimal` takes has a sign, if any, and digits. -/
theorem decimal_eq_some_iff {s : List UInt8} {v : ℤ} : decimal s = some v ↔
    ((takeSign s).2 ≠ [] ∧ ∀ c ∈ (takeSign s).2, isDigitIn 10 c = true) ∧
      signed (takeSign s).1 (numeral 10 (takeSign s).2) = v := by
  unfold decimal
  split
  · rename_i h
    rw [Option.some.injEq, ← List.all_eq_true, iff_and_self]
    exact fun _ => h
  · rename_i h
    rw [← List.all_eq_true]
    exact iff_of_false (fun hv => by cases hv) fun hv => h hv.1

theorem not_isBlank_of_isDigit {c : UInt8} (h : isDigitIn 10 c = true) : isBlank c = false := by
  have hc := isDigitIn_ten_iff.mp h
  rw [isBlank, Bool.or_eq_false_iff, beq_eq_false_iff_ne, ← UInt8.toNat_inj.ne,
    Bool.and_eq_false_iff, decide_eq_false_iff_not, decide_eq_false_iff_not,
    UInt8.le_iff_toNat_le, UInt8.le_iff_toNat_le]
  simp only [UInt8.reduceToNat]
  omega

/-- A decimal integer has no blanks in front. -/
theorem afterSign_of_decimal {s : List UInt8} {v : ℤ} (h : decimal s = some v) :
    afterSign s = takeSign s := by
  obtain ⟨⟨hne, hall⟩, -⟩ := decimal_eq_some_iff.mp h
  cases s with
  | nil => rfl
  | cons c s =>
    rw [afterSign, List.dropWhile_cons_of_neg]
    rw [takeSign_cons] at hall
    split at hall
    · rename_i hc
      subst hc
      decide
    split at hall
    · rename_i hc
      subst hc
      decide
    · rw [not_isBlank_of_isDigit (hall c List.mem_cons_self)]
      exact Bool.false_ne_true

theorem takeBase_of_decimal {ds : List UInt8} (h : ∀ c ∈ ds, isDigitIn 10 c = true) :
    takeBase ds = (if ds.head? = some 48 then 8 else 10, ds) := by
  rcases ds with _ | ⟨z, ds⟩
  · rfl
  by_cases hz : z = 48
  swap
  · rw [List.head?_cons, if_neg (mt Option.some.inj hz), takeBase.eq_def]
    split
    · rename_i heq
      exact absurd (List.cons.inj heq).1 hz
    · rename_i heq
      exact absurd (List.cons.inj heq).1 hz
    · rfl
  subst hz
  rw [List.head?_cons, if_pos rfl]
  rcases ds with _ | ⟨x, _ | ⟨c, ds⟩⟩
  · rfl
  · rfl
  have hx := isDigitIn_ten_iff.mp (h x (by simp))
  have hne : ¬((x = 120 ∨ x = 88) ∧ isDigitIn 16 c = true) := by
    rintro ⟨rfl | rfl, -⟩
    · exact absurd hx (by decide)
    · exact absurd hx (by decide)
  exact if_neg hne

theorem numeral_replicate_append (base n : ℕ) (c : UInt8) :
    numeral base (List.replicate n 48 ++ [c]) = digit c := by
  have hzero : numeral base (List.replicate n 48) = 0 := by
    induction n with
    | zero => rfl
    | succ n ih =>
      rw [List.replicate_succ, numeral_cons, ih]
      simp [digit, digitOf]
  rw [numeral_append, hzero]
  simp [numeral]

/-- Digits in base 8 stand for less than in base 10, if there is more than one after the zeros. -/
theorem numeral_octal_lt : ∀ {ds : List UInt8}, ds ≠ [] → (∀ c ∈ ds, isDigitIn 10 c = true) →
    (¬∃ n c, isDigitIn 8 c = true ∧ ds = List.replicate n 48 ++ [c]) →
      numeral 8 (ds.takeWhile (isDigitIn 8)) < numeral 10 ds
  | c :: ds, _, hall, hmore => by
    have hds : ∀ c ∈ ds, isDigitIn 10 c = true := fun c hc => hall c (List.mem_cons_of_mem _ hc)
    have hc := hall c List.mem_cons_self
    by_cases hoct : isDigitIn 8 c = true
    swap
    · -- nothing is taken, and the first digit is no zero
      rw [List.takeWhile_cons_of_neg hoct]
      refine Nat.pos_of_ne_zero fun hzero => ?_
      rw [numeral_eq_zero_iff (by decide)] at hzero
      obtain rfl := (digit_eq_zero_iff hc).mp (hzero c List.mem_cons_self)
      exact hoct (by decide)
    have hrest : ds ≠ [] := by
      rintro rfl
      exact hmore ⟨0, c, hoct, rfl⟩
    rw [List.takeWhile_cons_of_pos hoct, numeral_cons, numeral_cons]
    by_cases hzero : c = 48
    · subst hzero
      have ih := numeral_octal_lt hrest hds fun ⟨n, c, hc, hn⟩ =>
        hmore ⟨n + 1, c, hc, by rw [hn, List.replicate_succ, List.cons_append]⟩
      have hdigit : digit 48 = 0 := by decide
      rwa [hdigit, Nat.zero_mul, Nat.zero_mul, Nat.zero_add, Nat.zero_add]
    · have hpos : 0 < digit c := Nat.pos_of_ne_zero fun h => hzero ((digit_eq_zero_iff hc).mp h)
      have htaken : numeral 8 (ds.takeWhile (isDigitIn 8)) ≤ numeral 10 ds := by
        refine (numeral_le_numeral (by decide : 8 ≤ 10) _).trans ?_
        nth_rewrite 2 [← List.takeWhile_append_dropWhile (p := isDigitIn 8) (l := ds)]
        rw [numeral_append]
        exact (Nat.le_mul_of_pos_right _ (Nat.pow_pos (by decide))).trans (Nat.le_add_right _ _)
      have hpow : 8 ^ (ds.takeWhile (isDigitIn 8)).length < 10 ^ ds.length := by
        refine (Nat.pow_le_pow_right (by decide) (List.takeWhile_prefix _).length_le).trans_lt ?_
        exact Nat.pow_lt_pow_left (by decide) (mt List.length_eq_zero_iff.mp hrest)
      exact Nat.add_lt_add_of_lt_of_le (Nat.mul_lt_mul_of_pos_left hpow hpos) htaken

theorem takeWhile_eq_self_of_base {base : ℕ} (hbase : 10 ≤ base) {ds : List UInt8}
    (h : ∀ c ∈ ds, isDigitIn 10 c = true) : ds.takeWhile (isDigitIn base) = ds :=
  List.takeWhile_eq_self_iff.mpr fun c hc => isDigitIn_mono hbase (h c hc)

/-- The digits of a decimal integer stand for the same in the base that `strtoll` finds exactly
if the base is kept. -/
theorem numeral_found_eq_iff {ds : List UInt8} (hne : ds ≠ [])
    (h : ∀ c ∈ ds, isDigitIn 10 c = true) :
    numeral (digitsFound ds).1 (digitsFound ds).2 = numeral 10 ds ↔ KeepsBase ds := by
  rw [digitsFound, takeBase_of_decimal h, KeepsBase]
  by_cases hhead : ds.head? = some 48
  · rw [if_pos hhead]
    constructor
    · intro heq
      by_contra hkeeps
      exact absurd heq (numeral_octal_lt hne h fun hone => hkeeps (Or.inr hone)).ne
    · rintro (hno | ⟨n, c, hc, rfl⟩)
      · exact absurd hhead hno
      · have htake : (List.replicate n 48 ++ [c]).takeWhile (isDigitIn 8) =
            List.replicate n 48 ++ [c] := by
          refine List.takeWhile_eq_self_iff.mpr fun c' hc' => ?_
          rcases List.mem_append.mp hc' with hmem | hmem
          · rw [List.eq_of_mem_replicate hmem]
            decide
          · rwa [List.mem_singleton.mp hmem]
        rw [htake, numeral_replicate_append, numeral_replicate_append]
  · rw [if_neg hhead, takeWhile_eq_self_of_base le_rfl h]
    exact iff_of_true rfl (Or.inl hhead)

theorem numeral_found_le {ds : List UInt8} (h : ∀ c ∈ ds, isDigitIn 10 c = true) :
    numeral (digitsFound ds).1 (digitsFound ds).2 ≤ numeral 10 ds := by
  by_cases hne : ds = []
  · subst hne
    exact le_rfl
  by_cases hkeeps : KeepsBase ds
  · exact ((numeral_found_eq_iff hne h).mpr hkeeps).le
  · rw [digitsFound, takeBase_of_decimal h]
    have hhead : ds.head? = some 48 := by
      by_contra hhead
      exact hkeeps (Or.inl hhead)
    rw [if_pos hhead]
    exact (numeral_octal_lt hne h fun hone => hkeeps (Or.inr hone)).le

theorem base_pos (s : List UInt8) : 0 < (digitsFound s).1 := by
  have hpos : ∀ {n : ℕ}, n = 16 ∨ n = 8 ∨ n = 10 → 0 < n := by omega
  refine hpos ?_
  rw [digitsFound, takeBase.eq_def]
  split
  · split <;> simp
  · simp
  · simp

theorem strtoll_eq_zero_iff (s : List UInt8) : (strtoll s).toInt = 0 ↔ FindsZeros s := by
  have hsigned : ∀ {b n}, signed b n = 0 ↔ n = 0 := by
    intro b n
    cases b <;> simp [signed]
  rw [strtoll, toInt_saturate_eq_zero_iff, hsigned, numeral_eq_zero_iff (base_pos _)]
  exact forall₂_congr fun c hc => digit_eq_zero_iff (List.mem_takeWhile_imp hc)

theorem strtoll_eq_number_iff (s : List UInt8) : (strtoll s).toInt = number s ↔ SameNumber s := by
  by_cases h : IsLong s
  · obtain ⟨v, hv, hrange⟩ := h
    have hlong : IsLong s := ⟨v, hv, hrange⟩
    obtain ⟨⟨hne, hall⟩, hsigned⟩ := decimal_eq_some_iff.mp hv
    rw [number_of_decimal hv hrange, SameNumber, imp_iff_right hlong,
      and_iff_left (fun hno => absurd hlong hno), strtoll, afterSign_of_decimal hv,
      ← numeral_found_eq_iff hne hall, ← @signed_inj (takeSign s).1, hsigned]
    have hle := numeral_found_le hall
    have hfound : InRange (signed (takeSign s).1
        (numeral (digitsFound (takeSign s).2).1 (digitsFound (takeSign s).2).2)) := by
      rw [← hsigned] at hrange
      cases hsign : (takeSign s).1 with
      | false =>
        rw [hsign] at hrange
        simp only [InRange, signed, Bool.false_eq_true, if_false] at hrange ⊢
        omega
      | true =>
        rw [hsign] at hrange
        simp only [InRange, signed, if_true] at hrange ⊢
        omega
    rw [toInt_saturate hfound]
  · rw [number_of_not_isLong h, strtoll_eq_zero_iff, SameNumber, imp_iff_right h,
      and_iff_right (fun hlong => absurd hlong h)]

/-! ## The unsigned reader -/

/-- `strtoul` with base 10 : the value, whether it is out of range, and what follows the digits.
Where there is no digit nothing is read. -/
def strtoul (s : List UInt8) : UInt64 × Bool × List UInt8 :=
  let digits := (afterSign s).2.takeWhile (isDigitIn 10)
  let rest := (afterSign s).2.dropWhile (isDigitIn 10)
  if digits = [] then (0, false, s)
  else if 2 ^ 64 ≤ numeral 10 digits then (.ofInt (2 ^ 64 - 1), true, rest)
  else (.ofInt (signed (afterSign s).1 (numeral 10 digits)), false, rest)

theorem natAbs_signed (negative : Bool) (n : ℕ) : (signed negative n).natAbs = n := by
  cases negative <;> simp [signed]

theorem afterSign_of_blank {sp num : List UInt8} (hsp : ∀ c ∈ sp, isBlank c = true) {v : ℤ}
    (h : decimal num = some v) : afterSign (sp ++ num) = takeSign num := by
  rw [afterSign, List.dropWhile_append_of_pos hsp]
  exact afterSign_of_decimal h

/-- The text is read as a whole, with a value in range. -/
theorem strtoul_eq_iff {s : List UInt8} (hs : s ≠ []) {n : UInt64} :
    strtoul s = (n, false, []) ↔ ∃ sp num v, s = sp ++ num ∧ (∀ c ∈ sp, isBlank c = true) ∧
      decimal num = some v ∧ v.natAbs < 2 ^ 64 ∧ n = .ofInt v := by
  constructor
  · intro h
    unfold strtoul at h
    dsimp only at h
    split at h
    · exact absurd (congrArg (·.2.2) h) hs
    rename_i hdigits
    split at h
    · cases congrArg (·.2.1) h
    rename_i hrange
    have hrest : (afterSign s).2.dropWhile (isDigitIn 10) = [] := congrArg (·.2.2) h
    have hall : ∀ c ∈ (afterSign s).2, isDigitIn 10 c = true := List.dropWhile_eq_nil_iff.mp hrest
    rw [takeWhile_eq_self_of_base le_rfl hall] at h hdigits hrange
    have hnum : decimal (s.dropWhile isBlank) =
        some (signed (afterSign s).1 (numeral 10 (afterSign s).2)) :=
      decimal_eq_some_iff.mpr ⟨⟨hdigits, hall⟩, rfl⟩
    exact ⟨s.takeWhile isBlank, s.dropWhile isBlank, _, List.takeWhile_append_dropWhile.symm,
      fun c hc => List.mem_takeWhile_imp hc, hnum, by rw [natAbs_signed]; omega,
      (congrArg (·.1) h).symm⟩
  · rintro ⟨sp, num, v, rfl, hsp, hnum, hrange, rfl⟩
    obtain ⟨⟨hne, hall⟩, hv⟩ := decimal_eq_some_iff.mp hnum
    rw [← hv, natAbs_signed] at hrange
    unfold strtoul
    dsimp only
    rw [afterSign_of_blank hsp hnum, takeWhile_eq_self_of_base le_rfl hall,
      List.dropWhile_eq_nil_iff.mpr hall, if_neg hne, if_neg (by omega), hv]

end DataShare
