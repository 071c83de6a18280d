import DataShare.JsonTexts

/-!
# Positions in a text

The positions of a `str` count bytes, and `find` gives the position of a character. A slice takes
the characters between two positions, and panics at a position inside of a character
(`dropBytes_eq_ok_iff`). What is found is no such position.

An ASCII character stands in the bytes of a text where it stands in the text
(`takeWhile_encode`), so C++ finds it there too.
-/

namespace DataShare

namespace Rust

open Json (encode encode_cons encode_append encode_eq_nil dropBytes exists_utf8EncodeChar
  toNat_ascii)

/-! ## Slices -/

/-- `str::len`. -/
def size (cs : List Char) : ℕ :=
  (encode cs).length

/-- The characters of `&s[..i]`. -/
def takeBytes : List Char → ℕ → Outcome (List Char)
  | _, 0 => .ok []
  | [], _ + 1 => .panic
  | c :: cs, i + 1 =>
    if c.utf8Size ≤ i + 1 then do
      let taken ← takeBytes cs (i + 1 - c.utf8Size)
      pure (c :: taken)
    else .panic

/-- The characters of `&s[start..stop]`. -/
def sliceBytes (cs : List Char) (start stop : ℕ) : Outcome (List Char) :=
  if start ≤ stop then do
    takeBytes (← dropBytes cs start) (stop - start)
  else .panic

/-- `str::find` of a character. -/
def find (d : Char) : List Char → Option ℕ
  | [] => none
  | c :: cs => if c = d then some 0 else (find d cs).map (c.utf8Size + ·)

/-- `str::rfind` of a character. -/
def rfind (d : Char) : List Char → Option ℕ
  | [] => none
  | c :: cs =>
    match rfind d cs with
    | some i => some (c.utf8Size + i)
    | none => if c = d then some 0 else none

@[simp] theorem size_nil : size [] = 0 :=
  rfl

@[simp] theorem size_cons (c : Char) (cs : List Char) : size (c :: cs) = c.utf8Size + size cs := by
  rw [size, encode_cons, List.length_append, String.length_utf8EncodeChar, size]

@[simp] theorem size_append (cs cs' : List Char) : size (cs ++ cs') = size cs + size cs' := by
  rw [size, encode_append, List.length_append, size, size]

theorem dropBytes_append (cs cs' : List Char) : dropBytes (cs ++ cs') (size cs) = .ok cs' := by
  induction cs with
  | nil => cases cs' <;> rfl
  | cons c cs ih =>
    obtain ⟨i, hi⟩ := Nat.exists_eq_succ_of_ne_zero (n := size (c :: cs)) (by
      have hpos := c.utf8Size_pos
      rw [size_cons]
      omega)
    have hsub : i + 1 - c.utf8Size = size cs := by
      rw [size_cons] at hi
      omega
    have hle : c.utf8Size ≤ i + 1 := by
      rw [size_cons] at hi
      omega
    rw [hi, List.cons_append, dropBytes, if_pos hle, hsub, ih]

/-- A slice up to the end is there exactly if it begins with a character. -/
theorem dropBytes_eq_ok_iff : ∀ {cs rest : List Char} {i : ℕ},
    dropBytes cs i = .ok rest ↔ ∃ taken, cs = taken ++ rest ∧ size taken = i
  | cs, rest, 0 => by
    have hzero : dropBytes cs 0 = .ok cs := by cases cs <;> rfl
    rw [hzero, Outcome.ok.injEq]
    constructor
    · rintro rfl
      exact ⟨[], rfl, rfl⟩
    · rintro ⟨taken, rfl, hsize⟩
      obtain rfl : taken = [] := encode_eq_nil.mp (List.length_eq_zero_iff.mp hsize)
      rfl
  | [], rest, i + 1 => by
    refine iff_of_false (fun h => by cases h) ?_
    rintro ⟨taken, h, hsize⟩
    rw [(List.append_eq_nil_iff.mp h.symm).1] at hsize
    cases hsize
  | c :: cs, rest, i + 1 => by
    have hcons (taken : List Char) : c :: cs = taken ++ rest ∧ size taken = i + 1 ↔
        ∃ taken', taken = c :: taken' ∧ cs = taken' ++ rest ∧ c.utf8Size + size taken' = i + 1 := by
      cases taken with
      | nil => simp
      | cons d taken => simp [and_assoc, eq_comm (a := c)]; grind
    simp only [hcons]
    rw [dropBytes]
    split
    · next hle =>
      rw [dropBytes_eq_ok_iff]
      constructor
      · rintro ⟨taken, rfl, hsize⟩
        exact ⟨c :: taken, taken, rfl, rfl, by omega⟩
      · rintro ⟨_, taken, -, rfl, hsize⟩
        exact ⟨taken, rfl, by omega⟩
    · next hlt =>
      refine iff_of_false (fun h => by cases h) ?_
      rintro ⟨_, taken, -, -, hsize⟩
      omega

theorem takeBytes_append (cs cs' : List Char) : takeBytes (cs ++ cs') (size cs) = .ok cs := by
  induction cs with
  | nil => cases cs' <;> rfl
  | cons c cs ih =>
    obtain ⟨i, hi⟩ := Nat.exists_eq_succ_of_ne_zero (n := size (c :: cs)) (by
      have hpos := c.utf8Size_pos
      rw [size_cons]
      omega)
    have hsub : i + 1 - c.utf8Size = size cs := by
      rw [size_cons] at hi
      omega
    have hle : c.utf8Size ≤ i + 1 := by
      rw [size_cons] at hi
      omega
    rw [hi, List.cons_append, takeBytes, if_pos hle, hsub, ih]
    rfl

theorem sliceBytes_append (before mid after : List Char) :
    sliceBytes (before ++ (mid ++ after)) (size before) (size before + size mid) = .ok mid := by
  rw [sliceBytes, if_pos (Nat.le_add_right _ _), dropBytes_append, Nat.add_sub_cancel_left]
  exact takeBytes_append mid after

/-! ## Characters that are found -/

theorem takeWhile_append_self {α : Type} [DecidableEq α] {d : α} {before : List α} (h : d ∉ before)
    (after : List α) : (before ++ d :: after).takeWhile (· ≠ d) = before := by
  rw [List.takeWhile_append_of_pos]
  · simp
  · intro c hc
    rw [decide_eq_true_eq]
    rintro rfl
    exact h hc

theorem dropWhile_append_self {α : Type} [DecidableEq α] {d : α} {before : List α} (h : d ∉ before)
    (after : List α) : (before ++ d :: after).dropWhile (· ≠ d) = d :: after := by
  rw [List.dropWhile_append_of_pos]
  · simp
  · intro c hc
    rw [decide_eq_true_eq]
    rintro rfl
    exact h hc

theorem find_eq (d : Char) (cs : List Char) :
    find d cs = if d ∈ cs then some (size (cs.takeWhile (· ≠ d))) else none := by
  induction cs with
  | nil => rfl
  | cons c cs ih =>
    rw [find, ih]
    by_cases hc : c = d
    · simp [hc]
    · have hd : d ≠ c := fun h => hc h.symm
      by_cases hmem : d ∈ cs <;> simp [hc, hd, hmem]

theorem find_append {d : Char} {before : List Char} (h : d ∉ before) (after : List Char) :
    find d (before ++ d :: after) = some (size before) := by
  rw [find_eq, if_pos (by simp), takeWhile_append_self h]

theorem rfind_append (before : List Char) {after : List Char} {d : Char} (h : d ∉ after) :
    rfind d (before ++ d :: after) = some (size before) := by
  have hnone : ∀ cs : List Char, d ∉ cs → rfind d cs = none := by
    intro cs hcs
    induction cs with
    | nil => rfl
    | cons c cs ih =>
      rw [List.mem_cons, not_or] at hcs
      rw [rfind, ih hcs.2]
      exact if_neg fun heq => hcs.1 heq.symm
  induction before with
  | nil => rw [List.nil_append, rfind, hnone after h]; simp
  | cons c before ih => rw [List.cons_append, rfind, ih, size_cons]

theorem rfind_eq_none {d : Char} {cs : List Char} (h : d ∉ cs) : rfind d cs = none := by
  induction cs with
  | nil => rfl
  | cons c cs ih =>
    rw [List.mem_cons, not_or] at h
    rw [rfind, ih h.2]
    exact if_neg fun heq => h.1 heq.symm

/-! ## ASCII characters in the bytes -/

/-- The other bytes of a character are no ASCII characters. -/
theorem utf8EncodeChar_of_ge {c : Char} (h : 128 ≤ c.toNat) :
    ∀ b ∈ String.utf8EncodeChar c, 128 ≤ b.toNat := by
  have hbyte : ∀ n : ℕ, 128 ≤ n → n < 256 → 128 ≤ (UInt8.ofNat n).toNat := fun n hn hlt => by
    rwa [UInt8.toNat_ofNat', Nat.mod_eq_of_lt hlt]
  have hval : c.val.toNat = c.toNat := rfl
  unfold String.utf8EncodeChar
  dsimp only
  rw [if_neg (by omega)]
  split
  · rw [List.forall_mem_cons, List.forall_mem_singleton]
    exact ⟨hbyte _ (by omega) (by omega), hbyte _ (by omega) (by omega)⟩
  split
  · rw [List.forall_mem_cons, List.forall_mem_cons, List.forall_mem_singleton]
    exact ⟨hbyte _ (by omega) (by omega), hbyte _ (by omega) (by omega),
      hbyte _ (by omega) (by omega)⟩
  · rw [List.forall_mem_cons, List.forall_mem_cons, List.forall_mem_cons, List.forall_mem_singleton]
    exact ⟨hbyte _ (by omega) (by omega), hbyte _ (by omega) (by omega),
      hbyte _ (by omega) (by omega), hbyte _ (by omega) (by omega)⟩

theorem ascii_mem_utf8EncodeChar {c d : Char} (hd : d.toNat < 128) :
    ascii d ∈ String.utf8EncodeChar c ↔ c = d := by
  by_cases hc : c.toNat < 128
  · rw [utf8EncodeChar_of_lt hc, List.mem_singleton]
    refine ⟨fun h => Char.toNat_inj.mp ?_, fun h => by rw [h]⟩
    rw [← toNat_ascii hc, ← h, toNat_ascii hd]
  · refine iff_of_false (fun h => ?_) fun h => hc (h ▸ hd)
    have hge := utf8EncodeChar_of_ge (Nat.le_of_not_lt hc) _ h
    rw [toNat_ascii hd] at hge
    omega

theorem ascii_mem_encode {d : Char} (hd : d.toNat < 128) (cs : List Char) :
    ascii d ∈ encode cs ↔ d ∈ cs := by
  simp [encode, List.mem_flatMap, ascii_mem_utf8EncodeChar hd]

theorem takeWhile_encode {d : Char} (hd : d.toNat < 128) (cs : List Char) :
    (encode cs).takeWhile (· ≠ ascii d) = encode (cs.takeWhile (· ≠ d)) := by
  induction cs with
  | nil => rfl
  | cons c cs ih =>
    rw [encode_cons]
    by_cases hc : c = d
    · rw [hc, utf8EncodeChar_of_lt hd]
      simp [encode]
    · have hpos : ∀ b ∈ String.utf8EncodeChar c, (decide (b ≠ ascii d)) = true := fun b hb => by
        rw [decide_eq_true_eq]
        rintro rfl
        exact hc ((ascii_mem_utf8EncodeChar hd).mp hb)
      rw [List.takeWhile_append_of_pos hpos, ih, List.takeWhile_cons_of_pos (by simpa using hc),
        encode_cons]

theorem dropWhile_encode {d : Char} (hd : d.toNat < 128) (cs : List Char) :
    (encode cs).dropWhile (· ≠ ascii d) = encode (cs.dropWhile (· ≠ d)) := by
  have hsplit : encode cs = encode (cs.takeWhile (· ≠ d)) ++ encode (cs.dropWhile (· ≠ d)) := by
    rw [← encode_append, List.takeWhile_append_dropWhile]
  refine List.append_cancel_left (?_ : encode (cs.takeWhile (· ≠ d)) ++ _ = _)
  rw [← hsplit, ← takeWhile_encode hd, List.takeWhile_append_dropWhile]

end Rust

end DataShare
