import DataShare.ByteCodec

/-!
# Lossy UTF-8

`String::from_utf8_lossy` : bytes that are no character are replaced by U+FFFD, one for each
longest piece that a character could start with. What is UTF-8 is kept, and only that
(`utf8Bytes_fromUtf8Lossy_iff`).
-/

namespace DataShare

/-- The character that `bs` starts with, if it starts with one. -/
def firstChar? (bs : List UInt8) : Option Char :=
  bs.toByteArray.utf8DecodeChar? 0

/-- `b` and `c` may start a character of three bytes. -/
def startsThree (b c : UInt8) : Bool :=
  (b == 0xE0 && 0xA0 ≤ c && c ≤ 0xBF) || (0xE1 ≤ b && b ≤ 0xEC && 0x80 ≤ c && c ≤ 0xBF) ||
    (b == 0xED && 0x80 ≤ c && c ≤ 0x9F) || (0xEE ≤ b && b ≤ 0xEF && 0x80 ≤ c && c ≤ 0xBF)

/-- `b` and `c` may start a character of four bytes. -/
def startsFour (b c : UInt8) : Bool :=
  (b == 0xF0 && 0x90 ≤ c && c ≤ 0xBF) || (0xF1 ≤ b && b ≤ 0xF3 && 0x80 ≤ c && c ≤ 0xBF) ||
    (b == 0xF4 && 0x80 ≤ c && c ≤ 0x8F)

/-- The bytes that one replacement stands for, where no character starts. -/
def invalidLength : List UInt8 → ℕ
  | b :: c :: rest =>
    if startsThree b c then 2
    else if startsFour b c then
      match rest with
      | d :: _ => if 0x80 ≤ d && d ≤ 0xBF then 3 else 2
      | [] => 2
    else 1
  | _ => 1

/-- Each round takes a byte or more, so as many rounds as there are bytes are enough. -/
def lossyChars : ℕ → List UInt8 → List Char
  | 0, _ => []
  | _ + 1, [] => []
  | n + 1, b :: bs =>
    match firstChar? (b :: bs) with
    | some c => c :: lossyChars n ((b :: bs).drop c.utf8Size)
    | none => '\uFFFD' :: lossyChars n ((b :: bs).drop (invalidLength (b :: bs)))

def fromUtf8Lossy (bs : List UInt8) : String :=
  String.ofList (lossyChars bs.length bs)

theorem firstChar?_encode (c : Char) (bs : List UInt8) :
    firstChar? (String.utf8EncodeChar c ++ bs) = some c := by
  rw [firstChar?, List.toByteArray_append]
  exact ByteArray.utf8DecodeChar?_utf8EncodeChar_append

theorem lossyChars_flatMap : ∀ (cs : List Char) {n : ℕ},
    (cs.flatMap String.utf8EncodeChar).length ≤ n →
      lossyChars n (cs.flatMap String.utf8EncodeChar) = cs
  | [], n, _ => by cases n <;> rfl
  | c :: cs, n, h => by
    have hlen : (String.utf8EncodeChar c).length = c.utf8Size := String.length_utf8EncodeChar c
    have hpos := c.utf8Size_pos
    have hfirst := firstChar?_encode c (cs.flatMap String.utf8EncodeChar)
    have hdrop : (String.utf8EncodeChar c ++ cs.flatMap String.utf8EncodeChar).drop c.utf8Size =
        cs.flatMap String.utf8EncodeChar := List.drop_left' hlen
    rw [List.flatMap_cons] at h ⊢
    obtain ⟨b, bs, hbs⟩ : ∃ b bs, String.utf8EncodeChar c ++ cs.flatMap String.utf8EncodeChar =
        b :: bs := List.exists_cons_of_length_pos (by rw [List.length_append]; omega)
    rw [List.length_append] at h
    obtain ⟨n, rfl⟩ := Nat.exists_eq_succ_of_ne_zero (by omega : n ≠ 0)
    rw [hbs] at hfirst hdrop ⊢
    rw [lossyChars, hfirst]
    dsimp only
    rw [hdrop, lossyChars_flatMap cs (by omega)]

theorem fromUtf8Lossy_utf8Bytes (s : String) : fromUtf8Lossy (utf8Bytes s) = s := by
  have hs : utf8Bytes s = s.toList.flatMap String.utf8EncodeChar := by
    rw [← utf8Bytes_ofList, String.ofList_toList]
  rw [fromUtf8Lossy, hs, lossyChars_flatMap _ le_rfl, String.ofList_toList]

/-- Nothing is replaced exactly in what is UTF-8. -/
theorem utf8Bytes_fromUtf8Lossy_iff {bs : List UInt8} :
    utf8Bytes (fromUtf8Lossy bs) = bs ↔ (fromUtf8 bs).isSome := by
  constructor
  · intro h
    rw [← h, fromUtf8_utf8Bytes]
    rfl
  · intro h
    obtain ⟨s, hs⟩ := Option.isSome_iff_exists.mp h
    rw [← utf8Bytes_of_fromUtf8 hs, fromUtf8Lossy_utf8Bytes]

/-- A character without its last byte, and a byte that starts none. -/
example : fromUtf8Lossy [0x61, 0xE4, 0xBD, 0xFF, 0x62] = "a\uFFFD\uFFFDb" := by decide +kernel

end DataShare
