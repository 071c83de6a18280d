import DataShare.RustText

/-!
# Anonymous texts in Rust

`string_utils.rs` takes a text apart at byte positions. `anonymous` keeps its last 10 bytes, and
`change` all but its first 12. They return exactly if a character begins there
(`anonymous_change_iff`).
-/

namespace DataShare

namespace Rust

open Json (sliceFrom dropBytes)

/-! ## The functions -/

namespace StringUtils

/-- `END_SIZE`. -/
def endSize : ℕ := 10

/-- `ANONYMOUS_SIZE`. -/
def anonymousSize : ℕ := 12

/-- `DEFAULT_ANONYMOUS`. -/
def defaultAnonymous : String := "******"

def anonymous (name : String) : Outcome String :=
  if size name.toList ≤ endSize then pure defaultAnonymous
  else do
    let rest ← sliceFrom name (size name.toList - endSize)
    pure (defaultAnonymous ++ rest)

def change (name : String) : Outcome String :=
  if size name.toList ≤ anonymousSize then pure name
  else do
    let rest ← sliceFrom name anonymousSize
    pure (defaultAnonymous ++ rest)

def removeFromQuery (uri : String) : Outcome String :=
  match rfind '?' uri.toList with
  | some pos => do
    let cs ← takeBytes uri.toList pos
    pure (String.ofList cs)
  | none => pure uri

end StringUtils

open StringUtils

/-! ## What is kept of a text -/

/-- `anonymous` returns stars, with at most the last 10 bytes of the name. -/
def Anonymized (name : String) : Prop :=
  ∃ rest, anonymous name = .ok (defaultAnonymous ++ rest) ∧
    ∃ before, name = before ++ rest ∧ size rest.toList ≤ endSize

/-- `change` returns a name of up to 12 bytes, and stars for the first 12 of a longer one. -/
def Changed (name : String) : Prop :=
  size name.toList ≤ anonymousSize ∧ change name = .ok name ∨
    ∃ before rest, name = before ++ rest ∧ size before.toList = anonymousSize ∧
      change name = .ok (defaultAnonymous ++ rest)

theorem sliceFrom_eq_ok_iff {s rest : String} {i : ℕ} :
    sliceFrom s i = .ok rest ↔ ∃ before : String, s = before ++ rest ∧ size before.toList = i := by
  have hslice : sliceFrom s i = .ok rest ↔ dropBytes s.toList i = .ok rest.toList := by
    unfold sliceFrom
    cases dropBytes s.toList i with
    | ok cs =>
      rw [Outcome.ok_bind, Outcome.pure_eq, Outcome.ok.injEq, Outcome.ok.injEq]
      constructor
      · rintro rfl
        exact String.toList_ofList.symm
      · rintro rfl
        exact String.ofList_toList
    | _ => exact iff_of_false (fun h => by cases h) (fun h => by cases h)
  rw [hslice, dropBytes_eq_ok_iff]
  constructor
  · rintro ⟨taken, hs, hsize⟩
    refine ⟨String.ofList taken, String.toList_injective ?_, ?_⟩
    · rw [String.toList_append, String.toList_ofList, hs]
    · rwa [String.toList_ofList]
  · rintro ⟨before, rfl, hsize⟩
    exact ⟨before.toList, String.toList_append .., hsize⟩

theorem anonymized_iff (name : String) : Anonymized name ↔ size name.toList ≤ endSize ∨
    ∃ before rest : String, name = before ++ rest ∧ size rest.toList = endSize := by
  unfold Anonymized anonymous
  by_cases hshort : size name.toList ≤ endSize
  · rw [if_pos hshort]
    exact iff_of_true ⟨"", rfl, name, (String.append_empty ..).symm, Nat.zero_le _⟩ (.inl hshort)
  rw [if_neg hshort, or_iff_right hshort]
  constructor
  · rintro ⟨rest, hrest, before, rfl, hle⟩
    cases hslice : sliceFrom (before ++ rest) (size (before ++ rest).toList - endSize) with
    | ok kept =>
      obtain ⟨front, hsplit, hfront⟩ := sliceFrom_eq_ok_iff.mp hslice
      refine ⟨front, kept, hsplit, ?_⟩
      have hsize : size (before ++ rest).toList = size front.toList + size kept.toList := by
        rw [hsplit, String.toList_append, size_append]
      omega
    | _ =>
      rw [hslice] at hrest
      cases hrest
  · rintro ⟨before, rest, rfl, hsize⟩
    have hslice : sliceFrom (before ++ rest) (size (before ++ rest).toList - endSize) =
        .ok rest := by
      refine sliceFrom_eq_ok_iff.mpr ⟨before, rfl, ?_⟩
      rw [String.toList_append, size_append]
      omega
    refine ⟨rest, ?_, before, rfl, hsize.le⟩
    rw [hslice]
    rfl

theorem changed_iff (name : String) : Changed name ↔ size name.toList ≤ anonymousSize ∨
    ∃ before rest : String, name = before ++ rest ∧ size before.toList = anonymousSize := by
  unfold Changed change
  by_cases hshort : size name.toList ≤ anonymousSize
  · rw [if_pos hshort]
    exact iff_of_true (.inl ⟨hshort, rfl⟩) (.inl hshort)
  rw [if_neg hshort, or_iff_right hshort, or_iff_right fun h => hshort h.1]
  constructor
  · rintro ⟨before, rest, hsplit, hsize, -⟩
    exact ⟨before, rest, hsplit, hsize⟩
  · rintro ⟨before, rest, hsplit, hsize⟩
    have hslice : sliceFrom name anonymousSize = .ok rest :=
      sliceFrom_eq_ok_iff.mpr ⟨before, hsplit, hsize⟩
    refine ⟨before, rest, hsplit, hsize, ?_⟩
    rw [hslice]
    rfl

/-- Both return what they are to keep exactly if no character is cut. -/
theorem anonymous_change_iff (name : String) : Anonymized name ∧ Changed name ↔
    (size name.toList ≤ endSize ∨
      ∃ before rest : String, name = before ++ rest ∧ size rest.toList = endSize) ∧
    (size name.toList ≤ anonymousSize ∨
      ∃ before rest : String, name = before ++ rest ∧ size before.toList = anonymousSize) := by
  rw [anonymized_iff, changed_iff]

/-- The second byte of `é` is the tenth from the end. -/
theorem not_anonymized_cut : ¬(Anonymized "é123456789" ∧ Changed "é123456789") := by
  have hpanic : anonymous "é123456789" = .panic := by decide +kernel
  rintro ⟨⟨rest, hrest, -⟩, -⟩
  rw [hpanic] at hrest
  cases hrest

end Rust

end DataShare
