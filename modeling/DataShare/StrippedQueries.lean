import DataShare.ProxyDataPermission
import DataShare.RustStringUtils
import DataShare.RustUriUtils

/-!
# Queries that are stripped

`FormatUri` and `RemoveFromQuery` cut a uri at its last `?`, in C++ as in Rust, and
`GetQueryParams` reads what is behind the first. So they strip the query of the uris with no more
than one `?` (`strips_iff`), and uris that differ in such a query only have the same key of the
permission lookup.
-/

namespace DataShare

open Cpp (StdString queryFree removeFromQuery removeFromQuery_append)
open Rust (size rfind takeBytes takeBytes_append rfind_append rfind_eq_none)
open Rust.Json (encode encode_append encode_cons utf8Bytes_eq_encode)

namespace Cpp

namespace DataShareURIUtils

/-- `find_last_of`. -/
def findLastOf (c : UInt8) (s : StdString) : Option ℕ :=
  (s.reverse.findIdx? (· == c)).map (s.length - 1 - ·)

def formatUri (uri : StdString) : StdString :=
  match findLastOf 63 uri with
  | none => uri
  | some pos => uri.take pos

theorem findLastOf_append {c : UInt8} (before : StdString) {after : StdString} (h : c ∉ after) :
    findLastOf c (before ++ c :: after) = some before.length := by
  have hreverse : (before ++ c :: after).reverse = after.reverse ++ c :: before.reverse := by simp
  have hfind : (after.reverse ++ c :: before.reverse).findIdx? (· == c) = some after.length := by
    have hnone : after.reverse.findIdx? (· == c) = none := by
      rw [List.findIdx?_eq_none_iff]
      intro b hb
      rw [beq_eq_false_iff_ne]
      rintro rfl
      exact h (List.mem_reverse.mp hb)
    rw [List.findIdx?_append, hnone, List.findIdx?_cons]
    simp
  rw [findLastOf, hreverse, hfind, Option.map_some, List.length_append, List.length_cons]
  exact congrArg some (by omega)

theorem findLastOf_eq_none {c : UInt8} {s : StdString} (h : c ∉ s) : findLastOf c s = none := by
  rw [findLastOf, Option.map_eq_none_iff, List.findIdx?_eq_none_iff]
  intro b hb
  rw [beq_eq_false_iff_ne]
  rintro rfl
  exact h (List.mem_reverse.mp hb)

theorem formatUri_append (before : StdString) {after : StdString} (h : 63 ∉ after) :
    formatUri (before ++ 63 :: after) = before := by
  rw [formatUri, findLastOf_append before h]
  exact List.take_left ..

theorem formatUri_of_notMem {uri : StdString} (h : 63 ∉ uri) : formatUri uri = uri := by
  rw [formatUri, findLastOf_eq_none h]

end DataShareURIUtils

theorem removeFromQuery_of_notMem {uri : StdString} (h : 63 ∉ uri) : removeFromQuery uri = uri :=
  if_neg h

theorem queryFree_append {before : StdString} (h : 63 ∉ before) (after : StdString) :
    queryFree (before ++ 63 :: after) = before :=
  Rust.takeWhile_append_self h after

theorem queryFree_of_notMem {uri : StdString} (h : 63 ∉ uri) : queryFree uri = uri :=
  List.takeWhile_eq_self_iff.mpr fun c hc => by
    rw [decide_eq_true_eq]
    rintro rfl
    exact h hc

theorem notMem_queryFree (uri : StdString) : 63 ∉ queryFree uri := fun h => by
  simpa using List.mem_takeWhile_imp h

theorem queryMap_of_notMem {uri : StdString} (h : 63 ∉ uri) : Rust.queryMap uri = .empty := by
  have hdrop : uri.dropWhile (· ≠ 63) = [] :=
    List.dropWhile_eq_nil_iff.mpr fun c hc => by
      rw [decide_eq_true_eq]
      rintro rfl
      exact h hc
  rw [Rust.queryMap, DataShareURIUtils.queryOf, hdrop]
  exact Rust.assignAll_nil _

end Cpp

/-! ## What the functions return -/

/-- Nothing is left of the query. -/
structure HasNoQuery (uri : StdString) : Prop where
  formatUri : Cpp.DataShareURIUtils.formatUri uri = uri
  removeFromQuery : removeFromQuery uri = uri
  params : Cpp.DataShareURIUtils.getQueryParams uri = .empty

/-- The two functions return what is in front of the query, in both languages, and going on from
there changes nothing. -/
structure Strips (uri : StdString) : Prop where
  formatUri : Cpp.DataShareURIUtils.formatUri uri = queryFree uri
  removeFromQuery : removeFromQuery uri = queryFree uri
  stripped : HasNoQuery (queryFree uri)
  rust : ∀ s : String, utf8Bytes s = uri → ∃ t : String, utf8Bytes t = queryFree uri ∧
    Rust.UriUtils.formatUri s = .ok t ∧ Rust.StringUtils.removeFromQuery s = .ok t ∧
    Rust.UriUtils.formatUri t = .ok t ∧ Rust.StringUtils.removeFromQuery t = .ok t ∧
    Rust.UriUtils.getQueryParams t = .ok .empty

/-- The lookups of two uris have the same key, if only their queries differ. -/
def SameLookupKey (uri uri' : StdString) : Prop :=
  queryFree uri = queryFree uri' → ∀ {β : Type} (pf : Cpp.Platform β) (user : Int32)
    (isRead : Bool), (Cpp.DataSharePermission.getUriPermission pf uri user isRead).key =
      (Cpp.DataSharePermission.getUriPermission pf uri' user isRead).key

theorem key_getUriPermission {β : Type} (pf : Cpp.Platform β) (uri : StdString) (user : Int32)
    (isRead : Bool) : (Cpp.DataSharePermission.getUriPermission pf uri user isRead).key =
      ⟨removeFromQuery uri, user⟩ := by
  unfold Cpp.DataSharePermission.getUriPermission
  dsimp only
  split_ifs <;> rfl

theorem hasNoQuery_of_notMem {uri : StdString} (h : 63 ∉ uri) : HasNoQuery uri where
  formatUri := Cpp.DataShareURIUtils.formatUri_of_notMem h
  removeFromQuery := Cpp.removeFromQuery_of_notMem h
  params := (Rust.getQueryParams_cpp uri).trans (Cpp.queryMap_of_notMem h)

theorem question_mem_iff (s : String) : 63 ∈ utf8Bytes s ↔ '?' ∈ s.toList := by
  rw [utf8Bytes_eq_encode]
  exact Rust.ascii_mem_encode (d := '?') (by decide) s.toList

/-- The functions of Rust leave a text without a query as it is. -/
theorem rust_of_notMem {s : String} (h : '?' ∉ s.toList) :
    Rust.UriUtils.formatUri s = .ok s ∧ Rust.StringUtils.removeFromQuery s = .ok s ∧
      Rust.UriUtils.getQueryParams s = .ok .empty := by
  refine ⟨?_, ?_, ?_⟩
  · rw [Rust.UriUtils.formatUri, rfind_eq_none h]
    rfl
  · rw [Rust.StringUtils.removeFromQuery, rfind_eq_none h]
    rfl
  · rw [Rust.getQueryParams_utf8Bytes, Cpp.queryMap_of_notMem ((question_mem_iff s).not.mpr h)]

/-- The functions of Rust cut a text at its last `?`. -/
theorem rust_append (before : List Char) {after : List Char} (h : '?' ∉ after) :
    Rust.UriUtils.formatUri (String.ofList (before ++ '?' :: after)) =
        .ok (String.ofList before) ∧
      Rust.StringUtils.removeFromQuery (String.ofList (before ++ '?' :: after)) =
        .ok (String.ofList before) := by
  constructor
  · rw [Rust.UriUtils.formatUri, String.toList_ofList, rfind_append before h]
    dsimp only
    rw [takeBytes_append]
    rfl
  · rw [Rust.StringUtils.removeFromQuery, String.toList_ofList, rfind_append before h]
    dsimp only
    rw [takeBytes_append]
    rfl

/-! ## Uris with no more than one question mark -/

theorem strips_of_notMem {uri : StdString} (h : 63 ∉ uri) : Strips uri where
  formatUri := by rw [Cpp.DataShareURIUtils.formatUri_of_notMem h, Cpp.queryFree_of_notMem h]
  removeFromQuery := by rw [Cpp.removeFromQuery_of_notMem h, Cpp.queryFree_of_notMem h]
  stripped := by
    rw [Cpp.queryFree_of_notMem h]
    exact hasNoQuery_of_notMem h
  rust s hs := by
    subst hs
    obtain ⟨hformat, hremove, hparams⟩ := rust_of_notMem ((question_mem_iff s).not.mp h)
    exact ⟨s, (Cpp.queryFree_of_notMem h).symm, hformat, hremove, hformat, hremove, hparams⟩

theorem strips_append {before after : StdString} (hbefore : 63 ∉ before) (hafter : 63 ∉ after) :
    Strips (before ++ 63 :: after) where
  formatUri := by
    rw [Cpp.DataShareURIUtils.formatUri_append before hafter, Cpp.queryFree_append hbefore]
  removeFromQuery := by rw [removeFromQuery_append hafter, Cpp.queryFree_append hbefore]
  stripped := by
    rw [Cpp.queryFree_append hbefore]
    exact hasNoQuery_of_notMem hbefore
  rust s hs := by
    have hmem : '?' ∈ s.toList := (question_mem_iff s).mp (by rw [hs]; simp)
    obtain ⟨front, back, hsplit, hfront⟩ := List.eq_append_cons_of_mem hmem
    have hs' : s = String.ofList (front ++ '?' :: back) := by
      rw [← hsplit, String.ofList_toList]
    subst hs'
    have hbytes : encode front ++ 63 :: encode back = before ++ 63 :: after := by
      rw [← hs, utf8Bytes_ofList, ← encode, encode_append, encode_cons]
      rfl
    have hfront' : 63 ∉ encode front :=
      (Rust.ascii_mem_encode (d := '?') (by decide) front).not.mpr hfront
    obtain rfl : encode front = before := by
      rw [← Cpp.queryFree_append hfront' (encode back), hbytes, Cpp.queryFree_append hbefore]
    obtain rfl : encode back = after := by simpa using hbytes
    have hback : '?' ∉ back := (Rust.ascii_mem_encode (d := '?') (by decide) back).not.mp hafter
    have hofList : utf8Bytes (String.ofList front) = encode front := utf8Bytes_ofList front
    obtain ⟨hformat, hremove⟩ := rust_append front hback
    obtain ⟨hformat', hremove', hparams⟩ :=
      rust_of_notMem (s := String.ofList front) (by rwa [String.toList_ofList])
    refine ⟨String.ofList front, ?_, hformat, hremove, hformat', hremove', hparams⟩
    rw [hofList, Cpp.queryFree_append hbefore]

/-- The query is stripped exactly of the uris with no more than one `?`. -/
theorem strips_iff_count {uri : StdString} : Strips uri ↔ uri.count 63 ≤ 1 := by
  constructor
  · intro h
    by_contra hcount
    obtain ⟨after, before, hsplit, hafter⟩ := List.eq_append_cons_of_mem
      (List.mem_reverse.mpr (List.count_pos_iff.mp (by omega : 0 < uri.count 63)))
    obtain rfl : uri = before.reverse ++ 63 :: after.reverse := by
      rw [← List.reverse_reverse uri, hsplit]
      simp
    have hafter' : 63 ∉ after.reverse := fun hmem => hafter (List.mem_reverse.mp hmem)
    have hnone : after.reverse.count 63 = 0 := List.count_eq_zero.mpr hafter'
    rw [List.count_append, List.count_cons_self, hnone] at hcount
    have hbefore : 63 ∈ before.reverse := List.count_pos_iff.mp (by omega)
    have hformat := h.formatUri
    rw [Cpp.DataShareURIUtils.formatUri_append _ hafter'] at hformat
    rw [hformat] at hbefore
    exact Cpp.notMem_queryFree _ hbefore
  · intro h
    by_cases hmem : 63 ∈ uri
    · obtain ⟨before, after, rfl, hbefore⟩ := List.eq_append_cons_of_mem hmem
      rw [List.count_append, List.count_cons_self] at h
      exact strips_append hbefore (List.count_eq_zero.mp (by omega))
    · exact strips_of_notMem hmem

theorem sameLookupKey_of_strips {uri uri' : StdString} (h : Strips uri) (h' : Strips uri') :
    SameLookupKey uri uri' := by
  intro heq β pf user isRead
  rw [key_getUriPermission, key_getUriPermission, h.removeFromQuery, h'.removeFromQuery, heq]

/-- The queries of two uris are stripped, and uris that differ in them have one key, exactly if
both have no more than one `?`. -/
theorem strips_iff (uri uri' : StdString) : Strips uri ∧ Strips uri' ∧ SameLookupKey uri uri' ↔
    uri.count 63 ≤ 1 ∧ uri'.count 63 ≤ 1 := by
  rw [← strips_iff_count, ← strips_iff_count]
  exact ⟨fun h => ⟨h.1, h.2.1⟩, fun h => ⟨h.1, h.2, sameLookupKey_of_strips h.1 h.2⟩⟩

/-- `a?b?c` keeps a part of its query. -/
theorem not_strips_second : ¬Strips (utf8Bytes "a?b?c") :=
  strips_iff_count.not.mpr (by decide +kernel)

end DataShare
