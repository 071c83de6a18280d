import DataShare.KeyEvents

/-!
# The loops of the Rust managers at one key

The loops of `add_observers`, `enable_observers` and `disable_observers` go through the keys of a call,
keep the entries of each key, and collect the keys to send and the results. What a loop has for one key
is a `KeyView`, and each mention of the key is a turn on it. The managers differ in when a turn finds
the key in use, and in which entries it enables, which are parameters here. `iterate_addOnce` and
`iterate_enableOnce` give the view after all mentions of the key : the first of them decides, and the
others are answered without the service.
-/

namespace DataShare.Rust

variable {κ ω : Type}

/-! ## Results of a key -/

/-- The codes reported for a key. -/
def codesAt [Ord κ] (k : κ) (results : List (OperationResult κ)) : List Int :=
  (results.filter fun r => compare k r.key = .eq).map OperationResult.errCode

section Codes

variable [Ord κ] {k : κ}

theorem codesAt_append (results results' : List (OperationResult κ)) :
    codesAt k (results ++ results') = codesAt k results ++ codesAt k results' := by
  simp [codesAt]

theorem codesAt_singleton (key : κ) (errCode : Int) :
    codesAt k [⟨key, errCode⟩] = if compare k key = .eq then [errCode] else [] := by
  by_cases hk : compare k key = .eq <;> simp [codesAt, hk]

/-- A success in the replies is that of a request the service has accepted. -/
theorem exists_of_mem_codesAt_replies {sent : List (Request κ)}
    (h : errOk ∈ codesAt k (replies sent)) :
    ∃ r ∈ requestsAt k sent, r.answer.takesEffect = true := by
  obtain ⟨result, hresult, hcode⟩ := List.mem_map.mp h
  obtain ⟨hmem, hk⟩ := List.mem_filter.mp hresult
  obtain ⟨r, hr, hreply⟩ := List.mem_filterMap.mp hmem
  cases hanswer : r.answer with
  | replied errCode =>
    rw [hanswer] at hreply
    obtain rfl := Option.some_inj.mp hreply
    refine ⟨r, List.mem_filter.mpr ⟨hr, hk⟩, ?_⟩
    rw [hanswer]
    exact decide_eq_true hcode
  | lost applied =>
    rw [hanswer] at hreply
    exact absurd hreply (by simp)

end Codes

/-! ## Requests of a key -/

section Requests

variable [Ord κ] {k : κ}

variable [Std.TransOrd κ] {keys : List κ} {kind : RequestKind} {answer : ℕ → Answer}

theorem requestsAt_of_not_sent (h : mentionCount k keys = 0) :
    requestsAt k (sendRequests kind keys answer) = [] :=
  CallbacksManager.requestsAt_sendRequests_eq_nil fun hk => Nat.ne_of_gt (mentionCount_pos.mpr hk) h

theorem mentions_of_mem_requestsAt {r : Request κ}
    (h : r ∈ requestsAt k (sendRequests kind keys answer)) : Mentions k keys ∧ r.kind = kind := by
  refine ⟨?_, CallbacksManager.kind_of_mem_sendRequests (List.mem_of_mem_filter h)⟩
  by_contra hnot
  rw [CallbacksManager.requestsAt_sendRequests_eq_nil hnot] at h
  exact List.not_mem_nil h

theorem requestsAt_of_sent_once (h : mentionCount k keys = 1) :
    ∃ r, requestsAt k (sendRequests kind keys answer) = [r] ∧ r.kind = kind := by
  have hlen : (requestsAt k (sendRequests kind keys answer)).length = mentionCount k keys :=
    CallbacksManager.length_requestsAt_sendRequests
  obtain ⟨r, hr⟩ := List.length_eq_one_iff.mp (hlen.trans h)
  exact ⟨r, hr, (mentions_of_mem_requestsAt (hr ▸ List.mem_singleton_self r)).2⟩

end Requests

/-! ## Views -/

/-- What a loop has for a key : its entries, how often it is to be sent, and its codes so far. -/
@[ext] structure KeyView (ω : Type) where
  entries : List (SubscriberEntry ω)
  asked : ℕ
  codes : List Int

/-- A turn of `add_observers`, where `inUse` says that the service is not asked for the key. -/
def addOnce (inUse : List (SubscriberEntry ω) → Bool) (entry : SubscriberEntry ω)
    (view : KeyView ω) : KeyView ω where
  entries := view.entries ++ [entry]
  asked := if inUse view.entries then view.asked else view.asked + 1
  codes := if inUse view.entries then view.codes ++ [errOk] else view.codes

/-- A turn of `enable_observers`, where `found` and `already` say that the subscriber has an entry, and
that it is enabled. -/
def enableOnce (found already : List (SubscriberEntry ω) → Bool)
    (enable : List (SubscriberEntry ω) → List (SubscriberEntry ω)) (missing : Int)
    (view : KeyView ω) : KeyView ω :=
  if !found view.entries then { view with codes := view.codes ++ [missing] }
  else if already view.entries then { view with codes := view.codes ++ [errOk] }
  else
    { view with
      entries := enable view.entries
      asked := if anyEnabled view.entries then view.asked else view.asked + 1 }

/-- A turn of `disable_observers`. -/
def disableOnce (subscriber : ℕ) (view : List (SubscriberEntry ω) × ℕ) :
    List (SubscriberEntry ω) × ℕ :=
  if !anyEnabled view.1 then view
  else if !view.1.any (fun e => e.subscriber = subscriber) then view
  else
    (disableEntries subscriber view.1,
      if anyEnabled (disableEntries subscriber view.1) then view.2 else view.2 + 1)

section Turns

variable {inUse found already : List (SubscriberEntry ω) → Bool} {entry : SubscriberEntry ω}
  {enable : List (SubscriberEntry ω) → List (SubscriberEntry ω)} {missing : Int}
  {entries : List (SubscriberEntry ω)} {subscriber : ℕ}

/-- After the first turn the key is in use. -/
theorem iterate_addOnce (hinUse : ∀ entries, inUse (entries ++ [entry]) = true) (n : ℕ) :
    (addOnce inUse entry)^[n] ⟨entries, 0, []⟩ =
      ⟨entries ++ List.replicate n entry, if inUse entries ∨ n = 0 then 0 else 1,
        List.replicate (if inUse entries then n else n - 1) errOk⟩ := by
  induction n with
  | zero => simp
  | succ n ih =>
    rw [Function.iterate_succ_apply', ih]
    rcases n with _ | n
    · by_cases h : inUse entries = true <;> simp [addOnce, h]
    · have hagain : inUse (entries ++ List.replicate (n + 1) entry) = true := by
        rw [List.replicate_succ', ← List.append_assoc]
        exact hinUse _
      ext1
      · simp [addOnce, List.replicate_succ', List.append_assoc]
      · simp [addOnce, hagain]
      · refine (if_pos hagain).trans ?_
        by_cases h : inUse entries = true <;> simp [h, List.replicate_succ']

variable (enable missing) in
/-- A key whose entries do not change is not sent. -/
theorem iterate_enableOnce_of_settled (h : found entries = true → already entries = true) (n asked : ℕ)
    (codes : List Int) :
    ∃ codes', (enableOnce found already enable missing)^[n] ⟨entries, asked, codes⟩ =
      ⟨entries, asked, codes'⟩ := by
  induction n generalizing codes with
  | zero => exact ⟨codes, rfl⟩
  | succ n ih =>
    rw [Function.iterate_succ_apply]
    by_cases hfound : found entries = true
    · simpa [enableOnce, hfound, h hfound] using ih (codes ++ [errOk])
    · simpa [enableOnce, hfound] using ih (codes ++ [missing])

variable (missing) in
/-- The first turn enables, and the others find it done. -/
theorem iterate_enableOnce (hfound : found entries = true) (halready : already entries = false)
    (hdone : already (enable entries) = true) (n : ℕ) :
    ∃ codes, (enableOnce found already enable missing)^[n + 1] ⟨entries, 0, []⟩ =
      ⟨enable entries, if anyEnabled entries then 0 else 1, codes⟩ ∧ (n = 0 → codes = []) := by
  rw [Function.iterate_succ_apply]
  have hfirst : enableOnce found already enable missing ⟨entries, 0, []⟩ =
      ⟨enable entries, if anyEnabled entries then 0 else 1, []⟩ := by
    simp [enableOnce, hfound, halready]
  rw [hfirst]
  rcases n with _ | n
  · exact ⟨[], rfl, fun _ => rfl⟩
  · obtain ⟨codes, hcodes⟩ := iterate_enableOnce_of_settled enable missing
      (fun _ : found (enable entries) = true => hdone) (n + 1) (if anyEnabled entries then 0 else 1) []
    exact ⟨codes, hcodes, fun hn => absurd hn (Nat.succ_ne_zero n)⟩

variable (found already enable missing) in
/-- All turns together enable the entries once, or not at all. -/
theorem entries_iterate_enableOnce
    (hdone : found entries = true → already entries = false → already (enable entries) = true) (n : ℕ) :
    ((enableOnce found already enable missing)^[n] ⟨entries, 0, []⟩).entries = entries ∨
      ((enableOnce found already enable missing)^[n] ⟨entries, 0, []⟩).entries = enable entries := by
  by_cases hturn : found entries = true ∧ already entries = false
  · obtain ⟨hfound, halready⟩ := hturn
    rcases n with _ | n
    · exact .inl rfl
    · obtain ⟨codes, hview, -⟩ := iterate_enableOnce missing hfound halready
        (hdone hfound halready) n
      rw [hview]
      exact .inr rfl
  · have hsettled (hfound : found entries = true) : already entries = true := by
      by_contra halready
      exact hturn ⟨hfound, Bool.not_eq_true _ ▸ halready⟩
    obtain ⟨codes, hview⟩ := iterate_enableOnce_of_settled enable missing hsettled n 0 []
    rw [hview]
    exact .inl rfl

theorem HoldsEnabled.of_disableEntries {s : ℕ}
    (h : HoldsEnabled s (disableEntries subscriber entries)) : HoldsEnabled s entries := by
  obtain ⟨e, he, hs, henabled⟩ := h
  obtain ⟨first, hfirst, rfl⟩ := List.mem_map.mp he
  split at henabled
  · exact absurd henabled Bool.false_ne_true
  · next hnot =>
    rw [if_neg hnot] at hs
    exact ⟨first, hfirst, hs, henabled⟩

variable (subscriber entries) in
/-- Disabling sends a key only if it leaves no enabled entry, and neither enables nor adds one. -/
theorem iterate_disableOnce (n : ℕ) :
    (0 < ((disableOnce subscriber)^[n] (entries, 0)).2 →
        anyEnabled ((disableOnce subscriber)^[n] (entries, 0)).1 = false) ∧
      (((disableOnce subscriber)^[n] (entries, 0)).1 ≠ [] → entries ≠ []) ∧
        ∀ s, HoldsEnabled s ((disableOnce subscriber)^[n] (entries, 0)).1 → HoldsEnabled s entries := by
  induction n with
  | zero => exact ⟨fun h => absurd h (Nat.lt_irrefl 0), id, fun _ => id⟩
  | succ n ih =>
    rw [Function.iterate_succ_apply']
    generalize (disableOnce subscriber)^[n] (entries, 0) = view at ih ⊢
    obtain ⟨hasked, hleft, hheld⟩ := ih
    unfold disableOnce
    by_cases hany : anyEnabled view.1 = true
    · rw [if_neg (by simpa using hany)]
      split
      · exact ⟨hasked, hleft, hheld⟩
      · refine ⟨fun hpos => ?_, fun hne => hleft ?_, fun s hs => hheld s hs.of_disableEntries⟩
        · by_contra hstill
          rw [Bool.not_eq_false] at hstill
          dsimp only at hpos hstill
          rw [if_pos hstill] at hpos
          rw [hasked hpos] at hany
          exact Bool.false_ne_true hany
        · rintro hnil
          refine hne ?_
          dsimp only
          rw [hnil]
          rfl
    · rw [if_pos (by simpa using hany)]
      exact ⟨hasked, hleft, hheld⟩

end Turns

/-! ## Moves -/

section Moves

variable {stuck : Answer → Bool} {before : List (SubscriberEntry ω)} {e : KeyEvent κ ω} {n : ℕ}

/-- A failed registration that is not stuck is taken back. -/
def TakesBack (stuck : Answer → Bool) (before : List (SubscriberEntry ω)) (e : KeyEvent κ ω) : Prop :=
  0 < e.named → ∀ r, e.sent = [r] → r.answer.takesEffect = false → stuck r.answer = false →
    anyEnabled before = false → anyEnabled e.entries = false ∧ (e.entries ≠ [] → before ≠ [])

/-- A call that keeps some of the entries, and unsubscribes only a key it leaves none. -/
theorem keyMove_of_sublist {entries : List (SubscriberEntry ω)} (hsub : entries.Sublist before)
    (hentries : e.entries = entries) (hnamed : e.named = 0) (hadds : e.adds = false)
    (hkinds : ∀ r ∈ e.sent, r.kind = .unsubscribe ∧ entries = []) : KeyMove stuck before e := by
  subst hentries
  refine .taken hnamed hadds (fun r hr => .inl (hkinds r hr)) ?_ ?_
  · rintro hne rfl
    exact hne (List.sublist_nil.mp hsub)
  · rintro s ⟨entry, hentry, hheld⟩
    exact ⟨entry, hsub.subset hentry, hheld⟩

/-- A call that does nothing to the key. -/
theorem keyMove_of_nothing (hnamed : e.named = 0) (hadds : e.adds = false) (hsent : e.sent = [])
    (hentries : e.entries = before) : KeyMove stuck before e :=
  keyMove_of_sublist (List.Sublist.refl before) hentries hnamed hadds (by simp [hsent])

variable [Ord κ] [Std.TransOrd κ] {k : κ} {keys : List κ} {answer : ℕ → Answer} {view : KeyView ω}

/-- What an event sends and reports, from the view of its loop : the keys collected are sent, and the
replies reported with the codes of the loop. -/
structure Sends (k : κ) (kind : RequestKind) (keys : List κ) (answer : ℕ → Answer) (view : KeyView ω)
    (e : KeyEvent κ ω) : Prop where
  asked : mentionCount k keys = view.asked
  sent : e.sent = requestsAt k (sendRequests kind keys answer)
  codes : e.codes = view.codes ++ codesAt k (replies (sendRequests kind keys answer))
  /-- Entries are taken back only of a key that was sent. -/
  kept : e.sent = [] → e.entries = view.entries

theorem Sends.nothing {kind : RequestKind} (h : Sends k kind keys answer view e)
    (hasked : view.asked = 0) : e.sent = [] ∧ e.entries = view.entries := by
  have hsent : e.sent = [] := h.sent.trans (requestsAt_of_not_sent (h.asked.trans hasked))
  exact ⟨hsent, h.kept hsent⟩

theorem Sends.once {kind : RequestKind} (h : Sends k kind keys answer view e)
    (hasked : view.asked = 1) : ∃ r, e.sent = [r] ∧ r.kind = kind ∧
      (view.codes = [] → errOk ∈ e.codes → r.answer.takesEffect = true) := by
  have hone : mentionCount k keys = 1 := h.asked.trans hasked
  obtain ⟨r, hr, hkind⟩ := requestsAt_of_sent_once (k := k) hone
  refine ⟨r, h.sent.trans hr, hkind, fun hcodes hok => ?_⟩
  rw [h.codes, hcodes, List.nil_append] at hok
  obtain ⟨r', hr', heffect⟩ := exists_of_mem_codesAt_replies hok
  rw [hr, List.mem_singleton] at hr'
  rwa [← hr']

theorem keyMove_of_adding {inUse : List (SubscriberEntry ω) → Bool} {entry : SubscriberEntry ω}
    (hinUse : ∀ entries, inUse (entries ++ [entry]) = true)
    (hawake : 0 < n → inUse before = true → anyEnabled before = true)
    (hidle : inUse before = false → anyEnabled before = false)
    (h : Sends k .subscribe keys answer ((addOnce inUse entry)^[n] ⟨before, 0, []⟩) e)
    (hnamed : e.named = n) (hadds : e.adds = decide (0 < n)) (htakes : TakesBack stuck before e) :
    KeyMove stuck before e := by
  rw [iterate_addOnce hinUse] at h
  rcases Nat.eq_zero_or_pos n with rfl | hn
  · obtain ⟨hsent, hentries⟩ := h.nothing (if_pos (.inr rfl))
    exact keyMove_of_nothing hnamed hadds hsent (hentries.trans (List.append_nil before))
  · have hadds : e.adds = true := hadds.trans (decide_eq_true hn)
    by_cases huse : inUse before = true
    · obtain ⟨hsent, hentries⟩ := h.nothing (if_pos (.inl huse))
      have henabled := hawake hn huse
      exact .answered (hnamed ▸ hn) hsent (fun _ => ne_nil_of_anyEnabled henabled)
        (fun _ => henabled) fun _ => henabled
    · rw [Bool.not_eq_true] at huse
      have hone : ¬ (inUse before = true ∨ n = 0) := by
        rw [huse]
        simpa using Nat.ne_of_gt hn
      obtain ⟨r, hsent, hkind, hreported⟩ := h.once (if_neg hone)
      refine .asked r (hnamed ▸ hn) hsent (hidle huse) ?_ ?_ ?_ fun hn1 => hreported ?_
      · rw [hkind, hadds]
        rfl
      · rw [hadds]
        exact fun hfalse => absurd hfalse.symm Bool.false_ne_true
      · exact fun heffect hstuck => htakes (hnamed ▸ hn) r hsent heffect hstuck (hidle huse)
      · rw [hnamed] at hn1
        simp [huse, hn1]

theorem keyMove_of_enabling {found already : List (SubscriberEntry ω) → Bool}
    {enable : List (SubscriberEntry ω) → List (SubscriberEntry ω)} {missing : Int}
    (hne : found before = true → before ≠ [])
    (hdone : found before = true → already before = false → already (enable before) = true)
    (h : Sends k .enable keys answer ((enableOnce found already enable missing)^[n] ⟨before, 0, []⟩) e)
    (hnamed : e.named = n) (hadds : e.adds = false) (htakes : TakesBack stuck before e) :
    KeyMove stuck before e := by
  have hnotAdds {P : Prop} (htrue : e.adds = true) : P := by
    rw [hadds] at htrue
    exact absurd htrue Bool.false_ne_true
  by_cases hturn : found before = true ∧ already before = false
  · obtain ⟨hfound, halready⟩ := hturn
    rcases n with _ | n
    · obtain ⟨hsent, hentries⟩ := h.nothing rfl
      exact keyMove_of_nothing hnamed hadds hsent hentries
    · obtain ⟨codes, hview, hcodes⟩ := iterate_enableOnce missing hfound halready
        (hdone hfound halready) n
      rw [hview] at h
      have hn : 0 < e.named := hnamed ▸ Nat.succ_pos n
      by_cases hany : anyEnabled before = true
      · obtain ⟨hsent, -⟩ := h.nothing (if_pos hany)
        exact .answered hn hsent (fun _ => hne hfound) (fun _ => hany) hnotAdds
      · rw [Bool.not_eq_true] at hany
        obtain ⟨r, hsent, hkind, hreported⟩ := h.once (by simp [hany])
        refine .asked r hn hsent hany ?_ (fun _ => hne hfound) ?_ fun hn1 => hreported (hcodes ?_)
        · rw [hkind, hadds]
          rfl
        · exact fun heffect hstuck => htakes hn r hsent heffect hstuck hany
        · omega
  · have hsettled (hfound : found before = true) : already before = true := by
      by_contra halready
      exact hturn ⟨hfound, Bool.not_eq_true _ ▸ halready⟩
    obtain ⟨codes, hview⟩ := iterate_enableOnce_of_settled enable missing hsettled n 0 []
    rw [hview] at h
    obtain ⟨hsent, hentries⟩ := h.nothing rfl
    rcases Nat.eq_zero_or_pos n with rfl | hn
    · exact keyMove_of_nothing hnamed hadds hsent hentries
    · refine .answered (hnamed ▸ hn) hsent ?_ ?_ hnotAdds
      · rw [hentries]
        exact id
      · rw [hentries]
        exact id

theorem keyMove_of_disabling {subscriber : ℕ}
    (hview : (e.entries, mentionCount k keys) = (disableOnce subscriber)^[n] (before, 0))
    (hsent : e.sent = requestsAt k (sendRequests .disable keys answer)) (hnamed : e.named = 0)
    (hadds : e.adds = false) : KeyMove stuck before e := by
  obtain ⟨hasked, hleft, hheld⟩ := iterate_disableOnce before subscriber n
  rw [← hview] at hasked hleft hheld
  refine .taken hnamed hadds (fun r hr => .inr ?_) hleft hheld
  rw [hsent] at hr
  obtain ⟨hmentions, hkind⟩ := mentions_of_mem_requestsAt hr
  exact ⟨hkind, hasked (mentionCount_pos.mpr hmentions)⟩

end Moves

end DataShare.Rust
