import DataShare.History
import Mathlib.Algebra.Order.Group.Int

/-!
# Windows of calls

A counter opens a window of length `span` at a call, and a new one at the first call that is not in
it. A call is flagged if it is the `limit`th of its window, or a later one.

A flagged call has `limit` calls not `span` before it. A window stays silent at `limit - 1` calls,
and an interval of length `span` meets no more than two of them : one with more calls than two
windows are silent at has a flagged call. `run_flags` is both for the calls of a run.
-/

namespace DataShare

/-- The window that is open, and the number of its calls. -/
structure CallWindow where
  start : ℤ
  total : ℕ
  deriving DecidableEq

/-- A call, and whether it was flagged. -/
abbrev FlaggedCall : Type :=
  ℤ × Bool

namespace CallWindow

variable {span : ℤ} {limit : ℕ}

/-- The window after a call. -/
def next (span : ℤ) (window : Option CallWindow) (time : ℤ) : CallWindow :=
  match window with
  | none => ⟨time, 1⟩
  | some w => if time - w.start < span then ⟨w.start, w.total + 1⟩ else ⟨time, 1⟩

theorem start_next_le {window : Option CallWindow} {time : ℤ}
    (h : ∀ w, window = some w → w.start ≤ time) : (next span window time).start ≤ time := by
  cases window with
  | none => exact le_rfl
  | some w =>
    rw [next]
    split
    · exact h w rfl
    · exact le_rfl

def flags (limit : ℕ) (w : CallWindow) : Bool :=
  limit ≤ w.total

/-- One call, and the log of the call. -/
def step (span : ℤ) (limit : ℕ) (window : Option CallWindow) (time : ℤ) :
    Option CallWindow × List FlaggedCall :=
  (some (next span window time), [(time, flags limit (next span window time))])

/-- The calls of the log not before `time`. -/
def callsFrom (log : List FlaggedCall) (time : ℤ) : ℕ :=
  log.countP fun e => time ≤ e.1

/-- The silent calls of the log from `start` until before `stop`. -/
def silentIn (log : List FlaggedCall) (start stop : ℤ) : ℕ :=
  log.countP fun e => start ≤ e.1 ∧ e.1 < stop ∧ e.2 = false

theorem callsFrom_concat (log : List FlaggedCall) (e : FlaggedCall) (time : ℤ) :
    callsFrom (log ++ [e]) time = callsFrom log time + if time ≤ e.1 then 1 else 0 := by
  rw [callsFrom, List.countP_append, List.countP_singleton, callsFrom]
  simp

theorem silentIn_concat (log : List FlaggedCall) (e : FlaggedCall) (start stop : ℤ) :
    silentIn (log ++ [e]) start stop = silentIn log start stop +
      if start ≤ e.1 ∧ e.1 < stop ∧ e.2 = false then 1 else 0 := by
  rw [silentIn, List.countP_append, List.countP_singleton, silentIn]
  simp

theorem silentIn_mono {log : List FlaggedCall} {start start' stop stop' : ℤ}
    (h : ∀ e ∈ log, start ≤ e.1 → e.1 < stop → start' ≤ e.1 ∧ e.1 < stop') :
    silentIn log start stop ≤ silentIn log start' stop' := by
  refine List.countP_mono_left fun e he hin => ?_
  rw [decide_eq_true_eq] at hin ⊢
  obtain ⟨hstart, hstop, hsilent⟩ := hin
  obtain ⟨hstart', hstop'⟩ := h e he hstart hstop
  exact ⟨hstart', hstop', hsilent⟩

theorem silentIn_le_callsFrom (log : List FlaggedCall) (start stop : ℤ) :
    silentIn log start stop ≤ callsFrom log start := by
  refine List.countP_mono_left fun e _ hin => ?_
  rw [decide_eq_true_eq] at hin ⊢
  exact hin.1

/-- An interval is silent where its parts are. -/
theorem silentIn_split (log : List FlaggedCall) (start mid stop : ℤ) :
    silentIn log start stop ≤ silentIn log start mid + silentIn log mid stop := by
  induction log using List.reverseRecOn with
  | nil => exact Nat.zero_le _
  | append_singleton log e ih =>
    simp only [silentIn_concat]
    by_cases hsilent : e.2 = false
    · simp only [hsilent, and_true]
      split_ifs <;> omega
    · simpa only [hsilent, Bool.true_eq_false, and_false, if_false, Nat.add_zero] using ih

/-! ## What is known of the window that is open -/

/-- The log is the one of a window that is open. -/
structure Open (span : ℤ) (limit : ℕ) (w : CallWindow) (log : List FlaggedCall) : Prop where
  opened : 0 < w.total
  counted : callsFrom log w.start = w.total
  inside : ∀ e ∈ log, e.1 < w.start + span
  silent : silentIn log w.start (w.start + span) ≤ limit - 1
  before : silentIn log (w.start - span) w.start ≤ limit - 1

/-- The log of a counter. -/
def Kept (span : ℤ) (limit : ℕ) (log : List FlaggedCall) : Option CallWindow → Prop
  | none => log = []
  | some w => Open span limit w log

/-- A window begins with a call. -/
theorem Open.start_le {w : CallWindow} {log : List FlaggedCall} (h : Open span limit w log)
    {time : ℤ} (hlast : ∀ e ∈ log, e.1 ≤ time) : w.start ≤ time := by
  have hpos : 0 < callsFrom log w.start := h.counted.symm ▸ h.opened
  obtain ⟨first, hfirst, hstart⟩ := List.countP_pos_iff.mp hpos
  exact (of_decide_eq_true hstart).trans (hlast first hfirst)

/-- A window has no more silent calls than calls, and no silent call from the `limit`th on. -/
theorem silentIn_concat_le {w : CallWindow} {log : List FlaggedCall} {time stop : ℤ}
    (hcounted : callsFrom (log ++ [(time, flags limit w)]) w.start = w.total)
    (h : silentIn log w.start stop ≤ limit - 1) :
    silentIn (log ++ [(time, flags limit w)]) w.start stop ≤ limit - 1 := by
  by_cases hflag : limit ≤ w.total
  · rw [silentIn_concat, if_neg (by simp [flags, hflag])]
    exact h
  · have hle := silentIn_le_callsFrom (log ++ [(time, flags limit w)]) w.start stop
    omega

theorem open_new (hspan : 0 < span) {log : List FlaggedCall} {time : ℤ}
    (hlast : ∀ e ∈ log, e.1 < time) (hbefore : silentIn log (time - span) time ≤ limit - 1) :
    Open span limit ⟨time, 1⟩ (log ++ [(time, flags limit ⟨time, 1⟩)]) := by
  have hnone : callsFrom log time = 0 := List.countP_eq_zero.mpr fun e he => by
    simpa using hlast e he
  have hcounted : callsFrom (log ++ [(time, flags limit ⟨time, 1⟩)]) time = 1 := by
    rw [callsFrom_concat, hnone, if_pos le_rfl]
  refine ⟨Nat.one_pos, hcounted, fun e he => ?_, silentIn_concat_le hcounted ?_, ?_⟩
  · rcases List.mem_append.mp he with he | he
    · exact (hlast e he).trans (lt_add_of_pos_right time hspan)
    · rw [List.mem_singleton.mp he]
      exact lt_add_of_pos_right time hspan
  · have hle := silentIn_le_callsFrom log time (time + span)
    exact (hle.trans hnone.le).trans (Nat.zero_le _)
  · rw [silentIn_concat, if_neg (by simp)]
    exact hbefore

/-- One call keeps what is known of the window. -/
theorem open_concat (hspan : 0 < span) {window : Option CallWindow} {log : List FlaggedCall}
    {time : ℤ} (h : Kept span limit log window) (hlast : ∀ e ∈ log, e.1 ≤ time) :
    Open span limit (next span window time)
      (log ++ [(time, flags limit (next span window time))]) := by
  cases window with
  | none =>
    obtain rfl : log = [] := h
    exact open_new hspan (by simp) (Nat.zero_le _)
  | some w =>
    have hle : w.start ≤ time := Open.start_le h hlast
    obtain ⟨-, hcounted, hinside, hsilent, hbefore⟩ := h
    rw [next]
    split
    · next hin =>
      have hcounted' : callsFrom (log ++ [(time, flags limit ⟨w.start, w.total + 1⟩)]) w.start =
          w.total + 1 := by
        rw [callsFrom_concat, hcounted, if_pos hle]
      refine ⟨Nat.succ_pos _, hcounted', fun e he => ?_, silentIn_concat_le hcounted' hsilent, ?_⟩
      · rcases List.mem_append.mp he with he | he
        · exact hinside e he
        · rw [List.mem_singleton.mp he]
          exact Int.lt_add_of_sub_left_lt hin
      · rw [silentIn_concat, if_neg fun h => absurd h.2.1 (not_lt.mpr hle)]
        exact hbefore
    · next hout =>
      refine open_new hspan (fun e he => ?_)
        (le_trans (silentIn_mono fun e he hstart _ => ⟨?_, hinside e he⟩) hsilent)
      · have hlt := hinside e he
        omega
      · omega

/-! ## What is known of the log -/

/-- A flagged call has `limit` calls not `span` before it, itself with them. -/
def Sound (span : ℤ) (limit : ℕ) (log : List FlaggedCall) : Prop :=
  ∀ before e after, log = before ++ e :: after → e.2 = true →
    limit ≤ (before ++ [e]).countP fun c => e.1 - span < c.1 ∧ c.1 ≤ e.1

/-- An interval with more calls than two windows are silent at has a flagged call. -/
def NotBlind (span : ℤ) (limit : ℕ) (log : List FlaggedCall) : Prop :=
  ∀ time, 2 * (limit - 1) < (log.countP fun e => time ≤ e.1 ∧ e.1 ≤ time + span) →
    ∃ e ∈ log, time ≤ e.1 ∧ e.1 ≤ time + span ∧ e.2 = true

theorem sound_concat {log : List FlaggedCall} {w : CallWindow} {time : ℤ} (h : Sound span limit log)
    (hopen : Open span limit w (log ++ [(time, flags limit w)]))
    (hlast : ∀ e ∈ log ++ [(time, flags limit w)], e.1 ≤ time) :
    Sound span limit (log ++ [(time, flags limit w)]) := by
  intro before e after heq hflag
  rcases after.eq_nil_or_concat with rfl | ⟨after, last, rfl⟩
  · obtain ⟨rfl, he⟩ := List.append_inj' heq rfl
    obtain rfl := List.singleton_inj.mp he
    have hlimit : limit ≤ w.total := of_decide_eq_true hflag
    refine (hopen.counted.symm ▸ hlimit).trans (List.countP_mono_left fun c hc hstart => ?_)
    have hin := hopen.inside (time, flags limit w) (by simp)
    rw [decide_eq_true_eq] at hstart ⊢
    dsimp only at hin ⊢
    exact ⟨by omega, hlast c hc⟩
  · rw [List.concat_eq_append, ← List.cons_append, ← List.append_assoc] at heq
    exact h before e after (List.append_inj' heq rfl).1 hflag

/-- No interval has more silent calls than two windows. -/
theorem silentIn_le {log : List FlaggedCall} {w : CallWindow} {time : ℤ}
    (h : ∀ t, silentIn log t (t + span + 1) ≤ 2 * (limit - 1))
    (hopen : Open span limit w (log ++ [(time, flags limit w)])) (hstart : w.start ≤ time) (t : ℤ) :
    silentIn (log ++ [(time, flags limit w)]) t (t + span + 1) ≤ 2 * (limit - 1) := by
  by_cases hin : t ≤ time ∧ time < t + span + 1
  · have hsplit := silentIn_split (log ++ [(time, flags limit w)]) t w.start (t + span + 1)
    have hnow : silentIn (log ++ [(time, flags limit w)]) w.start (t + span + 1) ≤ limit - 1 :=
      (silentIn_mono fun e he hle _ => ⟨hle, hopen.inside e he⟩).trans hopen.silent
    have hbefore : silentIn (log ++ [(time, flags limit w)]) t w.start ≤ limit - 1 :=
      (silentIn_mono fun e he hle hlt => ⟨by omega, hlt⟩).trans hopen.before
    omega
  · rw [silentIn_concat, if_neg fun h => hin ⟨h.1, h.2.1⟩]
    exact h t

theorem notBlind_of_silentIn {log : List FlaggedCall}
    (h : ∀ t, silentIn log t (t + span + 1) ≤ 2 * (limit - 1)) : NotBlind span limit log := by
  intro time hmany
  by_contra hnone
  refine absurd (hmany.trans_le (le_trans (List.countP_mono_left fun e he hin => ?_) (h time)))
    (lt_irrefl _)
  rw [decide_eq_true_eq] at hin ⊢
  refine ⟨hin.1, Int.lt_add_one_of_le hin.2, Bool.eq_false_iff.mpr fun hflag => hnone ?_⟩
  exact ⟨e, he, hin.1, hin.2, hflag⟩

theorem map_fst_run (times : List ℤ) :
    (runCalls (step span limit) none times).2.map Prod.fst = times := by
  induction times using List.reverseRecOn with
  | nil => rfl
  | append_singleton times time ih =>
    rw [runCalls_concat, advance, List.map_append, ih]
    rfl

/-- A window has no more calls than the run. -/
theorem total_le {times : List ℤ} {w : CallWindow}
    (h : (runCalls (step span limit) none times).1 = some w) : w.total ≤ times.length := by
  induction times using List.reverseRecOn generalizing w with
  | nil => cases h
  | append_singleton times time ih =>
    rw [runCalls_concat] at h
    obtain rfl := Option.some.inj h
    rw [List.length_append, List.length_singleton]
    cases hlast : (runCalls (step span limit) none times).1 with
    | none => exact Nat.le_add_left 1 _
    | some last =>
      have hle := ih hlast
      rw [next]
      split
      · exact Nat.add_le_add_right hle 1
      · exact Nat.le_add_left 1 _

/-- Each call of a run keeps what is known of the window and of the log. -/
theorem run_kept (hspan : 0 < span) {times : List ℤ} (h : times.Pairwise (· ≤ ·)) :
    Kept span limit (runCalls (step span limit) none times).2
        (runCalls (step span limit) none times).1 ∧
      Sound span limit (runCalls (step span limit) none times).2 ∧
      ∀ t, silentIn (runCalls (step span limit) none times).2 t (t + span + 1) ≤
        2 * (limit - 1) := by
  induction times using List.reverseRecOn with
  | nil => exact ⟨rfl, fun before e after heq => by simp at heq, fun t => Nat.zero_le _⟩
  | append_singleton times time ih =>
    obtain ⟨htimes, -, hle⟩ := List.pairwise_append.mp h
    obtain ⟨hkept, hsound, hsilent⟩ := ih htimes
    have hbefore : ∀ e ∈ (runCalls (step span limit) none times).2, e.1 ≤ time := fun e he => by
      refine hle e.1 ?_ time (List.mem_singleton_self time)
      have hfst : (runCalls (step span limit) none times).2.map Prod.fst = times := map_fst_run times
      exact hfst ▸ List.mem_map_of_mem he
    have hopen := open_concat hspan hkept hbefore
    have hlast : ∀ e ∈ (runCalls (step span limit) none times).2 ++ [(time, flags limit
        (next span (runCalls (step span limit) none times).1 time))], e.1 ≤ time := fun e he => by
      rcases List.mem_append.mp he with he | he
      · exact hbefore e he
      · rw [List.mem_singleton.mp he]
    rw [runCalls_concat]
    exact ⟨hopen, sound_concat hsound hopen hlast,
      silentIn_le hsilent hopen (hopen.start_le hlast)⟩

/-- A counter of calls in their order flags only calls with enough others close before them, and
one in each interval with too many. -/
theorem run_flags (hspan : 0 < span) {times : List ℤ} (h : times.Pairwise (· ≤ ·)) :
    Sound span limit (runCalls (step span limit) none times).2 ∧
      NotBlind span limit (runCalls (step span limit) none times).2 := by
  obtain ⟨-, hsound, hsilent⟩ := run_kept hspan h
  exact ⟨hsound, notBlind_of_silentIn hsilent⟩

end CallWindow

end DataShare
