import DataShare.CallWindows
import DataShare.RustStringUtils

/-!
# The call reporter in Rust

`call_reporter.rs` counts the calls of each function, and reports a function with 3000 calls in a
window of 30 seconds. A function sees a counter of windows of its own (`run_view`), as long as the
reporter takes the calls of all : each call anonymizes its uri for the log, and a panic under the lock
poisons it for every function.

`run_reports` is what is reported then. A uri that `anonymous` cuts inside of a character is never
reported (`blind_of_cut`).
-/

namespace DataShare

namespace Rust

open StringUtils (anonymous)

/-! ## The reporter -/

/-- `RESET_COUNT_THRESHOLD`. -/
def resetCountThreshold : Int32 := 100

/-- `ACCESS_COUNT_THRESHOLD`. -/
def accessCountThreshold : Int32 := 3000

/-- `TIME_THRESHOLD`. -/
def timeThreshold : ℤ := 30000

structure CallInfo where
  count : Int32 := 0
  totalCount : Int32 := 0
  firstTime : ℤ := 0
  startTime : ℤ := 0
  logPrintFlag : Bool := false
  deriving DecidableEq

/-- `call_counts` behind its lock, which is poisoned by a panic. -/
structure CallReporter where
  callCounts : String → Option CallInfo := fun _ => none
  poisoned : Bool := false

/-- A call of `count`, with the boot time as it is counted and as `count` ends. It is negative if
it could not be read. -/
structure CountCall where
  funcName : String
  uri : String
  currTime : ℤ
  now : ℤ

/-- What `update_call_counts_locked` gives to `count`. -/
structure CallReport where
  overCount : ℕ := 0
  firstCallTime : ℤ := 0
  isOverThreshold : Bool := false

/-- `+= 1`. `checks` are the overflow checks of the build. -/
def increment (checks : Bool) (n : Int32) : Outcome Int32 :=
  if checks ∧ n = Int32.maxValue then .panic else pure (n + 1)

namespace CallInfo

/-- The calls between two resets. -/
def countCall (checks : Bool) (callInfo : CallInfo) (currTime : ℤ) :
    Outcome (CallInfo × CallReport) := do
  let first := if callInfo.count = 0 then currTime else callInfo.firstTime
  let callCount ← increment checks callInfo.count
  if callCount % resetCountThreshold = 0 then
    pure ({ callInfo with count := 0, firstTime := first },
      { overCount := if currTime - first ≤ timeThreshold then 2 else 1, firstCallTime := first })
  else pure ({ callInfo with count := callCount, firstTime := first }, {})

/-- The calls of a window. -/
def countTotal (checks : Bool) (callInfo : CallInfo) (report : CallReport) (currTime : ℤ) :
    Outcome (CallInfo × CallReport) := do
  let thresholdStartTime := if callInfo.totalCount = 0 then currTime else callInfo.startTime
  let callInfo :=
    if currTime - thresholdStartTime ≥ timeThreshold ∨ currTime < thresholdStartTime then
      { callInfo with startTime := currTime, totalCount := 0, logPrintFlag := false }
    else { callInfo with startTime := thresholdStartTime }
  let totalCallCount ← increment checks callInfo.totalCount
  pure ({ callInfo with totalCount := totalCallCount },
    { report with isOverThreshold := totalCallCount ≥ accessCountThreshold })

end CallInfo

namespace CallReporter

def updateCallCountsLocked (checks : Bool) (counts : String → Option CallInfo) (funcName : String)
    (currTime : ℤ) : Outcome ((String → Option CallInfo) × CallReport) :=
  if currTime < 0 then pure (Function.update counts funcName none, {})
  else do
    let (callInfo, report) ← ((counts funcName).getD {}).countCall checks currTime
    let (callInfo, report) ← callInfo.countTotal checks report currTime
    pure (Function.update counts funcName (some callInfo), report)

/-- The log of a function that is over the threshold, made once for each window. -/
def logOverThreshold (counts : String → Option CallInfo) (funcName uri : String) :
    Outcome (String → Option CallInfo) :=
  match counts funcName with
  | some callInfo =>
    if callInfo.logPrintFlag then pure counts
    else do
      let _anonymousUri ← anonymous uri
      pure (Function.update counts funcName (some { callInfo with logPrintFlag := true }))
  | none => pure counts

/-- What is done under the lock. -/
def countLocked (checks : Bool) (counts : String → Option CallInfo) (call : CountCall) :
    Outcome ((String → Option CallInfo) × CallReport) := do
  let (counts, report) ← updateCallCountsLocked checks counts call.funcName call.currTime
  if report.isOverThreshold then
    let counts ← logOverThreshold counts call.funcName call.uri
    pure (counts, report)
  else pure (counts, report)

/-- `count`. What a panic leaves behind the lock is never seen. -/
def count (checks : Bool) (reporter : CallReporter) (call : CountCall) :
    CallReporter × Outcome Bool :=
  if reporter.poisoned then (reporter, .panic)
  else
    match countLocked checks reporter.callCounts call with
    | .ok (counts, report) =>
      ({ reporter with callCounts := counts },
        if call.now < 0 then pure report.isOverThreshold
        else do
          let _anonymousUri ← anonymous call.uri
          pure report.isOverThreshold)
    | _ => ({ reporter with poisoned := true }, .panic)

end CallReporter

/-! ## Counting -/

theorem increment_eq (checks : Bool) {n : Int32} (h : n.toInt < 2 ^ 31 - 1) :
    increment checks n = .ok (n + 1) ∧ (n + 1).toInt = n.toInt + 1 := by
  have hle : -2 ^ 31 ≤ n.toInt := Int32.le_toInt n
  refine ⟨if_neg fun hmax => ?_, ?_⟩
  · rw [hmax.2] at h
    exact absurd h (by decide)
  · rw [Int32.toInt_add]
    exact Int.bmod_eq_of_le (by simp; omega) (by simp; omega)

namespace CallInfo

/-- What is known of the counters of a function. -/
structure Counted (callInfo : CallInfo) : Prop where
  count_nonneg : 0 ≤ callInfo.count.toInt
  count_lt : callInfo.count.toInt < 100
  total_pos : 0 < callInfo.totalCount.toInt

/-- The window of a function. -/
def window (callInfo : CallInfo) : CallWindow where
  start := callInfo.startTime
  total := callInfo.totalCount.toInt.toNat

theorem countCall_eq (checks : Bool) {callInfo : CallInfo} (hnonneg : 0 ≤ callInfo.count.toInt)
    (hlt : callInfo.count.toInt < 100) (currTime : ℤ) : ∃ callInfo' report,
      callInfo.countCall checks currTime = .ok (callInfo', report) ∧
      0 ≤ callInfo'.count.toInt ∧ callInfo'.count.toInt < 100 ∧
      callInfo'.totalCount = callInfo.totalCount ∧ callInfo'.startTime = callInfo.startTime := by
  have hmax : callInfo.count.toInt < 2 ^ 31 - 1 := by omega
  obtain ⟨hincrement, hsucc⟩ := increment_eq checks hmax
  rw [countCall, hincrement, Outcome.ok_bind]
  by_cases hreset : (callInfo.count + 1) % resetCountThreshold = 0
  · rw [if_pos hreset]
    exact ⟨_, _, rfl, le_rfl, (by decide : (0 : Int32).toInt < 100), rfl, rfl⟩
  · rw [if_neg hreset]
    have hne : callInfo.count + 1 ≠ 100 := fun heq => hreset (by rw [heq]; decide)
    have hne' : (callInfo.count + 1).toInt ≠ 100 := fun heq => hne (Int32.toInt_inj.mp heq)
    refine ⟨_, _, rfl, ?_, ?_, rfl, rfl⟩
    · show 0 ≤ (callInfo.count + 1).toInt
      omega
    · show (callInfo.count + 1).toInt < 100
      omega

/-- A call that the counter of the window has room for. -/
def HasRoom (callInfo : CallInfo) (currTime : ℤ) : Prop :=
  currTime - callInfo.startTime < timeThreshold → callInfo.totalCount < Int32.maxValue

/-- The threshold is that of the window. -/
theorem threshold_eq (start : ℤ) {n : Int32} (h : 0 < n.toInt) :
    decide (n ≥ accessCountThreshold) = CallWindow.flags 3000 ⟨start, n.toInt.toNat⟩ := by
  have hthreshold : accessCountThreshold.toInt = 3000 := by decide
  refine decide_eq_decide.mpr ?_
  rw [ge_iff_le, Int32.le_iff_toInt_le, hthreshold]
  dsimp only
  omega

theorem countTotal_eq (checks : Bool) {callInfo : CallInfo} (report : CallReport) {currTime : ℤ}
    (hnew : callInfo.totalCount = 0 ∨ 0 < callInfo.totalCount.toInt ∧
      callInfo.startTime ≤ currTime ∧ callInfo.HasRoom currTime) :
    ∃ callInfo' report', callInfo.countTotal checks report currTime = .ok (callInfo', report') ∧
      callInfo'.count = callInfo.count ∧ 0 < callInfo'.totalCount.toInt ∧
      callInfo'.window = CallWindow.next timeThreshold
        (if callInfo.totalCount = 0 then none else some callInfo.window) currTime ∧
      report'.isOverThreshold = CallWindow.flags 3000 callInfo'.window := by
  have hfirst : increment checks 0 = .ok 1 := (increment_eq checks (n := 0) (by decide)).1
  have hone : 0 < (1 : Int32).toInt := by decide
  by_cases hzero : callInfo.totalCount = 0
  · rw [countTotal, if_pos hzero, if_pos hzero, if_neg (by simp [timeThreshold])]
    dsimp only
    rw [hzero, hfirst, Outcome.ok_bind]
    exact ⟨_, _, rfl, rfl, hone, rfl, threshold_eq currTime hone⟩
  obtain ⟨hpos, hstart, hroom⟩ := hnew.resolve_left hzero
  rw [countTotal, if_neg hzero, if_neg hzero]
  by_cases hover : currTime - callInfo.startTime ≥ timeThreshold
  · rw [if_pos (.inl hover)]
    dsimp only
    rw [hfirst, Outcome.ok_bind]
    refine ⟨_, _, rfl, rfl, hone, ?_, threshold_eq currTime hone⟩
    exact (if_neg (not_lt.mpr hover)).symm
  · have hmax : callInfo.totalCount.toInt < 2 ^ 31 - 1 :=
      Int32.lt_iff_toInt_lt.mp (hroom (lt_of_not_ge hover))
    obtain ⟨hincrement, hsucc⟩ := increment_eq checks hmax
    rw [if_neg fun h => h.elim hover (not_lt.mpr hstart)]
    dsimp only
    have hpos' : 0 < (callInfo.totalCount + 1).toInt := by omega
    rw [hincrement, Outcome.ok_bind]
    refine ⟨_, _, rfl, rfl, hpos', ?_, threshold_eq callInfo.startTime hpos'⟩
    · rw [CallWindow.next]
      refine Eq.trans ?_ (if_pos (lt_of_not_ge hover)).symm
      refine congrArg (CallWindow.mk callInfo.startTime) ?_
      show (callInfo.totalCount + 1).toInt.toNat = callInfo.totalCount.toInt.toNat + 1
      omega

end CallInfo

/-! ## Runs of calls -/

namespace CallReporter

/-- The result of a call in the log. -/
abbrev Entry : Type :=
  CountCall × Outcome Bool

def step (checks : Bool) (reporter : CallReporter) (call : CountCall) :
    CallReporter × List Entry :=
  ((count checks reporter call).1, [(call, (count checks reporter call).2)])

/-- The window of a function. -/
def windowOf (reporter : CallReporter) (funcName : String) : Option CallWindow :=
  (reporter.callCounts funcName).map CallInfo.window

/-- What the reporter takes a call with : a time, a uri that `anonymous` does not cut inside of a
character, and room for the call in the counter of its window. -/
structure Takes (reporter : CallReporter) (call : CountCall) : Prop where
  time : 0 ≤ call.currTime
  uri : size call.uri.toList ≤ StringUtils.endSize ∨ ∃ before rest : String,
    call.uri = before ++ rest ∧ size rest.toList = StringUtils.endSize
  room : ∀ w, reporter.windowOf call.funcName = some w →
    call.currTime - w.start < timeThreshold → w.total < 2 ^ 31 - 1

/-- What is known of the reporter after calls up to a time. -/
structure Kept (reporter : CallReporter) (time : ℤ) : Prop where
  sound : reporter.poisoned = false
  counted : ∀ funcName callInfo, reporter.callCounts funcName = some callInfo →
    callInfo.Counted ∧ callInfo.startTime ≤ time

theorem Kept.mono {reporter : CallReporter} {time time' : ℤ} (h : Kept reporter time)
    (hle : time ≤ time') : Kept reporter time' where
  sound := h.sound
  counted funcName callInfo hinfo :=
    ⟨(h.counted funcName callInfo hinfo).1, (h.counted funcName callInfo hinfo).2.trans hle⟩

theorem Takes.anonymous {reporter : CallReporter} {call : CountCall} (h : Takes reporter call) :
    ∃ s, anonymous call.uri = .ok s := by
  obtain ⟨rest, hrest, -⟩ := (anonymized_iff call.uri).mpr h.uri
  exact ⟨_, hrest⟩

theorem updateCallCountsLocked_eq (checks : Bool) {reporter : CallReporter} {call : CountCall}
    (hkept : Kept reporter call.currTime) (h : Takes reporter call) : ∃ callInfo report,
      updateCallCountsLocked checks reporter.callCounts call.funcName call.currTime =
        .ok (Function.update reporter.callCounts call.funcName (some callInfo), report) ∧
      callInfo.Counted ∧
      callInfo.window =
        CallWindow.next timeThreshold (reporter.windowOf call.funcName) call.currTime ∧
      report.isOverThreshold = CallWindow.flags 3000 callInfo.window := by
  have hinfo : ∀ callInfo, reporter.callCounts call.funcName = some callInfo →
      callInfo.Counted ∧ callInfo.startTime ≤ call.currTime ∧ callInfo.HasRoom call.currTime := by
    intro callInfo hsome
    obtain ⟨hcounted, hstart⟩ := hkept.counted _ _ hsome
    refine ⟨hcounted, hstart, fun hin => Int32.lt_iff_toInt_lt.mpr ?_⟩
    have hroom := h.room callInfo.window (congrArg (Option.map CallInfo.window) hsome) hin
    have hpos := hcounted.total_pos
    have hmax : Int32.maxValue.toInt = 2 ^ 31 - 1 := by decide
    rw [CallInfo.window] at hroom
    dsimp only at hroom
    omega
  rw [updateCallCountsLocked, if_neg (not_lt.mpr h.time), windowOf]
  cases hsome : reporter.callCounts call.funcName with
  | none =>
    obtain ⟨info, report, hcall, hnonneg, hlt, htotal, -⟩ :=
      @CallInfo.countCall_eq checks {} (by decide) (by decide)
        call.currTime
    obtain ⟨info', report', heq, hcount, hpos, hwindow, hflag⟩ :=
      @CallInfo.countTotal_eq checks info report call.currTime (.inl htotal)
    rw [Option.getD_none, hcall, Outcome.ok_bind]
    dsimp only
    rw [heq, Outcome.ok_bind]
    exact ⟨info', report', rfl, ⟨hcount ▸ hnonneg, hcount ▸ hlt, hpos⟩,
      hwindow.trans (by rw [if_pos htotal]; rfl), hflag⟩
  | some callInfo =>
    obtain ⟨hcounted, hstart, hroom⟩ := hinfo callInfo hsome
    obtain ⟨info, report, hcall, hnonneg, hlt, htotal, htime⟩ :=
      CallInfo.countCall_eq checks hcounted.count_nonneg hcounted.count_lt
        call.currTime
    have hpos : 0 < info.totalCount.toInt := htotal ▸ hcounted.total_pos
    have hne : info.totalCount ≠ 0 := fun heq => by
      rw [heq] at hpos
      exact absurd hpos (by decide)
    have hwindow : info.window = callInfo.window := by
      rw [CallInfo.window, htotal, htime]
      rfl
    obtain ⟨info', report', heq, hcount, hpos', hnext, hflag⟩ :=
      CallInfo.countTotal_eq checks report
        (.inr ⟨hpos, htime ▸ hstart, fun hin => htotal ▸ hroom (htime ▸ hin)⟩)
    rw [Option.getD_some, hcall, Outcome.ok_bind]
    dsimp only
    rw [heq, Outcome.ok_bind]
    refine ⟨info', report', rfl, ⟨hcount ▸ hnonneg, hcount ▸ hlt, hpos'⟩, hnext.trans ?_, hflag⟩
    rw [if_neg hne, hwindow]
    rfl

theorem logOverThreshold_eq {counts : String → Option CallInfo} {funcName uri s : String}
    (callInfo : CallInfo) (h : anonymous uri = .ok s) :
    logOverThreshold (Function.update counts funcName (some callInfo)) funcName uri =
      .ok (Function.update counts funcName (some { callInfo with logPrintFlag := true })) := by
  rw [logOverThreshold, Function.update_self]
  dsimp only
  split
  · next hflag =>
    rw [← hflag]
    rfl
  · rw [h, Outcome.ok_bind, Function.update_idem]
    rfl

/-- What a call does to the windows, and what it returns. -/
theorem count_spec (checks : Bool) {reporter : CallReporter} {call : CountCall}
    (hkept : Kept reporter call.currTime) (h : Takes reporter call) :
    Kept (count checks reporter call).1 call.currTime ∧
      (∀ funcName, (count checks reporter call).1.windowOf funcName =
        if funcName = call.funcName then
          some (CallWindow.next timeThreshold (reporter.windowOf call.funcName) call.currTime)
        else reporter.windowOf funcName) ∧
      (count checks reporter call).2 = .ok (CallWindow.flags 3000
        (CallWindow.next timeThreshold (reporter.windowOf call.funcName) call.currTime)) := by
  obtain ⟨callInfo, report, hupdate, hcounted, hwindow, hflag⟩ :=
    updateCallCountsLocked_eq checks hkept h
  obtain ⟨s, hs⟩ := h.anonymous
  obtain ⟨info, hlocked, hinfo⟩ : ∃ info : CallInfo,
      countLocked checks reporter.callCounts call =
        .ok (Function.update reporter.callCounts call.funcName (some info), report) ∧
      (info = callInfo ∨ info = { callInfo with logPrintFlag := true }) := by
    rw [countLocked, hupdate, Outcome.ok_bind]
    dsimp only
    split
    · rw [logOverThreshold_eq callInfo hs, Outcome.ok_bind]
      exact ⟨_, rfl, .inr rfl⟩
    · exact ⟨_, rfl, .inl rfl⟩
  have hsame : info.Counted ∧ info.window = callInfo.window := by
    rcases hinfo with rfl | rfl
    · exact ⟨hcounted, rfl⟩
    · exact ⟨⟨hcounted.count_nonneg, hcounted.count_lt, hcounted.total_pos⟩, rfl⟩
  have hstart : info.startTime ≤ call.currTime := by
    have hnext : info.window.start ≤ call.currTime := by
      rw [hsame.2, hwindow]
      refine CallWindow.start_next_le fun w hw => ?_
      obtain ⟨old, hold, rfl⟩ := Option.map_eq_some_iff.mp hw
      exact (hkept.counted _ _ hold).2
    exact hnext
  have hcount : count checks reporter call =
      ({ reporter with
          callCounts := Function.update reporter.callCounts call.funcName (some info) },
        .ok report.isOverThreshold) := by
    rw [count, if_neg (by simp [hkept.sound]), hlocked]
    dsimp only
    rw [hs, Outcome.ok_bind]
    split <;> rfl
  have hlookup : ∀ funcName, (count checks reporter call).1.callCounts funcName =
      if funcName = call.funcName then some info else reporter.callCounts funcName := fun f => by
    rw [hcount]
    exact Function.update_apply ..
  refine ⟨⟨?_, fun funcName found hfound => ?_⟩, fun funcName => ?_, ?_⟩
  · rw [hcount]
    exact hkept.sound
  · rw [hlookup] at hfound
    split at hfound
    · obtain rfl := Option.some_inj.mp hfound
      exact ⟨hsame.1, hstart⟩
    · exact hkept.counted funcName found hfound
  · rw [windowOf, hlookup]
    split
    · rw [Option.map_some, hsame.2, hwindow]
    · rfl
  · rw [hcount, hflag, hwindow]

theorem kept_new (time : ℤ) : Kept {} time :=
  ⟨rfl, fun _ _ h => absurd h (by simp)⟩

/-- The times of the calls of a function. -/
def timesOf (funcName : String) (calls : List CountCall) : List ℤ :=
  (calls.filter (·.funcName = funcName)).map (·.currTime)

/-- The calls of a function in the log. -/
def entriesOf (funcName : String) (log : List Entry) : List Entry :=
  log.filter (·.1.funcName = funcName)

/-- An entry as a counter of windows has it. -/
def flagged (e : Entry) : FlaggedCall :=
  (e.1.currTime, e.2 = .ok true)

theorem timesOf_concat (funcName : String) (calls : List CountCall) (call : CountCall) :
    timesOf funcName (calls ++ [call]) =
      timesOf funcName calls ++ if call.funcName = funcName then [call.currTime] else [] := by
  rw [timesOf, List.filter_append, List.map_append, timesOf]
  by_cases h : call.funcName = funcName <;> simp [h]

theorem entriesOf_concat (funcName : String) (log : List Entry) (e : Entry) :
    entriesOf funcName (log ++ [e]) =
      entriesOf funcName log ++ if e.1.funcName = funcName then [e] else [] := by
  rw [entriesOf, List.filter_append, entriesOf]
  by_cases h : e.1.funcName = funcName <;> simp [h]

/-- A function sees the counter of its windows, whatever the others call. -/
theorem run_view {checks : Bool} {calls : List CountCall}
    (hcalls : calls.Pairwise fun c c' => c.currTime ≤ c'.currTime)
    (h : AllowedRun (step checks) Takes {} calls) :
    (∀ time, (∀ c ∈ calls, c.currTime ≤ time) → Kept (runCalls (step checks) {} calls).1 time) ∧
    ∀ funcName, (runCalls (step checks) {} calls).1.windowOf funcName =
        (runCalls (CallWindow.step timeThreshold 3000) none (timesOf funcName calls)).1 ∧
      (entriesOf funcName (runCalls (step checks) {} calls).2).map flagged =
        (runCalls (CallWindow.step timeThreshold 3000) none (timesOf funcName calls)).2 := by
  induction calls using List.reverseRecOn with
  | nil => exact ⟨fun time _ => kept_new time, fun funcName => ⟨rfl, rfl⟩⟩
  | append_singleton calls call ih =>
    obtain ⟨hpair, -, hlast⟩ := List.pairwise_append.mp hcalls
    obtain ⟨hrun, htakes⟩ := allowedRun_concat.mp h
    obtain ⟨hkept, hview⟩ := ih hpair hrun
    obtain ⟨hkept', hwindow, hresult⟩ := count_spec checks
      (hkept call.currTime fun c hc => hlast c hc call (List.mem_singleton_self call)) htakes
    rw [runCalls_concat]
    refine ⟨fun time htime => hkept'.mono (htime call (by simp)), fun funcName => ?_⟩
    obtain ⟨hstate, hlog⟩ := hview funcName
    rw [timesOf_concat, advance]
    dsimp only
    rw [step, entriesOf_concat]
    dsimp only
    rw [hwindow, List.map_append, hlog]
    by_cases heq : call.funcName = funcName
    · subst heq
      rw [if_pos rfl, if_pos rfl, if_pos rfl, runCalls_concat, advance, hstate]
      refine ⟨rfl, congrArg _ ?_⟩
      rw [List.map_singleton, flagged, hresult, hstate]
      simp [CallWindow.step]
    · rw [if_neg fun h => heq h.symm, if_neg heq, if_neg heq, List.append_nil, hstate]
      exact ⟨rfl, List.append_nil _⟩

/-! ## What is reported -/

/-- A call that is reported has 3000 calls of its function in the 30 seconds up to it. -/
def Sound (log : List Entry) : Prop :=
  ∀ before e after, log = before ++ e :: after → e.2 = .ok true →
    3000 ≤ (before ++ [e]).countP fun c => c.1.funcName = e.1.funcName ∧
      e.1.currTime - 30000 < c.1.currTime ∧ c.1.currTime ≤ e.1.currTime

/-- Some call of 5999 calls of a function within 30 seconds is reported. -/
def NotBlind (log : List Entry) : Prop :=
  ∀ funcName time, 5999 ≤ (log.countP fun e => e.1.funcName = funcName ∧
      time ≤ e.1.currTime ∧ e.1.currTime ≤ time + 30000) →
    ∃ e ∈ log, e.1.funcName = funcName ∧ time ≤ e.1.currTime ∧ e.1.currTime ≤ time + 30000 ∧
      e.2 = .ok true

/-- The calls of a function return what they return without the calls of the others. -/
def Separate (checks : Bool) (calls : List CountCall) : Prop :=
  ∀ funcName, entriesOf funcName (runCalls (step checks) {} calls).2 =
    (runCalls (step checks) {} (calls.filter (·.funcName = funcName))).2

theorem sound_of_flagged {log : List Entry}
    (h : ∀ funcName, CallWindow.Sound 30000 3000 ((entriesOf funcName log).map flagged)) :
    Sound log := by
  rintro before e after rfl hflag
  have hsplit : (entriesOf e.1.funcName (before ++ e :: after)).map flagged =
      (entriesOf e.1.funcName before).map flagged ++
        flagged e :: (entriesOf e.1.funcName after).map flagged := by
    simp [entriesOf]
  have hmany := h e.1.funcName _ _ _ hsplit (decide_eq_true hflag)
  have hmap : (entriesOf e.1.funcName before).map flagged ++ [flagged e] =
      (entriesOf e.1.funcName (before ++ [e])).map flagged := by
    simp [entriesOf]
  rw [hmap, List.countP_map, entriesOf, List.countP_filter] at hmany
  refine hmany.trans (List.countP_mono_left fun c _ hc => ?_)
  obtain ⟨hclose, hname⟩ := Bool.and_eq_true_iff.mp hc
  exact decide_eq_true ⟨of_decide_eq_true hname, of_decide_eq_true hclose⟩

theorem notBlind_of_flagged {log : List Entry}
    (h : ∀ funcName, CallWindow.NotBlind 30000 3000 ((entriesOf funcName log).map flagged)) :
    NotBlind log := by
  intro funcName time hmany
  obtain ⟨e, he, hstart, hstop, hflag⟩ := h funcName time (by
    rw [List.countP_map, entriesOf, List.countP_filter]
    refine lt_of_lt_of_le (by decide) (hmany.trans (List.countP_mono_left fun c _ hc => ?_))
    obtain ⟨hname, hin⟩ := of_decide_eq_true hc
    exact Bool.and_eq_true_iff.mpr ⟨decide_eq_true hin, decide_eq_true hname⟩)
  obtain ⟨entry, hentry, rfl⟩ := List.mem_map.mp he
  obtain ⟨hmem, hname⟩ := List.mem_filter.mp hentry
  exact ⟨entry, hmem, of_decide_eq_true hname, hstart, hstop, of_decide_eq_true hflag⟩

/-- The calls of a function alone are taken if they are with the others, and return the same. -/
theorem entriesOf_run {checks : Bool} {calls : List CountCall} {funcName : String}
    (hcalls : calls.Pairwise fun c c' => c.currTime ≤ c'.currTime)
    (h : AllowedRun (step checks) Takes {} calls) :
    AllowedRun (step checks) Takes {} (calls.filter (·.funcName = funcName)) ∧
      entriesOf funcName (runCalls (step checks) {} calls).2 =
        (runCalls (step checks) {} (calls.filter (·.funcName = funcName))).2 := by
  induction calls using List.reverseRecOn with
  | nil => exact ⟨allowedRun_nil, rfl⟩
  | append_singleton calls call ih =>
    obtain ⟨hpair, -, hlast⟩ := List.pairwise_append.mp hcalls
    obtain ⟨hrun, htakes⟩ := allowedRun_concat.mp h
    obtain ⟨halone, hlog⟩ := ih hpair hrun
    have hlast' (c : CountCall) (hc : c ∈ calls) : c.currTime ≤ call.currTime :=
      hlast c hc call (List.mem_singleton_self call)
    rw [List.filter_append, runCalls_concat, advance]
    dsimp only
    rw [step, entriesOf_concat, hlog]
    dsimp only
    by_cases hname : call.funcName = funcName
    · subst hname
      have hself : [call].filter (fun c => c.funcName = call.funcName) = [call] := by simp
      have hpair' : (calls.filter (·.funcName = call.funcName)).Pairwise
          fun c c' => c.currTime ≤ c'.currTime :=
        hpair.filter _
      obtain ⟨hkept, hview⟩ := run_view hpair hrun
      obtain ⟨hkept', hview'⟩ := run_view hpair' halone
      have hwindow : (runCalls (step checks) {}
          (calls.filter (·.funcName = call.funcName))).1.windowOf call.funcName =
            (runCalls (step checks) {} calls).1.windowOf call.funcName := by
        rw [(hview call.funcName).1, (hview' call.funcName).1, timesOf, timesOf,
          List.filter_filter]
        simp only [Bool.and_self]
      have htakes' : Takes (runCalls (step checks) {}
          (calls.filter (·.funcName = call.funcName))).1 call :=
        ⟨htakes.time, htakes.uri, hwindow ▸ htakes.room⟩
      obtain ⟨-, -, hresult⟩ := count_spec checks
        (hkept call.currTime hlast') htakes
      obtain ⟨-, -, hresult'⟩ := count_spec checks
        (hkept' call.currTime fun c hc => hlast' c (List.mem_of_mem_filter hc)) htakes'
      rw [hself, if_pos rfl, runCalls_concat, advance, step]
      refine ⟨allowedRun_concat.mpr ⟨halone, htakes'⟩, ?_⟩
      rw [hresult, hresult', hwindow]
    · have hother : [call].filter (fun c => c.funcName = funcName) = [] := by simp [hname]
      rw [hother, List.append_nil, if_neg hname, List.append_nil]
      exact ⟨halone, rfl⟩

/-- In a run of calls in the order of their times, each of which the reporter takes, it reports
no function too early, none by the calls of others, and each with too many calls. -/
theorem run_reports (checks : Bool) (calls : List CountCall)
    (hcalls : calls.Pairwise fun c c' => c.currTime ≤ c'.currTime)
    (h : AllowedRun (step checks) Takes {} calls) :
    Sound (runCalls (step checks) {} calls).2 ∧ NotBlind (runCalls (step checks) {} calls).2 ∧
      Separate checks calls := by
  have hwindows (funcName : String) : CallWindow.Sound 30000 3000
        ((entriesOf funcName (runCalls (step checks) {} calls).2).map flagged) ∧
      CallWindow.NotBlind 30000 3000
        ((entriesOf funcName (runCalls (step checks) {} calls).2).map flagged) := by
    rw [((run_view hcalls h).2 funcName).2]
    have htimes : (timesOf funcName calls).Pairwise (· ≤ ·) :=
      List.pairwise_map.mpr (hcalls.filter _)
    exact CallWindow.run_flags (by decide) htimes
  exact ⟨sound_of_flagged fun f => (hwindows f).1, notBlind_of_flagged fun f => (hwindows f).2,
    fun f => (entriesOf_run hcalls h).2⟩

/-- What the log is about. -/
theorem map_fst_log (checks : Bool) (reporter : CallReporter) (calls : List CountCall) :
    (runCalls (step checks) reporter calls).2.map Prod.fst = calls := by
  induction calls using List.reverseRecOn with
  | nil => rfl
  | append_singleton calls call ih =>
    rw [runCalls_concat, advance]
    dsimp only
    rw [List.map_append, ih]
    rfl

/-- A run too short to fill a counter is taken, if the times and the uris of its calls are. -/
theorem allowedRun_of_length {checks : Bool} {calls : List CountCall}
    (hcalls : calls.Pairwise fun c c' => c.currTime ≤ c'.currTime)
    (htimes : ∀ c ∈ calls, 0 ≤ c.currTime)
    (huris : ∀ c ∈ calls, size c.uri.toList ≤ StringUtils.endSize)
    (hlength : calls.length < 2 ^ 31) : AllowedRun (step checks) Takes {} calls := by
  induction calls using List.reverseRecOn with
  | nil => exact allowedRun_nil
  | append_singleton calls call ih =>
    rw [List.length_append, List.length_singleton] at hlength
    have hpair := (List.pairwise_append.mp hcalls).1
    have hrun := ih hpair (fun c hc => htimes c (List.mem_append_left _ hc))
      (fun c hc => huris c (List.mem_append_left _ hc)) (by omega)
    refine allowedRun_concat.mpr ⟨hrun, htimes call (by simp), .inl (huris call (by simp)), ?_⟩
    intro w hw _
    rw [((run_view hpair hrun).2 call.funcName).1] at hw
    have htotal := CallWindow.total_le hw
    have hle : (timesOf call.funcName calls).length ≤ calls.length := by
      rw [timesOf, List.length_map]
      exact List.length_filter_le _ _
    omega

/-- A query is called 5999 times at once, and then something else. -/
def busyCalls : List CountCall :=
  List.replicate 5999 ⟨"query", "uri", 5, 6⟩ ++ [⟨"insert", "uri", 5, 6⟩]

theorem mem_busyCalls {c : CountCall} (h : c ∈ busyCalls) : c.currTime = 5 ∧ c.uri = "uri" := by
  rcases List.mem_append.mp h with h | h
  · rw [List.eq_of_mem_replicate h]
    exact ⟨rfl, rfl⟩
  · rw [List.mem_singleton.mp h]
    exact ⟨rfl, rfl⟩

/-- Some of the queries are reported, the other call is not. -/
theorem run_reports_query : (Sound (runCalls (step true) {} busyCalls).2 ∧
    NotBlind (runCalls (step true) {} busyCalls).2 ∧ Separate true busyCalls) ∧
      ∃ e ∈ (runCalls (step true) {} busyCalls).2, e.1.funcName = "query" ∧ e.2 = .ok true := by
  have hpair : busyCalls.Pairwise fun c c' => c.currTime ≤ c'.currTime :=
    List.pairwise_of_forall_mem_list fun c hc c' hc' => by
      rw [(mem_busyCalls hc).1, (mem_busyCalls hc').1]
  have hreports := run_reports true busyCalls hpair (allowedRun_of_length hpair
    (fun c hc => by rw [(mem_busyCalls hc).1]; decide)
    (fun c hc => by rw [(mem_busyCalls hc).2]; decide)
    (by rw [busyCalls, List.length_append, List.length_replicate]; decide))
  refine ⟨hreports, ?_⟩
  obtain ⟨e, he, hname, -, -, hflag⟩ := hreports.2.1 "query" 5 (by
    have hmap := congrArg (List.countP fun c : CountCall => c.funcName = "query" ∧
      5 ≤ c.currTime ∧ c.currTime ≤ 5 + 30000) (map_fst_log true {} busyCalls)
    rw [List.countP_map, busyCalls, List.countP_append, List.countP_replicate, if_pos (by decide)]
      at hmap
    exact hmap.ge.trans' (Nat.le_add_right _ _))
  exact ⟨e, he, hname, hflag⟩

/-! ## A uri that is cut -/

/-- A call with a uri that is cut panics, at the latest as it ends. -/
theorem count_panic {checks : Bool} {reporter : CallReporter} {call : CountCall}
    (huri : anonymous call.uri = .panic) (hnow : 0 ≤ call.now) :
    (count checks reporter call).2 = .panic := by
  rw [count]
  split
  · rfl
  · split
    · dsimp only
      rw [if_neg (not_lt.mpr hnow), huri]
      rfl
    · rfl

theorem run_panic (checks : Bool) {calls : List CountCall}
    (h : ∀ c ∈ calls, anonymous c.uri = .panic ∧ 0 ≤ c.now) :
    ∀ e ∈ (runCalls (step checks) {} calls).2, e.2 = .panic := by
  induction calls using List.reverseRecOn with
  | nil => exact fun e he => absurd he List.not_mem_nil
  | append_singleton calls call ih =>
    have hpanic := ih fun c hc => h c (List.mem_append_left _ hc)
    obtain ⟨huri, hnow⟩ := h call (by simp)
    rw [runCalls_concat, advance]
    intro e he
    rcases List.mem_append.mp he with he | he
    · exact hpanic e he
    · rw [List.mem_singleton.mp he]
      exact count_panic huri hnow

/-- A uri that is cut is never reported, however often it is called. -/
theorem blind_of_cut : ¬∀ calls : List CountCall,
    calls.Pairwise (fun c c' => c.currTime ≤ c'.currTime) →
      NotBlind (runCalls (step true) {} calls).2 := by
  intro h
  have hcut : anonymous "é123456789" = .panic := by decide +kernel
  have hcalls := @run_panic true
    (List.replicate 5999 ⟨"query", "é123456789", 0, 0⟩) fun c hc => by
      rw [List.eq_of_mem_replicate hc]
      exact ⟨hcut, le_rfl⟩
  obtain ⟨e, he, -, -, -, hflag⟩ := h (List.replicate 5999 ⟨"query", "é123456789", 0, 0⟩)
    (List.pairwise_replicate.mpr (.inr le_rfl)) "query" 0 (by
      have hmap := congrArg (List.countP fun c : CountCall =>
        c.funcName = "query" ∧ 0 ≤ c.currTime ∧ c.currTime ≤ 0 + 30000) (map_fst_log true {}
          (List.replicate 5999 ⟨"query", "é123456789", 0, 0⟩))
      rw [List.countP_map, List.countP_replicate, if_pos (by decide)] at hmap
      exact hmap.ge)
  rw [hcalls e he] at hflag
  cases hflag

end CallReporter

end Rust

end DataShare
