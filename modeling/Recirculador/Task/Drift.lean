/-
The drift of the software clock.

`tickTimestamp` runs once a second, counted from when it last ran and not from when it
was due, so every delay is added to all later seconds.  The run counts the calls of the
handler that found the task due and did not run it; the clock keeps its bound until
these calls add up to a second.
-/
import Recirculador.Rtc.Epoch
import Recirculador.Task.Starvation

namespace Recirculador
namespace Task

open Scheduler

/-- The scheduler with the history of one slot since its task first ran: the calls of
the handler, how often the task ran again, and the calls that passed it over. -/
structure Clock where
  sched : Scheduler Registers
  started : Bool
  elapsed : Nat
  increments : Nat
  late : Nat

inductive ClockEvent
  | sysTick
  | pause (on : Bool)
  | others (taskVet : Nat → TaskS Registers)
  | registers (memory : Registers)

/-- The scheduler `n` calls later, if nothing runs. -/
def Scheduler.wait (s : Scheduler Registers) (n : Nat) : Scheduler Registers :=
  { s with sysTickCount := s.sysTickCount + BitVec.ofNat 64 n }

theorem Scheduler.wait_zero (s : Scheduler Registers) : s.wait 0 = s := by
  rw [wait, BitVec.add_zero]

theorem Scheduler.wait_one (s : Scheduler Registers) : s.wait 1 = s.tick := rfl

theorem Scheduler.tick_wait (s : Scheduler Registers) (n : Nat) :
    s.tick.wait n = s.wait (n + 1) := by
  have hcount : s.sysTickCount + 1 + BitVec.ofNat 64 n =
      s.sysTickCount + BitVec.ofNat 64 (n + 1) := by bv_omega
  rw [wait, wait, ← hcount]
  rfl

namespace Clock

/-- A call of the handler and its entry in the history. -/
def sysTick (k : Nat) (c : Clock) : Clock :=
  let result := c.sched.sysTickHandler
  let ranNow := decide (result.1 = some k)
  if c.started then
    { sched := result.2
      started := true
      elapsed := c.elapsed + 1
      increments := if ranNow then c.increments + 1 else c.increments
      late := if c.sched.tick.Due k && !ranNow then c.late + 1 else c.late }
  else { c with sched := result.2, started := ranNow }

/-- Between the calls everything but slot `k` may change. -/
def step (k : Nat) (c : Clock) : ClockEvent → Clock
  | .sysTick => c.sysTick k
  | .pause on => { c with sched := { c.sched with pause := on } }
  | .others taskVet =>
    { c with sched := { c.sched with
        taskVet := fun j => if j = k then c.sched.taskVet k else taskVet j } }
  | .registers memory => { c with sched := { c.sched with memory } }

/-- `tickTimestamp` as `setup` registers it, at 500 microseconds a call. -/
structure Ticks (k : Nat) (s : Scheduler Registers) : Prop where
  dTUs : s.dTUs = 500
  ptrFunc : (s.taskVet k).ptrFunc = some fun _ => tickTimestamp
  dtUs : (s.taskVet k).dtUs = 1000000

/-- Nothing has been counted. -/
structure Blank (c : Clock) : Prop where
  elapsed : c.elapsed = 0
  increments : c.increments = 0
  late : c.late = 0

/-- The task is registered and has not run. -/
structure Start (k : Nat) (c : Clock) : Prop where
  ticks : Ticks k c.sched
  started : c.started = false
  blank : c.Blank

/-- The time since the first run in whole seconds, less one, does not exceed the runs
since then. -/
def NoDrift (c : Clock) : Prop :=
  c.started = true → c.elapsed * c.sched.dTUs.toNat / 1000000 - 1 ≤ c.increments

/-- The calls that passed the task over make up a second at most. -/
def WithinSecond (c : Clock) : Prop := c.late ≤ 2000

/-- Each run starts at most `d` microseconds after the task became due. -/
def Punctual (k d : Nat) (c : Clock) : ClockEvent → Prop
  | .sysTick =>
    c.sched.ran = some k →
      (c.sched.tick.sysTickGetTimeUs - (c.sched.taskVet k).lastExecution).toNat ≤ 1000000 + d
  | _ => True

variable {k : Nat} {c : Clock}

/-! ## The age of the last run -/

/-- The last run is `age` calls old, and the calls since the first run were on time up to
the second the task waits for and late from there on. -/
structure Aged (k : Nat) (c : Clock) (age : Nat) : Prop where
  time : c.sched.sysTickGetTimeUs - (c.sched.taskVet k).lastExecution =
    BitVec.ofNat 64 (500 * age)
  age_le : age ≤ 1999 + c.late
  elapsed : c.elapsed = 2000 * c.increments + c.late + min age 1999

structure Inv (k : Nat) (c : Clock) : Prop where
  ticks : Ticks k c.sched
  unstarted : c.started = false → c.Blank
  aged : c.started = true → ∃ age, Aged k c age

theorem Start.inv (h : Start k c) : Inv k c where
  ticks := h.ticks
  unstarted := fun _ => h.blank
  aged := fun hstarted => Bool.noConfusion (h.started.symm.trans hstarted)

theorem tick_sysTickGetTimeUs (h : c.sched.dTUs = 500) :
    c.sched.tick.sysTickGetTimeUs = c.sched.sysTickGetTimeUs + 500 := by
  show c.sched.dTUs.setWidth 64 * (c.sched.sysTickCount + 1) =
    c.sched.dTUs.setWidth 64 * c.sched.sysTickCount + 500
  rw [BitVec.mul_add, h]
  rfl

/-- One call later. -/
theorem Ticks.tick_time (h : Ticks k c.sched) {age : Nat}
    (htime : c.sched.sysTickGetTimeUs - (c.sched.taskVet k).lastExecution =
      BitVec.ofNat 64 (500 * age)) :
    c.sched.tick.sysTickGetTimeUs - (c.sched.taskVet k).lastExecution =
      BitVec.ofNat 64 (500 * (age + 1)) := by
  rw [tick_sysTickGetTimeUs h.dTUs]
  bv_omega

/-- Due is whoever last ran two thousand calls ago. -/
theorem Ticks.due_iff {s : Scheduler Registers} (h : Ticks k s) {n : Nat}
    (hn : 500 * n < 0x10000000000000000)
    (htime : s.tick.sysTickGetTimeUs - (s.taskVet k).lastExecution = BitVec.ofNat 64 (500 * n)) :
    s.tick.Due k = true ↔ 2000 ≤ n := by
  have hsome : (s.tick.taskVet k).ptrFunc.isSome = true := by
    show (s.taskVet k).ptrFunc.isSome = true
    rw [h.ptrFunc]
    rfl
  have hperiod : ((s.tick.taskVet k).dtUs.setWidth 64).toNat = 1000000 := by
    show ((s.taskVet k).dtUs.setWidth 64).toNat = 1000000
    rw [h.dtUs]
    rfl
  have htime : s.tick.sysTickGetTimeUs - (s.tick.taskVet k).lastExecution =
      BitVec.ofNat 64 (500 * n) := htime
  rw [Due, hsome, Bool.true_and, decide_eq_true_iff, htime, ge_iff_le, BitVec.le_def, hperiod,
    BitVec.toNat_ofNat, Nat.mod_eq_of_lt hn]
  omega

/-- The task is due in the call that completes its second, and from then on. -/
theorem Aged.due_iff (h : Ticks k c.sched) {age : Nat} (haged : Aged k c age)
    (hlate : c.late ≤ 2000) : c.sched.tick.Due k = true ↔ 1999 ≤ age := by
  have hage := haged.age_le
  rw [h.due_iff (by omega) (h.tick_time haged.time)]
  omega

/-! ## One call -/

theorem sched_sysTick (k : Nat) (c : Clock) :
    (c.sysTick k).sched = c.sched.tick.executed c.sched.ran := by
  unfold sysTick
  rw [sysTickHandler_eq]
  dsimp only
  split <;> rfl

/-- A run is one more second in the register. -/
theorem intRegVet_sysTick (h : Ticks k c.sched) (hran : c.sched.ran = some k) :
    (c.sysTick k).sched.memory.intRegVet 0 = c.sched.memory.intRegVet 0 + 1 := by
  have hfunc : (c.sched.tick.taskVet k).ptrFunc = some fun _ => tickTimestamp := h.ptrFunc
  rw [sched_sysTick, hran]
  show (c.sched.tick.effect k).intRegVet 0 = _
  rw [effect_eq hfunc]
  exact Rtc.intRegVet_tickTimestamp _

theorem ticks_sysTick (h : Ticks k c.sched) : Ticks k (c.sysTick k).sched := by
  have hslot : (c.sysTick k).sched.taskVet k =
      if c.sched.ran = some k then (c.sched.tick.taskVet k).stamp c.sched.tick.sysTickGetTimeUs
      else c.sched.tick.taskVet k := by
    rw [sched_sysTick, executed_taskVet]
  constructor
  · rw [sched_sysTick, executed_dTUs]
    exact h.dTUs
  · rw [hslot]
    split
    · exact h.ptrFunc
    · exact h.ptrFunc
  · rw [hslot]
    split
    · exact h.dtUs
    · exact h.dtUs

/-- The time since the last run after a call. -/
theorem time_sysTick (k : Nat) (c : Clock) :
    (c.sysTick k).sched.sysTickGetTimeUs - ((c.sysTick k).sched.taskVet k).lastExecution =
      if c.sched.ran = some k then 0
      else c.sched.tick.sysTickGetTimeUs - (c.sched.taskVet k).lastExecution := by
  have hsame : (c.sched.tick.executed c.sched.ran).sysTickGetTimeUs =
      c.sched.tick.sysTickGetTimeUs := by
    rw [sysTickGetTimeUs, executed_dTUs, executed_sysTickCount]
    rfl
  rw [sched_sysTick, hsame, executed_taskVet]
  split
  · exact BitVec.sub_self _
  · rfl

/-- One call ages the last run or replaces it, and a late one leaves a whole second. -/
theorem Aged.sysTick (h : Ticks k c.sched) {age : Nat} (hstarted : c.started = true)
    (haged : Aged k c age) (hlate : c.late ≤ 2000) :
    (∃ age', Aged k (c.sysTick k) age') ∧
      ((c.sysTick k).late ≠ c.late →
        (c.sysTick k).elapsed = 2000 * (c.sysTick k).increments + (c.sysTick k).late + 1999) := by
  have hdue := haged.due_iff h hlate
  have htick := h.tick_time haged.time
  have htime := time_sysTick k c
  have hage := haged.age_le
  have helapsed := haged.elapsed
  have hstep : c.sysTick k =
      { sched := c.sched.tick.executed c.sched.ran
        started := true
        elapsed := c.elapsed + 1
        increments := if c.sched.ran = some k then c.increments + 1 else c.increments
        late := if c.sched.tick.Due k && !decide (c.sched.ran = some k) then c.late + 1
          else c.late } := by
    rw [Clock.sysTick, sysTickHandler_eq]
    dsimp only
    rw [if_pos hstarted]
    simp only [decide_eq_true_eq]
  by_cases hran : c.sched.ran = some k
  · -- The task runs.
    have hwhole := hdue.mp (ran_some hran).2.2
    rw [if_pos hran] at htime
    refine ⟨⟨0, htime, Nat.zero_le _, ?_⟩, fun hne => absurd ?_ hne⟩
    · rw [hstep]
      simp only [hran, decide_true, Bool.not_true, Bool.and_false, if_true, Bool.false_eq_true,
        if_false]
      omega
    · rw [hstep]
      simp only [hran, decide_true, Bool.not_true, Bool.and_false, Bool.false_eq_true, if_false]
  rw [if_neg hran, htick] at htime
  by_cases hwhole : 1999 ≤ age
  · -- It is due and passed over.
    have hpassed := hdue.mpr hwhole
    have hlater : (c.sysTick k).late = c.late + 1 := by
      rw [hstep]
      simp only [hran, hpassed, decide_false, Bool.not_false, Bool.and_true, if_true]
    have hwait : (c.sysTick k).elapsed =
        2000 * (c.sysTick k).increments + (c.sysTick k).late + 1999 := by
      rw [hlater, hstep]
      simp only [hran, if_false]
      omega
    refine ⟨⟨age + 1, htime, by omega, ?_⟩, fun _ => hwait⟩
    omega
  · -- It is not due yet.
    have hearly : c.sched.tick.Due k = false := by
      rw [Bool.eq_false_iff]
      exact fun hd => hwhole (hdue.mp hd)
    have hsame : (c.sysTick k).late = c.late := by
      rw [hstep]
      simp only [hearly, Bool.false_and, Bool.false_eq_true, if_false]
    refine ⟨⟨age + 1, htime, by omega, ?_⟩, fun hne => absurd hsame hne⟩
    rw [hsame, hstep]
    simp only [hran, if_false]
    omega

/-- The call in which the task runs for the first time. -/
theorem sysTick_unstarted (hstarted : c.started = false) :
    c.sysTick k = { c with
      sched := c.sched.tick.executed c.sched.ran
      started := decide (c.sched.ran = some k) } := by
  rw [Clock.sysTick, sysTickHandler_eq]
  dsimp only
  rw [if_neg (by rw [hstarted]; exact Bool.false_ne_true)]

theorem started_sysTick (hstarted : c.started = true) : (c.sysTick k).started = true := by
  rw [Clock.sysTick, if_pos hstarted]

theorem Inv.sysTick (h : Inv k c) (hlate : c.WithinSecond) : Inv k (c.sysTick k) := by
  cases hstarted : c.started with
  | false =>
    have hstep := sysTick_unstarted (k := k) hstarted
    have hblank := h.unstarted hstarted
    have hsame : (c.sysTick k).Blank := by
      rw [hstep]
      exact ⟨hblank.elapsed, hblank.increments, hblank.late⟩
    refine ⟨ticks_sysTick h.ticks, fun _ => hsame, fun hnow => ⟨0, ?_, Nat.zero_le _, ?_⟩⟩
    · rw [hstep] at hnow
      rw [time_sysTick, if_pos (of_decide_eq_true hnow)]
      rfl
    · rw [hsame.elapsed, hsame.increments, hsame.late]
      rfl
  | true =>
    obtain ⟨age, haged⟩ := h.aged hstarted
    refine ⟨ticks_sysTick h.ticks, fun hnot => ?_, fun _ => ?_⟩
    · exact Bool.noConfusion ((started_sysTick hstarted).symm.trans hnot)
    · exact (haged.sysTick h.ticks hstarted hlate).1

/-- What happens between the calls does not touch the slot. -/
theorem Inv.world (h : Inv k c) {s : Scheduler Registers} (hdTUs : s.dTUs = c.sched.dTUs)
    (hcount : s.sysTickCount = c.sched.sysTickCount) (hslot : s.taskVet k = c.sched.taskVet k) :
    Inv k { c with sched := s } := by
  have htime : s.sysTickGetTimeUs = c.sched.sysTickGetTimeUs := by
    rw [sysTickGetTimeUs, hdTUs, hcount]
    rfl
  refine ⟨⟨hdTUs.trans h.ticks.dTUs, ?_, ?_⟩, ?_, fun hstarted => ?_⟩
  · exact (congrArg TaskS.ptrFunc hslot).trans h.ticks.ptrFunc
  · exact (congrArg TaskS.dtUs hslot).trans h.ticks.dtUs
  · exact fun hstarted => ⟨(h.unstarted hstarted).elapsed, (h.unstarted hstarted).increments,
      (h.unstarted hstarted).late⟩
  · obtain ⟨age, haged⟩ := h.aged hstarted
    refine ⟨age, ?_, haged.age_le, haged.elapsed⟩
    show s.sysTickGetTimeUs - (s.taskVet k).lastExecution = _
    rw [htime, hslot]
    exact haged.time

theorem Inv.step (c : Clock) (e : ClockEvent) (h : Inv k c) (hlate : c.WithinSecond) :
    Inv k (c.step k e) := by
  cases e with
  | sysTick => exact h.sysTick hlate
  | pause on => exact h.world rfl rfl rfl
  | others taskVet => exact h.world rfl rfl (if_pos rfl)
  | registers memory => exact h.world rfl rfl rfl

/-! ## The bound -/

theorem noDrift_iff (h : c.sched.dTUs = 500) :
    c.NoDrift ↔ (c.started = true → c.elapsed < 2000 * (c.increments + 2)) := by
  have hdTUs : c.sched.dTUs.toNat = 500 := by rw [h]; rfl
  rw [NoDrift, hdTUs]
  refine forall_congr' fun _ => ?_
  omega

theorem Inv.noDrift (h : Inv k c) (hlate : c.WithinSecond) : c.NoDrift := by
  rw [noDrift_iff h.ticks.dTUs]
  intro hstarted
  obtain ⟨age, haged⟩ := h.aged hstarted
  have helapsed := haged.elapsed
  rw [WithinSecond] at hlate
  omega

/-- The call that completes more than a second breaks the bound. -/
theorem Inv.drifts (h : Inv k c) (hlate : c.WithinSecond) {e : ClockEvent}
    (hmore : ¬ (c.step k e).WithinSecond) : ¬ (c.step k e).NoDrift := by
  cases e with
  | pause on => exact absurd hlate hmore
  | others taskVet => exact absurd hlate hmore
  | registers memory => exact absurd hlate hmore
  | sysTick =>
    have hne : (c.sysTick k).late ≠ c.late := by
      intro hsame
      refine hmore (show (c.sysTick k).late ≤ 2000 from ?_)
      rw [hsame]
      exact hlate
    cases hstarted : c.started with
    | false =>
      rw [sysTick_unstarted hstarted] at hne
      exact absurd rfl hne
    | true =>
      obtain ⟨age, haged⟩ := h.aged hstarted
      have hwait := (haged.sysTick h.ticks hstarted hlate).2 hne
      show ¬ (c.sysTick k).NoDrift
      rw [noDrift_iff (ticks_sysTick h.ticks).dTUs]
      intro hbound
      have helapsed := hbound (started_sysTick hstarted)
      have hmore : ¬ (c.sysTick k).late ≤ 2000 := hmore
      omega

/-- The clock keeps its bound throughout a run exactly if the calls that pass the task
over never add up to more than a second. -/
theorem run_noDrift_iff {k : Nat} {c : Clock} (hstart : Start k c) (es : List ClockEvent) :
    Run.Always (step k) NoDrift c es ↔ Run.Always (step k) WithinSecond c es := by
  have hlate : c.WithinSecond := by
    rw [WithinSecond, hstart.blank.late]
    exact Nat.zero_le _
  exact Run.always_iff_always (Inv k) (fun _ h hl => h.noDrift hl)
    (fun c e h hl => Inv.step c e h hl) (fun _ _ h hl hmore => h.drifts hl hmore)
    hstart.inv hlate es

/-! ## Late each time -/

/-- A pause of `n` calls and the call after it. -/
def lateSecond (n : Nat) : List ClockEvent :=
  .pause true :: (List.replicate n .sysTick ++ [.pause false, .sysTick])

def lateSeconds (n : Nat) : Nat → List ClockEvent
  | 0 => []
  | m + 1 => lateSecond n ++ lateSeconds n m

/-- The task is alone and has just run, or not yet. -/
structure Alone (k : Nat) (c : Clock) : Prop where
  ticks : Ticks k c.sched
  slot : k < sysTaskMax
  alone : ∀ j, j ≠ k → (c.sched.taskVet j).ptrFunc = none
  time : c.sched.sysTickGetTimeUs - (c.sched.taskVet k).lastExecution = 0

/-- A clock some calls later, in which nothing ran. -/
structure Waited (n : Nat) (c c' : Clock) : Prop where
  sched : c'.sched = c.sched.wait n
  started : c'.started = c.started
  increments : c'.increments = c.increments
  elapsed : c'.elapsed = if c.started then c.elapsed + n else c.elapsed

theorem ran_paused {s : Scheduler Registers} (h : s.pause = true) : s.ran = none := by
  rw [ran, h, if_pos rfl]

theorem waited_sysTick (h : c.sched.pause = true) : Waited 1 c (c.sysTick k) := by
  have hran := ran_paused h
  have hsched : (c.sysTick k).sched = c.sched.wait 1 := by
    rw [sched_sysTick, hran, wait_one]
    rfl
  cases hstarted : c.started with
  | false =>
    have hstep := sysTick_unstarted (k := k) hstarted
    refine ⟨hsched, ?_, ?_, ?_⟩
    · rw [hstep, hran, hstarted]
      rfl
    · rw [hstep]
    · rw [hstep, hstarted]
      rfl
  | true =>
    refine ⟨hsched, (started_sysTick hstarted).trans hstarted.symm, ?_, ?_⟩
    · rw [Clock.sysTick, sysTickHandler_eq, if_pos hstarted, hran]
      rfl
    · rw [Clock.sysTick, if_pos hstarted, if_pos hstarted]

theorem waited_replicate (n : Nat) {c : Clock} (h : c.sched.pause = true) :
    Waited n c (Run.final (step k) c (List.replicate n .sysTick)) ∧
      ∀ d, Run.Each (step k) (Punctual k d) c (List.replicate n .sysTick) := by
  induction n generalizing c with
  | zero =>
    refine ⟨⟨c.sched.wait_zero.symm, rfl, rfl, ?_⟩, fun _ => trivial⟩
    split <;> rfl
  | succ n ih =>
    have hone := waited_sysTick (k := k) h
    have hpause : (c.sysTick k).sched.pause = true := by
      rw [hone.sched]
      exact h
    obtain ⟨hrest, hpunctual⟩ := ih hpause
    have hnone := ran_paused h
    refine ⟨⟨?_, hrest.started.trans hone.started, hrest.increments.trans hone.increments, ?_⟩,
      fun d => ⟨fun hran => ?_, hpunctual d⟩⟩
    · refine hrest.sched.trans ?_
      rw [hone.sched, wait_one, tick_wait]
    · refine hrest.elapsed.trans ?_
      rw [hone.started, hone.elapsed]
      split
      · omega
      · rfl
    · exact absurd (hnone.symm.trans hran) (by simp)

theorem wait_sysTickGetTimeUs {s : Scheduler Registers} (h : s.dTUs = 500) (n : Nat) :
    (s.wait n).sysTickGetTimeUs = s.sysTickGetTimeUs + BitVec.ofNat 64 (500 * n) := by
  have hmul : BitVec.ofNat 64 (500 * n) = s.dTUs.setWidth 64 * BitVec.ofNat 64 n := by
    rw [BitVec.ofNat_mul, h]
    rfl
  rw [hmul]
  exact BitVec.mul_add

/-- The clock after the pause of a late second. -/
def paused (k n : Nat) (c : Clock) : Clock :=
  Run.final (step k) (c.step k (.pause true)) (List.replicate n .sysTick)

theorem paused_waited (k n : Nat) (c : Clock) :
    Waited n (c.step k (.pause true)) (c.paused k n) :=
  (waited_replicate n rfl).1

def resumed (k n : Nat) (c : Clock) : Clock := (c.paused k n).step k (.pause false)

theorem final_lateSecond (k n : Nat) (c : Clock) :
    Run.final (step k) c (lateSecond n) = (c.resumed k n).sysTick k :=
  Run.final_append _ _ _

theorem resumed_taskVet (k n : Nat) (c : Clock) :
    (c.resumed k n).sched.taskVet = c.sched.taskVet := by
  show (c.paused k n).sched.taskVet = _
  rw [(paused_waited k n c).sched]
  rfl

theorem resumed_dTUs (k n : Nat) (c : Clock) : (c.resumed k n).sched.dTUs = c.sched.dTUs := by
  show (c.paused k n).sched.dTUs = _
  rw [(paused_waited k n c).sched]
  rfl

theorem resumed_ticks (h : Ticks k c.sched) (n : Nat) : Ticks k (c.resumed k n).sched := by
  refine ⟨(resumed_dTUs k n c).trans h.dTUs, ?_, ?_⟩
  · rw [resumed_taskVet]
    exact h.ptrFunc
  · rw [resumed_taskVet]
    exact h.dtUs

theorem resumed_time (h : Alone k c) (n : Nat) :
    (c.resumed k n).sched.tick.sysTickGetTimeUs -
        ((c.resumed k n).sched.taskVet k).lastExecution = BitVec.ofNat 64 (500 * (n + 1)) := by
  have hwait : (c.resumed k n).sched.sysTickGetTimeUs =
      c.sched.sysTickGetTimeUs + BitVec.ofNat 64 (500 * n) := by
    show (c.paused k n).sched.sysTickGetTimeUs = _
    rw [(paused_waited k n c).sched]
    exact wait_sysTickGetTimeUs h.ticks.dTUs n
  have htime := h.time
  rw [tick_sysTickGetTimeUs (resumed_ticks h.ticks n).dTUs, hwait, resumed_taskVet]
  bv_omega

theorem resumed_ran (h : Alone k c) {n : Nat} (hdue : 1999 ≤ n) (hn : n < 4000) :
    (c.resumed k n).sched.ran = some k := by
  have hticks := resumed_ticks h.ticks n
  have hdue : (c.resumed k n).sched.tick.Due k = true :=
    (hticks.due_iff (by omega) (resumed_time h n)).mpr (by omega)
  obtain ⟨j, hj⟩ := ran_isSome rfl h.slot hdue
  -- No other slot has a task.
  have hslot : j = k := by
    refine Decidable.byContradiction fun hne => ?_
    have hother := (ran_some hj).2.2
    have hnone : ((c.resumed k n).sched.tick.taskVet j).ptrFunc = none :=
      (congrArg TaskS.ptrFunc (congrFun (resumed_taskVet k n c) j)).trans (h.alone j hne)
    rw [Due, hnone] at hother
    exact Bool.noConfusion hother
  rw [hj, hslot]

variable {n : Nat}

theorem alone_lateSecond (h : Alone k c) (hdue : 1999 ≤ n) (hn : n < 4000) :
    Alone k (Run.final (step k) c (lateSecond n)) := by
  have hran := resumed_ran h hdue hn
  rw [final_lateSecond]
  refine ⟨ticks_sysTick (resumed_ticks h.ticks n), h.slot, fun j hne => ?_, ?_⟩
  · rw [sched_sysTick, executed_taskVet,
      if_neg fun hj => hne (Option.some.inj (hj.symm.trans hran))]
    exact (congrArg TaskS.ptrFunc (congrFun (resumed_taskVet k n c) j)).trans (h.alone j hne)
  · rw [time_sysTick, if_pos hran]

theorem punctual_lateSecond (h : Alone k c) (hn : n < 4000) :
    Run.Each (step k) (Punctual k (500 * (n + 1) - 1000000)) c (lateSecond n) := by
  refine ⟨trivial, ((waited_replicate n rfl).2 _).append ⟨trivial, fun _ => ?_, trivial⟩⟩
  show ((c.resumed k n).sched.tick.sysTickGetTimeUs -
    ((c.resumed k n).sched.taskVet k).lastExecution).toNat ≤ _
  rw [resumed_time h n, BitVec.toNat_ofNat, Nat.mod_eq_of_lt (by omega)]
  omega

/-- A second of the clock takes the whole pause. -/
theorem counts_lateSecond (h : Alone k c) (hdue : 1999 ≤ n) (hn : n < 4000)
    (hstarted : c.started = true) :
    let c' := Run.final (step k) c (lateSecond n)
    c'.started = true ∧ c'.elapsed = c.elapsed + (n + 1) ∧ c'.increments = c.increments + 1 := by
  have hwait := paused_waited k n c
  have hrunning : (c.resumed k n).started = true := hwait.started.trans hstarted
  have hran := resumed_ran h hdue hn
  rw [final_lateSecond]
  refine ⟨started_sysTick hrunning, ?_, ?_⟩
  · rw [Clock.sysTick, if_pos hrunning]
    show (c.paused k n).elapsed + 1 = _
    rw [hwait.elapsed]
    show (if c.started then c.elapsed + n else c.elapsed) + 1 = _
    rw [if_pos hstarted]
    rfl
  · rw [Clock.sysTick, sysTickHandler_eq, if_pos hrunning, hran]
    show (if decide (some k = some k) then (c.paused k n).increments + 1 else _) = _
    rw [hwait.increments, decide_eq_true rfl]
    rfl

/-- The first run starts the count. -/
theorem starts_lateSecond (h : Alone k c) (hdue : 1999 ≤ n) (hn : n < 4000)
    (hstarted : c.started = false) (hblank : c.Blank) :
    let c' := Run.final (step k) c (lateSecond n)
    c'.started = true ∧ c'.elapsed = 0 ∧ c'.increments = 0 := by
  have hwait := paused_waited k n c
  have hrunning : (c.resumed k n).started = false := hwait.started.trans hstarted
  have hran := resumed_ran h hdue hn
  rw [final_lateSecond, sysTick_unstarted hrunning]
  refine ⟨decide_eq_true hran, ?_, hwait.increments.trans hblank.increments⟩
  refine hwait.elapsed.trans ?_
  show (if c.started then c.elapsed + n else c.elapsed) = 0
  rw [hstarted]
  exact hblank.elapsed

/-- `m` runs, each as late as the one before. -/
theorem run_lateSeconds (hdue : 1999 ≤ n) (hn : n < 4000) (m : Nat) {c : Clock} (h : Alone k c)
    (hstarted : c.started = true) :
    Run.Each (step k) (Punctual k (500 * (n + 1) - 1000000)) c (lateSeconds n m) ∧
      (Run.final (step k) c (lateSeconds n m)).started = true ∧
      (Run.final (step k) c (lateSeconds n m)).sched.dTUs = 500 ∧
      (Run.final (step k) c (lateSeconds n m)).elapsed = c.elapsed + m * (n + 1) ∧
      (Run.final (step k) c (lateSeconds n m)).increments = c.increments + m := by
  induction m generalizing c with
  | zero => exact ⟨trivial, hstarted, h.ticks.dTUs, by rw [Nat.zero_mul]; rfl, rfl⟩
  | succ m ih =>
    obtain ⟨hnow, helapsed, hincrements⟩ := counts_lateSecond h hdue hn hstarted
    obtain ⟨heach, hrest⟩ := ih (alone_lateSecond h hdue hn) hnow
    have hmul : (m + 1) * (n + 1) = n + 1 + m * (n + 1) := by
      rw [Nat.succ_mul, Nat.add_comm]
    rw [lateSeconds, Run.final_append]
    refine ⟨(punctual_lateSecond h hn).append heach, hrest.1, hrest.2.1, ?_, ?_⟩
    · rw [hrest.2.2.1, helapsed, hmul]
      omega
    · rw [hrest.2.2.2, hincrements]
      omega

/-- The task alone in its slot of `setup`, at power up. -/
def startClock : Clock where
  sched :=
    { sysTickCount := 0
      dTUs := 500
      ticking := dTUs_pos
      pause := false
      taskVet := fun i =>
        if i = 6 then ⟨some fun _ => tickTimestamp, 0, 1000000, 0, 0⟩ else ⟨none, 0, 0, 0, 0⟩
      memory := { regVet := fun _ => 0, changeFlag := 0 } }
  started := false
  elapsed := 0
  increments := 0
  late := 0

theorem startClock_start : Start 6 startClock :=
  ⟨⟨rfl, rfl, rfl⟩, rfl, rfl, rfl, rfl⟩

theorem startClock_alone : Alone 6 startClock :=
  ⟨⟨rfl, rfl, rfl⟩, by decide, fun _ hj => congrArg TaskS.ptrFunc (if_neg hj), rfl⟩

/-- Five runs, each three quarters of a second late: the clock is four seconds on after
seven. -/
theorem run_drifts :
    ¬ ∀ (k d : Nat) (c : Clock) (es : List ClockEvent), Start k c → d < 1000000 →
      Run.Each (step k) (Punctual k d) c es → Run.Always (step k) NoDrift c es := by
  intro hall
  -- The length of the pause stays a variable, or its calls are unrolled.
  have hn : ∃ n, n = 3499 := ⟨3499, rfl⟩
  obtain ⟨n, hn⟩ := hn
  have hdue : 1999 ≤ n := by omega
  have hlt : n < 4000 := by omega
  obtain ⟨hnow, helapsed, hincrements⟩ :=
    starts_lateSecond startClock_alone hdue hlt rfl ⟨rfl, rfl, rfl⟩
  obtain ⟨heach, hlast⟩ := run_lateSeconds hdue hlt 4 (alone_lateSecond startClock_alone hdue hlt)
    hnow
  have hrun := hall 6 (500 * (n + 1) - 1000000) startClock (lateSecond n ++ lateSeconds n 4)
    startClock_start (by omega) ((punctual_lateSecond startClock_alone hlt).append heach)
  have hbound := hrun.last
  rw [Run.final_append, noDrift_iff hlast.2.1, hlast.2.2.1, hlast.2.2.2, helapsed,
    hincrements] at hbound
  have hseven := hbound hlast.1
  omega

/-! ## Late, but not by a second -/

/-- A call of a paused scheduler is late once the task is due. -/
theorem late_sysTick (h : Ticks k c.sched) (hstarted : c.started = true)
    (hpause : c.sched.pause = true) {age : Nat} (hage : 500 * (age + 1) < 0x10000000000000000)
    (htime : c.sched.sysTickGetTimeUs - (c.sched.taskVet k).lastExecution =
      BitVec.ofNat 64 (500 * age)) :
    (c.sysTick k).late = if 1999 ≤ age then c.late + 1 else c.late := by
  have hnot : decide ((none : Option Nat) = some k) = false := rfl
  rw [Clock.sysTick, sysTickHandler_eq, if_pos hstarted, ran_paused hpause]
  show (if c.sched.tick.Due k && !decide (none = some k) then c.late + 1 else c.late) = _
  rw [hnot, Bool.not_false, Bool.and_true, if_congr (h.due_iff hage (h.tick_time htime)) rfl rfl]
  simp only [Nat.reduceLeDiff]

/-- The late calls of a pause. -/
theorem late_replicate (m l age : Nat) {c : Clock} (h : Ticks k c.sched)
    (hstarted : c.started = true) (hpause : c.sched.pause = true)
    (htime : c.sched.sysTickGetTimeUs - (c.sched.taskVet k).lastExecution =
      BitVec.ofNat 64 (500 * age)) (hlate : c.late = l + (age - 1999))
    (hm : l + (age + m - 1999) ≤ 2000) :
    Run.Always (step k) WithinSecond c (List.replicate m .sysTick) ∧
      (Run.final (step k) c (List.replicate m .sysTick)).late = l + (age + m - 1999) := by
  induction m generalizing age c with
  | zero => exact ⟨Nat.le_trans (Nat.le_of_eq hlate) hm, hlate⟩
  | succ m ih =>
    have hran := ran_paused hpause
    have hnext : age + (m + 1) = age + 1 + m := by omega
    rw [hnext] at hm ⊢
    have hle : age - 1999 ≤ age + 1 + m - 1999 := Nat.sub_le_sub_right (by omega) 1999
    have hnow : c.WithinSecond :=
      Nat.le_trans (Nat.le_of_eq hlate) (Nat.le_trans (Nat.add_le_add_left hle l) hm)
    have htime' : (c.sysTick k).sched.sysTickGetTimeUs -
        ((c.sysTick k).sched.taskVet k).lastExecution = BitVec.ofNat 64 (500 * (age + 1)) := by
      rw [time_sysTick, hran, if_neg (fun h => nomatch h)]
      exact h.tick_time htime
    have hlate' : (c.sysTick k).late = l + (age + 1 - 1999) := by
      rw [late_sysTick h hstarted hpause (by omega) htime, hlate]
      split <;> omega
    have hpause' : (c.sysTick k).sched.pause = true := by
      rw [(waited_sysTick hpause).sched]
      exact hpause
    obtain ⟨hrest, hlast⟩ := ih (age + 1) (ticks_sysTick h) (started_sysTick hstarted) hpause'
      htime' hlate' hm
    exact ⟨⟨hnow, hrest⟩, hlast⟩

/-- The calls of a pause that came after the task was due. -/
theorem within_lateSecond (h : Alone k c) (hstarted : c.started = true) (hdue : 1999 ≤ n)
    (hn : n < 4000) (hlate : c.late + (n - 1999) ≤ 2000) :
    Run.Always (step k) WithinSecond c (lateSecond n) ∧
      (Run.final (step k) c (lateSecond n)).late = c.late + (n - 1999) := by
  have hnow : c.WithinSecond := Nat.le_trans (Nat.le_add_right _ _) hlate
  have hticks : Ticks k (c.step k (.pause true)).sched :=
    ⟨h.ticks.dTUs, h.ticks.ptrFunc, h.ticks.dtUs⟩
  have hzero : 0 + n - 1999 = n - 1999 := by rw [Nat.zero_add]
  obtain ⟨hwait, hlast⟩ := late_replicate n c.late 0 hticks hstarted rfl h.time rfl
    (by rw [hzero]; exact hlate)
  rw [hzero] at hlast
  have hlast : (c.paused k n).late = c.late + (n - 1999) := hlast
  have hrun : ((c.resumed k n).sysTick k).late = c.late + (n - 1999) := by
    have hrunning : (c.resumed k n).started = true := (paused_waited k n c).started.trans hstarted
    rw [Clock.sysTick, sysTickHandler_eq, if_pos hrunning, resumed_ran h hdue hn]
    show (if _ && !decide (some k = some k) then _ else (c.paused k n).late) = _
    rw [decide_eq_true rfl, Bool.not_true, Bool.and_false, hlast]
    rfl
  rw [final_lateSecond]
  refine ⟨⟨hnow, hwait.append ⟨?_, ?_, ?_⟩⟩, hrun⟩
  · exact Nat.le_trans (Nat.le_of_eq hlast) hlate
  · exact Nat.le_trans (Nat.le_of_eq hlast) hlate
  · exact Nat.le_trans (Nat.le_of_eq hrun) hlate

theorem within_lateSeconds (hdue : 1999 ≤ n) (hn : n < 4000) (m : Nat) {c : Clock}
    (h : Alone k c) (hstarted : c.started = true) (hlate : c.late + m * (n - 1999) ≤ 2000) :
    Run.Always (step k) WithinSecond c (lateSeconds n m) := by
  induction m generalizing c with
  | zero => exact Nat.le_trans (Nat.le_add_right _ _) hlate
  | succ m ih =>
    rw [Nat.succ_mul] at hlate
    obtain ⟨hwithin, hlast⟩ := within_lateSecond h hstarted hdue hn (by omega)
    refine hwithin.append (ih (alone_lateSecond h hdue hn)
      (counts_lateSecond h hdue hn hstarted).1 ?_)
    rw [hlast]
    omega

/-- The same task one call before it is due. -/
def dueClock : Clock := { startClock with sched := startClock.sched.wait 1999 }

theorem dueClock_start : Start 6 dueClock := ⟨⟨rfl, rfl, rfl⟩, rfl, rfl, rfl, rfl⟩

/-- The first run starts the clock. -/
theorem dueClock_alone : Alone 6 (dueClock.sysTick 6) ∧ (dueClock.sysTick 6).started = true := by
  have hran : dueClock.sched.ran = some 6 := by decide
  have hstep := sysTick_unstarted (k := 6) (c := dueClock) rfl
  refine ⟨⟨ticks_sysTick dueClock_start.ticks, by decide, fun j hj => ?_, ?_⟩, ?_⟩
  · rw [sched_sysTick, executed_taskVet, hran, if_neg fun h => hj (Option.some.inj h).symm]
    exact congrArg TaskS.ptrFunc (if_neg hj)
  · rw [time_sysTick, if_pos hran]
  · rw [hstep]
    exact decide_eq_true hran

/-- Four runs, each a quarter of a second late: the clock has lost a second and keeps its
bound. -/
theorem run_noDrift_lateSeconds :
    Run.Always (step 6) NoDrift dueClock (.sysTick :: lateSeconds 2499 4) := by
  refine (run_noDrift_iff dueClock_start _).mpr ⟨Nat.zero_le _, ?_⟩
  obtain ⟨halone, hstarted⟩ := dueClock_alone
  have hlate : (dueClock.sysTick 6).late = 0 :=
    congrArg late (sysTick_unstarted (k := 6) (c := dueClock) rfl)
  exact within_lateSeconds (by decide) (by decide) 4 halone hstarted
    (Nat.le_of_eq (congrArg (fun late => late + 2000) hlate))

end Clock

end Task
end Recirculador
