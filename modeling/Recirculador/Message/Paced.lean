/-
The main loop on the clock of SysTick.

`task_delay_ms` reads the clock and then polls it until it is far enough on.  Here a
delay is not one statement but the polls it takes, and every call of the handler of
SysTick moves the clock one tick and runs a task or none.  Taking the polls out leaves
a run of the untimed main loop.  A delay of 5 ms is 9 ticks at least: the time is cut
to milliseconds, two ticks each.
-/
import Recirculador.Message.Preemption
import Recirculador.Task.Scheduler

namespace Recirculador

@[simp] abbrev sysModbusTimeReply : Nat := 5

/-- `dT_us` as `setup` leaves it. -/
def dTUs : Nat := Task.sysTickDTUs 15000000 2000

/-- `SysTickGetTime_ms` after so many ticks. -/
def sysTickGetTimeMs (sysTickCount : Nat) : Nat := dTUs * sysTickCount % 0x10000000000000000 / 1000

theorem dTUs_eq : dTUs = 500 := Task.sysTickDTUs_setup

/-! ## The machine -/

/-- The statements that call `task_delay_ms`, all for the same time. -/
def Statement.isDelay : Statement → Bool
  | .aux .delay _ => true
  | .delaySlave _ => true
  | .delayEnd => true
  | _ => false

/-- If the main loop gets to act every `g` ticks, a statement takes so many, and a delay as
many again and 10 ticks besides. -/
def Statement.cost (g : Nat) (next : Statement) : Nat := g + if next.isDelay then g + 10 else 0

/-- `timeEnd` is the `time_end` of the delay under way.  The other times are not in the
program: when a send was over, when an answer was dealt with, when the delay began, when
`watchdog_feed` was called and when the main loop last got to act. -/
structure Paced where
  machine : Machine
  sysTickCount : Nat
  timeEnd : Option Nat
  sentAt : Option Nat
  heardAt : Option Nat
  delayFrom : Nat
  fedAt : Nat
  lastMain : Nat

inductive PacedAction
  | main (e : Exchange)
  | sysTick (t : Option Task)
  | registers (regs : Registers)

namespace Paced

/-- `main` feeds the watchdog before each call of `message_loop`. -/
def record (s : Paced) : Paced :=
  { s with
    sentAt := match s.machine.next with
      | .aux .resumeSend _ => some s.sysTickCount
      | _ => s.sentAt
    heardAt := match s.machine.next with
      | .aux .resumeReply _ => some s.sysTickCount
      | _ => s.heardAt
    fedAt := match s.machine.next with
      | .idle => s.sysTickCount
      | _ => s.fedAt }

/-- `task_delay_ms`: the reading of the clock, then one poll. -/
def delayStep (e : Exchange) (s : Paced) : Paced :=
  match s.timeEnd with
  | none =>
    { s with
      timeEnd := some (sysTickGetTimeMs s.sysTickCount + sysModbusTimeReply)
      delayFrom := s.sysTickCount }
  | some timeEnd =>
    if sysTickGetTimeMs s.sysTickCount < timeEnd then s
    else { s with machine := mainStep e s.machine, timeEnd := none }

def main (e : Exchange) (s : Paced) : Paced :=
  let s := { s with lastMain := s.sysTickCount }
  if s.machine.next.isDelay then s.delayStep e
  else { s.record with machine := mainStep e s.machine }

/-- `SysTick_Handler`, with the task the scheduler finds due, if any. -/
def sysTick (t : Option Task) (s : Paced) : Paced :=
  { s with
    machine := match t with
      | none => s.machine
      | some t => machineStep s.machine (.scheduler t)
    sysTickCount := s.sysTickCount + 1 }

def step (s : Paced) : PacedAction → Paced
  | .main e => s.main e
  | .sysTick t => s.sysTick t
  | .registers regs => { s with machine := machineStep s.machine (.registers regs) }

/-- `setup` ends when the clock is at `now`, by feeding the watchdog. -/
def start (f : Firmware) (now : Nat) : Paced :=
  { machine := .afterInit f, sysTickCount := now, timeEnd := none, sentAt := none, heardAt := none,
    delayFrom := now, fedAt := now, lastMain := now }

/-- What an act of the main loop can be: the reading of the clock, a poll before the time,
one at the time or a statement that is no delay. -/
theorem main_cases (e : Exchange) (s : Paced) :
    (s.machine.next.isDelay = true ∧ s.timeEnd = none ∧ s.main e =
      { s with
        lastMain := s.sysTickCount
        timeEnd := some (sysTickGetTimeMs s.sysTickCount + sysModbusTimeReply)
        delayFrom := s.sysTickCount }) ∨
    (s.machine.next.isDelay = true ∧ ∃ timeEnd, s.timeEnd = some timeEnd ∧
      sysTickGetTimeMs s.sysTickCount < timeEnd ∧
      s.main e = { s with lastMain := s.sysTickCount }) ∨
    (s.machine.next.isDelay = true ∧ ∃ timeEnd, s.timeEnd = some timeEnd ∧
      timeEnd ≤ sysTickGetTimeMs s.sysTickCount ∧ s.main e =
        { s with
          machine := mainStep e s.machine
          lastMain := s.sysTickCount
          timeEnd := none }) ∨
    (s.machine.next.isDelay = false ∧ s.main e =
      { s.record with machine := mainStep e s.machine, lastMain := s.sysTickCount }) := by
  by_cases hdelay : s.machine.next.isDelay = true
  · simp only [main, if_pos hdelay, delayStep]
    cases hend : s.timeEnd with
    | none => exact Or.inl ⟨hdelay, rfl, rfl⟩
    | some timeEnd =>
      by_cases hearly : sysTickGetTimeMs s.sysTickCount < timeEnd
      · exact Or.inr (Or.inl ⟨hdelay, timeEnd, rfl, hearly, by simp only [if_pos hearly]⟩)
      · exact Or.inr (Or.inr (Or.inl ⟨hdelay, timeEnd, rfl, Nat.le_of_not_lt hearly,
          by simp only [if_neg hearly]⟩))
  · refine Or.inr (Or.inr (Or.inr ⟨Bool.eq_false_iff.mpr hdelay, ?_⟩))
    simp only [main, if_neg hdelay]
    rfl

theorem main_machine (e : Exchange) (s : Paced) :
    (s.main e).machine = s.machine ∨ (s.main e).machine = mainStep e s.machine := by
  rcases main_cases e s with ⟨-, -, hmain⟩ | ⟨-, -, -, -, hmain⟩ | ⟨-, -, -, -, hmain⟩ |
    ⟨-, hmain⟩
  · exact Or.inl (by rw [hmain])
  · exact Or.inl (by rw [hmain])
  · exact Or.inr (by rw [hmain])
  · exact Or.inr (by rw [hmain])

theorem main_acted (e : Exchange) (s : Paced) :
    (s.main e).sysTickCount = s.sysTickCount ∧ (s.main e).lastMain = s.sysTickCount := by
  rcases main_cases e s with ⟨-, -, hmain⟩ | ⟨-, -, -, -, hmain⟩ | ⟨-, -, -, -, hmain⟩ |
    ⟨-, hmain⟩
  all_goals rw [hmain]; exact ⟨rfl, rfl⟩

/-! ## The untimed main loop -/

/-- A poll before the time is none of its statements. -/
def untimed (s : Paced) : PacedAction → List MachineAction
  | .main e =>
    if s.machine.next.isDelay then
      match s.timeEnd with
      | none => []
      | some timeEnd => if sysTickGetTimeMs s.sysTickCount < timeEnd then [] else [.main e]
    else [.main e]
  | .sysTick none => []
  | .sysTick (some t) => [.scheduler t]
  | .registers regs => [.registers regs]

theorem step_untimed (s : Paced) (a : PacedAction) :
    (s.step a).machine = Run.final machineStep s.machine (s.untimed a) := by
  cases a with
  | main e =>
    simp only [step, main, untimed]
    by_cases hdelay : s.machine.next.isDelay = true
    · rw [if_pos hdelay, if_pos hdelay, delayStep]
      cases hend : s.timeEnd with
      | none => rfl
      | some timeEnd =>
        dsimp only
        split <;> rfl
    · rw [if_neg hdelay, if_neg hdelay]
      rfl
  | sysTick t => cases t <;> rfl
  | registers regs => rfl

theorem untimed_main (e : Exchange) (s : Paced) :
    s.untimed (.main e) = [] ∨ s.untimed (.main e) = [.main e] := by
  simp only [untimed]
  split
  · split
    · exact Or.inl rfl
    · split
      · exact Or.inl rfl
      · exact Or.inr rfl
  · exact Or.inr rfl

/-- A run on the clock is a run of the untimed main loop. -/
theorem run_untimed (s : Paced) (as : List PacedAction) :
    (Run.final step s as).machine =
      Run.final machineStep s.machine (Run.trace step untimed s as) :=
  Run.abs_final step_untimed s as

/-! ## Delays -/

/-- The clock may wrap, but that makes the way come out smaller. -/
theorem time_le {start now : Nat} (hle : start ≤ now) :
    dTUs * now % 0x10000000000000000 ≤
      dTUs * start % 0x10000000000000000 + dTUs * (now - start) := by
  have hsplit : dTUs * now = dTUs * start + dTUs * (now - start) := by
    rw [← Nat.mul_add, Nat.add_sub_cancel' hle]
  rw [hsplit, ← Nat.mod_add_mod]
  exact Nat.mod_le _ _

theorem delay_over {start now : Nat} (hle : start ≤ now)
    (h : sysTickGetTimeMs start + sysModbusTimeReply ≤ sysTickGetTimeMs now) : 8 < now - start := by
  have htime := time_le hle
  simp only [sysTickGetTimeMs, dTUs_eq, sysModbusTimeReply] at h htime
  omega

/-- Nine ticks at least. -/
def Apart (past : Option Nat) (now : Nat) : Prop := ∀ n, past = some n → 8 < now - n

theorem Apart.later {past : Option Nat} {now : Nat} (h : Apart past now) :
    Apart past (now + 1) := by
  intro n hn
  have := h n hn
  omega

/-- What was over when a delay began is nine ticks back when it ends. -/
theorem Apart.of_delay {past : Option Nat} {start now : Nat} (hle : start ≤ now)
    (hpast : ∀ n, past = some n → n ≤ start)
    (h : sysTickGetTimeMs start + sysModbusTimeReply ≤ sysTickGetTimeMs now) : Apart past now := by
  intro n hn
  have hbefore := hpast n hn
  have hover := delay_over hle h
  omega

/-! ## Answers and sends -/

/-- The slave had its time to answer before the main loop deals with the answer, and the
bus its rest before the next message is sent. -/
structure Spaced (s : Paced) : Prop where
  answer : ∀ slave, s.machine.next = .aux .pauseReply slave ∨ s.machine.next = .aux .reply slave →
    ∃ n, s.sentAt = some n ∧ 8 < s.sysTickCount - n
  send : ∀ slave, s.machine.next = .aux .pauseSend slave ∨ s.machine.next = .aux .send slave →
    ∀ n, s.heardAt = some n → 8 < s.sysTickCount - n

/-- How long ago the last send and the last answer were, before each statement. -/
def Since (sentAt heardAt : Option Nat) (now : Nat) : Statement → Prop
  | .aux .delay _ => sentAt ≠ none
  | .aux .pauseReply _ => sentAt ≠ none ∧ Apart sentAt now
  | .aux .reply _ => sentAt ≠ none ∧ Apart sentAt now
  | .aux .pauseSend _ => Apart heardAt now
  | .aux .send _ => Apart heardAt now
  | .idle => Apart heardAt now
  | .checkInit => Apart heardAt now
  | .checkLenght => Apart heardAt now
  | .checkAddr => Apart heardAt now
  | .loopTest _ => Apart heardAt now
  | .setAddr _ => Apart heardAt now
  | _ => True

structure Timing (s : Paced) : Prop where
  sent : ∀ n, s.sentAt = some n → n ≤ s.sysTickCount
  heard : ∀ n, s.heardAt = some n → n ≤ s.sysTickCount
  since : Since s.sentAt s.heardAt s.sysTickCount s.machine.next
  idle : s.machine.next.isDelay = false → s.timeEnd = none
  delay : ∀ timeEnd, s.timeEnd = some timeEnd → s.delayFrom ≤ s.sysTickCount ∧
    timeEnd = sysTickGetTimeMs s.delayFrom + sysModbusTimeReply ∧
    (∀ n, s.sentAt = some n → n ≤ s.delayFrom) ∧ ∀ n, s.heardAt = some n → n ≤ s.delayFrom

theorem Since.later {sentAt heardAt : Option Nat} {now : Nat} {next : Statement}
    (h : Since sentAt heardAt now next) : Since sentAt heardAt (now + 1) next := by
  cases next with
  | aux statement slave =>
    cases statement with
    | pauseReply | reply => exact ⟨h.1, h.2.later⟩
    | pauseSend | send => exact Apart.later h
    | _ => exact h
  | idle | checkInit | checkLenght | checkAddr | loopTest i | setAddr i => exact Apart.later h
  | _ => exact trivial

/-- A statement that is no delay keeps the times, or is there to note one. -/
theorem Since.main {s : Paced} (h : Since s.sentAt s.heardAt s.sysTickCount s.machine.next)
    (hdelay : ¬ s.machine.next.isDelay = true) (e : Exchange) :
    Since s.record.sentAt s.record.heardAt s.sysTickCount (mainStep e s.machine).next := by
  obtain ⟨⟨f, next, statusAux⟩, sysTickCount, timeEnd, sentAt, heardAt, delayFrom, fedAt,
    lastMain⟩ := s
  cases next with
  | aux statement slave =>
    cases statement with
    | resumeSend => exact nofun
    | delay => exact absurd rfl hdelay
    | resumeReply => cases slave <;> exact trivial
    | pauseSend | pauseReply => exact h
    | send | reply | clear => exact trivial
  | checkInit | checkLenght | checkAddr | loopTest i =>
    simp only [mainStep]
    split
    · exact h
    · first | exact h | exact trivial
  | idle | setAddr i => exact h
  | delaySlave i => exact absurd rfl hdelay
  | delayEnd => exact absurd rfl hdelay
  | testLenght =>
    simp only [mainStep]
    split <;> exact trivial
  | resetSlot | moveHead | decrement => exact trivial

/-- At the end of a delay what came before it is far enough back. -/
theorem Since.delayed {s : Paced} (h : Since s.sentAt s.heardAt s.sysTickCount s.machine.next)
    (hdelay : s.machine.next.isDelay = true) (hsent : Apart s.sentAt s.sysTickCount)
    (hheard : Apart s.heardAt s.sysTickCount) (e : Exchange) :
    Since s.sentAt s.heardAt s.sysTickCount (mainStep e s.machine).next := by
  obtain ⟨⟨f, next, statusAux⟩, sysTickCount, timeEnd, sentAt, heardAt, delayFrom, fedAt,
    lastMain⟩ := s
  cases next with
  | aux statement slave =>
    cases statement with
    | delay => exact ⟨h, hsent⟩
    | _ => exact absurd hdelay Bool.false_ne_true
  | delaySlave i => exact hheard
  | delayEnd => exact hheard
  | _ => exact absurd hdelay Bool.false_ne_true

theorem record_past {s : Paced} (hsent : ∀ n, s.sentAt = some n → n ≤ s.sysTickCount)
    (hheard : ∀ n, s.heardAt = some n → n ≤ s.sysTickCount) :
    (∀ n, s.record.sentAt = some n → n ≤ s.sysTickCount) ∧
      ∀ n, s.record.heardAt = some n → n ≤ s.sysTickCount := by
  refine ⟨fun n hn => ?_, fun n hn => ?_⟩
  · simp only [record] at hn
    split at hn
    · exact Nat.le_of_eq (Option.some.inj hn).symm
    · exact hsent n hn
  · simp only [record] at hn
    split at hn
    · exact Nat.le_of_eq (Option.some.inj hn).symm
    · exact hheard n hn

theorem Timing.main {s : Paced} (h : s.Timing) (e : Exchange) : (s.main e).Timing := by
  rcases main_cases e s with ⟨hdelay, -, hmain⟩ | ⟨-, -, -, -, hmain⟩ |
    ⟨hdelay, timeEnd, hend, hover, hmain⟩ | ⟨hdelay, hmain⟩
  · rw [hmain]
    refine ⟨h.sent, h.heard, h.since, fun hidle => ?_, fun timeEnd htime => ?_⟩
    · exact absurd (hdelay.symm.trans hidle) Bool.noConfusion
    · exact ⟨Nat.le_refl _, (Option.some.inj htime).symm, h.sent, h.heard⟩
  · rw [hmain]
    exact ⟨h.sent, h.heard, h.since, h.idle, h.delay⟩
  · obtain ⟨hle, htime, hsent, hheard⟩ := h.delay timeEnd hend
    rw [htime] at hover
    rw [hmain]
    exact ⟨h.sent, h.heard, h.since.delayed hdelay (Apart.of_delay hle hsent hover)
      (Apart.of_delay hle hheard hover) e, fun _ => rfl, nofun⟩
  · have hnone := h.idle hdelay
    obtain ⟨hsent, hheard⟩ := record_past h.sent h.heard
    rw [hmain]
    exact ⟨hsent, hheard, h.since.main (Bool.eq_false_iff.mp hdelay) e, fun _ => hnone,
      fun timeEnd htime => absurd (hnone.symm.trans htime) nofun⟩

theorem Timing.sysTick {s : Paced} (h : s.Timing) (t : Option Task) : (s.sysTick t).Timing := by
  have hnext : (s.sysTick t).machine.next = s.machine.next := by cases t <;> rfl
  refine ⟨fun n hn => Nat.le_succ_of_le (h.sent n hn), fun n hn => Nat.le_succ_of_le (h.heard n hn),
    ?_, ?_, fun timeEnd htime => ?_⟩
  · rw [hnext]
    exact h.since.later
  · rw [hnext]
    exact h.idle
  · obtain ⟨hle, hrest⟩ := h.delay timeEnd htime
    exact ⟨Nat.le_succ_of_le hle, hrest⟩

theorem timing_step (s : Paced) (a : PacedAction) (h : s.Timing) : (s.step a).Timing := by
  cases a with
  | main e => exact h.main e
  | sysTick t => exact h.sysTick t
  | registers regs => exact ⟨h.1, h.2, h.3, h.4, h.5⟩

theorem timing_start (f : Firmware) (now : Nat) : (start f now).Timing :=
  ⟨nofun, nofun, nofun, fun _ => rfl, nofun⟩

theorem Timing.spaced {s : Paced} (h : s.Timing) : s.Spaced := by
  have hsince := h.since
  refine ⟨fun slave hnext => ?_, fun slave hnext => ?_⟩
  · have hsent : s.sentAt ≠ none ∧ Apart s.sentAt s.sysTickCount := by
      rcases hnext with hnext | hnext
      · rw [hnext] at hsince
        exact hsince
      · rw [hnext] at hsince
        exact hsince
    obtain ⟨hsome, hapart⟩ := hsent
    obtain ⟨n, hn⟩ := Option.ne_none_iff_exists'.mp hsome
    exact ⟨n, hn, hapart n hn⟩
  · rcases hnext with hnext | hnext
    · rw [hnext] at hsince
      exact hsince
    · rw [hnext] at hsince
      exact hsince

/-- In every run, whatever the slaves answer and whatever tasks come between: the main loop
deals with an answer nine ticks after the send was over at the earliest, and sends again
nine ticks after it was through with the last answer. -/
theorem run_spaced (f : Firmware) (now : Nat) (as : List PacedAction) :
    Run.Always step Spaced (start f now) as :=
  (Run.Always.of_invariant timing_step (timing_start f now) as).mono fun _ => Timing.spaced

/-! ## Runs the main loop takes part in -/

/-- The main loop has acted within the last `g` ticks, and the clock has not wrapped. -/
def Prompt (g : Nat) (s : Paced) : PacedAction → Prop
  | .sysTick _ => s.sysTickCount < s.lastMain + g ∧ s.sysTickCount < 0x80000000000000
  | _ => True

theorem Prompt.mono {g g' : Nat} (hle : g ≤ g') {s : Paced} {a : PacedAction}
    (h : s.Prompt g a) : s.Prompt g' a := by
  cases a with
  | sysTick t => exact ⟨Nat.lt_of_lt_of_le h.1 (Nat.add_le_add_left hle _), h.2⟩
  | main e => trivial
  | registers regs => trivial

/-- What holds of the clock in such runs. -/
structure Clocked (g : Nat) (s : Paced) : Prop where
  timing : s.Timing
  past : s.lastMain ≤ s.sysTickCount
  acted : s.sysTickCount ≤ s.lastMain + g
  early : s.sysTickCount ≤ 0x80000000000000
  polled : s.timeEnd ≠ none → s.delayFrom ≤ s.lastMain ∧ s.lastMain < s.delayFrom + 10

theorem poll_early {start now : Nat} (hnow : now ≤ 0x80000000000000)
    (h : sysTickGetTimeMs now < sysTickGetTimeMs start + sysModbusTimeReply) : now < start + 10 := by
  apply Nat.lt_of_not_le
  intro hle
  have hstart : 500 * start % 0x10000000000000000 = 500 * start := Nat.mod_eq_of_lt (by omega)
  have hend : 500 * now % 0x10000000000000000 = 500 * now := Nat.mod_eq_of_lt (by omega)
  simp only [sysTickGetTimeMs, dTUs_eq, sysModbusTimeReply, hstart, hend] at h
  omega

variable {g : Nat}

theorem Clocked.main {s : Paced} (h : s.Clocked g) (e : Exchange) : (s.main e).Clocked g := by
  have htiming := h.timing.main e
  have hnow : s.sysTickCount ≤ s.sysTickCount + g := Nat.le_add_right _ _
  rcases main_cases e s with ⟨hdelay, -, hmain⟩ | ⟨-, timeEnd, hend, hearly, hmain⟩ |
    ⟨-, -, -, -, hmain⟩ | ⟨hdelay, hmain⟩
  · rw [hmain] at htiming ⊢
    exact ⟨htiming, Nat.le_refl _, hnow, h.early,
      fun _ => ⟨Nat.le_refl _, Nat.lt_add_of_pos_right (by decide)⟩⟩
  · obtain ⟨hle, htime, -⟩ := h.timing.delay timeEnd hend
    rw [htime] at hearly
    rw [hmain] at htiming ⊢
    exact ⟨htiming, Nat.le_refl _, hnow, h.early, fun _ => ⟨hle, poll_early h.early hearly⟩⟩
  · rw [hmain] at htiming ⊢
    exact ⟨htiming, Nat.le_refl _, hnow, h.early, fun hend => absurd rfl hend⟩
  · have hnone := h.timing.idle hdelay
    rw [hmain] at htiming ⊢
    exact ⟨htiming, Nat.le_refl _, hnow, h.early, fun hend => absurd hnone hend⟩

theorem Clocked.step {s : Paced} {a : PacedAction} (h : s.Clocked g) (hprompt : s.Prompt g a) :
    (s.step a).Clocked g := by
  cases a with
  | main e => exact h.main e
  | sysTick t =>
    exact ⟨h.timing.sysTick t, Nat.le_succ_of_le h.past, hprompt.1, hprompt.2, h.polled⟩
  | registers regs =>
    exact ⟨timing_step s _ h.timing, h.past, h.acted, h.early, h.polled⟩

theorem clocked_start (f : Firmware) (g : Nat) {now : Nat} (hnow : now ≤ 0x80000000000000) :
    (start f now).Clocked g :=
  ⟨timing_start f now, Nat.le_refl _, Nat.le_add_right _ _, hnow, fun hend => absurd rfl hend⟩

/-! ## What is due -/

/-- What `m` more ticks of the main loop's time amount to takes less than `b` ticks of the
clock.  A delay counts from its beginning, anything else from the last act of the main loop. -/
def Due (g m b : Nat) (s : Paced) : Prop :=
  (s.timeEnd = none ∧ m + s.lastMain < b + s.sysTickCount) ∨
    (s.timeEnd ≠ none ∧ m + s.delayFrom < b + s.sysTickCount + g)

variable {m b : Nat}

theorem Due.sysTick {s : Paced} (h : s.Due g m b) (t : Option Task) :
    (s.sysTick t).Due g m (b - 1) := by
  refine h.imp (And.imp_right fun hticks => ?_) (And.imp_right fun hticks => ?_)
  · show m + s.lastMain < b - 1 + (s.sysTickCount + 1)
    omega
  · show m + s.delayFrom < b - 1 + (s.sysTickCount + 1) + g
    omega

/-- An act of the main loop leaves the machine as it is, or it makes a statement and what is
to come is less by what that costs. -/
theorem Due.main {s : Paced} (h : s.Due g m b) (hclocked : s.Clocked g) (e : Exchange) :
    ((s.main e).machine = s.machine ∧ (s.main e).Due g m b) ∨
    ((s.main e).machine = mainStep e s.machine ∧
      ∀ m', m' + s.machine.next.cost g ≤ m → (s.main e).Due g m' b) := by
  have hacted := hclocked.acted
  rcases main_cases e s with ⟨hdelay, hend, hmain⟩ | ⟨-, timeEnd, hend, -, hmain⟩ |
    ⟨hdelay, timeEnd, hend, -, hmain⟩ | ⟨hdelay, hmain⟩
  · rw [hmain]
    rcases h with ⟨-, hticks⟩ | ⟨hsome, -⟩
    · refine Or.inl ⟨rfl, Or.inr ⟨nofun, ?_⟩⟩
      show m + s.sysTickCount < b + s.sysTickCount + g
      omega
    · exact absurd hend hsome
  · rw [hmain]
    rcases h with ⟨hnone, -⟩ | hticks
    · exact nomatch hnone.symm.trans hend
    · exact Or.inl ⟨rfl, Or.inr hticks⟩
  · have hpolled := hclocked.polled (by rw [hend]; nofun)
    rw [hmain]
    refine Or.inr ⟨rfl, fun m' hcost => Or.inl ⟨rfl, ?_⟩⟩
    rw [Statement.cost, if_pos hdelay] at hcost
    show m' + s.sysTickCount < b + s.sysTickCount
    rcases h with ⟨hnone, -⟩ | ⟨-, hticks⟩
    · exact nomatch hnone.symm.trans hend
    · omega
  · have hnone := hclocked.timing.idle hdelay
    rw [hmain]
    refine Or.inr ⟨rfl, fun m' hcost => Or.inl ⟨hnone, ?_⟩⟩
    rw [Statement.cost, hdelay] at hcost
    show m' + s.sysTickCount < b + s.sysTickCount
    rcases h with ⟨-, hticks⟩ | ⟨hsome, -⟩
    · omega
    · exact absurd hnone hsome

/-- Nothing is due that has a statement to come. -/
theorem Due.pos {s : Paced} (h : s.Due g m b) (hclocked : s.Clocked g)
    (hcost : s.machine.next.cost g ≤ m) : 0 < b := by
  have hacted := hclocked.acted
  rcases h with ⟨-, hticks⟩ | ⟨hsome, hticks⟩
  · unfold Statement.cost at hcost
    omega
  · have hdelay : s.machine.next.isDelay = true := by
      apply Bool.of_not_eq_false
      exact fun hidle => hsome (hclocked.timing.idle hidle)
    have hpolled := hclocked.polled hsome
    rw [Statement.cost, if_pos hdelay] at hcost
    omega

end Paced

end Recirculador
