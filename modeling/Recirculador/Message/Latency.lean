/-
How long a message waits on the clock of SysTick.

If the main loop gets to act every `g` ticks, a call that serves a message takes at most
32 statements and 5 delays, and a delay at most its 10 ticks and the `g` to be noticed.
So a message is dispatched within so many ticks for each message in the queue, if it is
not the youngest.  The potential is what the statements to come may still take, less
what has gone by since the main loop acted last.
-/
import Recirculador.Message.Paced
import Recirculador.Message.Served

namespace Recirculador

/-! ## Delays until a slot is given back -/

def loopDelays (i : Nat) : Nat := (sysI2cAddrSlaveVet.length - i) * 2

def AuxStatement.delays : AuxStatement → Nat
  | .pauseSend => 1
  | .send => 1
  | .resumeSend => 1
  | .delay => 1
  | _ => 0

def returnDelays : Option Nat → Nat
  | none => 0
  | some i => loopDelays (i + 1) + 1

/-- The ticks a call may take, if the main loop gets to act every `g`. -/
def callTicks (g : Nat) : Nat := callTurns * g + 5 * (g + 10) + 1

theorem loopDelays_le (i : Nat) : loopDelays i ≤ 4 := Nat.mul_le_mul_right 2 (Nat.sub_le 2 i)

theorem loopDelays_succ_le (i : Nat) : loopDelays (i + 1) ≤ 2 := by
  have hlength : sysI2cAddrSlaveVet.length = 2 := rfl
  simp only [loopDelays, hlength]
  omega

namespace Statement

/-- Delays until a slot is given back, that of the statement included, if the queue is not
empty. -/
def delays : Statement → Nat
  | .resetSlot => 0
  | .aux statement slave => statement.delays + returnDelays slave
  | .delaySlave i => loopDelays (i + 1) + 1
  | .setAddr i => loopDelays (i + 1) + 2
  | .loopTest i => loopDelays i
  | .checkAddr => 4
  | .checkLenght => 4
  | .checkInit => 4
  | .idle => 4
  | .delayEnd => 5
  | .decrement => 5
  | .testLenght => 5
  | .moveHead => 5

theorem delays_le (next : Statement) : next.delays ≤ 5 := by
  cases next with
  | aux statement slave =>
    have hreturn : returnDelays slave ≤ 3 := by
      cases slave with
      | none => decide
      | some i => exact Nat.succ_le_succ (loopDelays_succ_le i)
    have hstatement : statement.delays ≤ 1 := by cases statement <;> decide
    exact Nat.le_trans (Nat.add_le_add hstatement hreturn) (by decide)
  | loopTest i => exact Nat.le_trans (loopDelays_le i) (by decide)
  | setAddr i => exact Nat.le_trans (Nat.add_le_add_right (loopDelays_succ_le i) 2) (by decide)
  | delaySlave i => exact Nat.le_trans (Nat.add_le_add_right (loopDelays_succ_le i) 1) (by decide)
  | _ => simp only [delays]; omega

def ticks (g : Nat) (next : Statement) : Nat := next.turns * g + next.delays * (g + 10)

theorem ticks_lt (g : Nat) (next : Statement) : next.ticks g < callTicks g :=
  Nat.lt_succ_of_le (Nat.add_le_add (Nat.mul_le_mul_right g next.turns_le)
    (Nat.mul_le_mul_right (g + 10) next.delays_le))

/-- The ticks of a statement itself are among those to come. -/
theorem cost_le_ticks (g : Nat) (next : Statement) : next.cost g ≤ next.ticks g := by
  refine Nat.add_le_add (Nat.le_mul_of_pos_left g next.turns_pos) ?_
  cases hdelay : next.isDelay with
  | false => exact Nat.zero_le _
  | true =>
    have hdelays : 0 < next.delays := by
      cases next with
      | aux statement slave =>
        cases statement with
        | delay => exact Nat.lt_of_lt_of_le Nat.zero_lt_one (Nat.le_add_right _ _)
        | _ => exact absurd hdelay Bool.false_ne_true
      | delaySlave i => exact Nat.succ_pos _
      | delayEnd => decide
      | _ => exact absurd hdelay Bool.false_ne_true
    exact Nat.le_mul_of_pos_left (g + 10) hdelays

end Statement

namespace Machine

/-- A statement before the slot is given back adds no delay and takes its own away. -/
theorem mainStep_delays (e : Exchange) {s : Machine} (hnext : s.next ≠ .resetSlot) :
    (mainStep e s).next.delays + (if s.next.isDelay then 1 else 0) ≤ s.next.delays := by
  obtain ⟨f, next, statusAux⟩ := s
  cases next with
  | checkInit | checkLenght | testLenght =>
    simp only [mainStep]
    split <;> exact Nat.le_refl _
  | checkAddr =>
    by_cases hall : f.queue.head.addr = sysI2cAddrAll
    · simp only [mainStep, if_pos hall]
      exact Nat.le_refl 4
    · simp only [mainStep, if_neg hall]
      exact Nat.le_add_right 1 3
  | loopTest i =>
    by_cases hmore : i < sysI2cAddrSlaveVet.length
    · simp only [mainStep, if_pos hmore]
      show loopDelays (i + 1) + 2 ≤ loopDelays i
      simp only [loopDelays]
      omega
    · simp only [mainStep, if_neg hmore]
      exact Nat.zero_le _
  | aux statement slave =>
    cases statement with
    | resumeReply => cases slave <;> exact Nat.le_add_left _ _
    | delay =>
      show 0 + returnDelays slave + 1 ≤ 1 + returnDelays slave
      omega
    | _ => exact Nat.le_refl _
  | setAddr i =>
    show 1 + (loopDelays (i + 1) + 1) ≤ loopDelays (i + 1) + 2
    omega
  | resetSlot => exact absurd rfl hnext
  | idle | delaySlave i | moveHead | decrement | delayEnd => exact Nat.le_refl _

/-- What is left after a statement. -/
theorem mainStep_ticks (g : Nat) (e : Exchange) {s : Machine} (hnext : s.next ≠ .resetSlot)
    (hstays : (mainStep e s).next = .idle → s.next = .delayEnd) :
    (mainStep e s).next.ticks g + s.next.cost g ≤ s.next.ticks g := by
  have hturns := Nat.mul_le_mul_right g (mainStep_turns e hnext hstays)
  have hdelays := Nat.mul_le_mul_right (g + 10) (mainStep_delays e hnext)
  rw [Nat.succ_mul] at hturns
  rw [Nat.add_mul] at hdelays
  have hdelay : (if s.next.isDelay then 1 else 0) * (g + 10) =
      if s.next.isDelay then g + 10 else 0 := by
    split
    · exact Nat.one_mul _
    · exact Nat.zero_mul _
  rw [hdelay] at hdelays
  unfold Statement.ticks Statement.cost
  omega

theorem front_le_mainStep (e : Exchange) {s : Machine} (h : s.Lined) :
    s.front ≤ (mainStep e s).front := by
  by_cases hnext : s.next = .resetSlot
  · rw [(resetSlot_front e h hnext).1]
    exact Nat.le_succ _
  · exact Nat.le_of_eq (mainStep_front e h hnext).symm

/-- Ticks until message `k` is dispatched, as if the main loop had just acted. -/
def ahead (g k : Nat) (s : Machine) : Nat :=
  callTicks g * (k + 1 - s.front) + s.next.ticks g

theorem mainStep_ahead (g : Nat) (e : Exchange) {k : Nat} {s : Machine} (h : s.Lined)
    (hyounger : k + 1 < s.firmware.queue.history.accepted.length) (hfront : s.front ≤ k + 1) :
    k + 1 < (mainStep e s).front ∨
      (mainStep e s).ahead g k + s.next.cost g ≤ s.ahead g k := by
  have hcount := h.front.count
  unfold ahead
  by_cases hnext : s.next = .resetSlot
  · obtain ⟨hmoved, hmove⟩ := resetSlot_front e h hnext
    rw [hmoved, hmove, hnext]
    rcases Nat.lt_or_eq_of_le hfront with hlt | heq
    · have hturn : k + 1 - s.front = k + 1 - (s.front + 1) + 1 := by omega
      have hcall := Statement.ticks_lt g .moveHead
      have hreset := Statement.cost_le_ticks g .resetSlot
      rw [hturn, Nat.mul_succ]
      refine Or.inr ?_
      omega
    · exact Or.inl (by omega)
  · have hne : 0 < s.firmware.queue.lenght := by omega
    have hticks := mainStep_ticks g e hnext (mainStep_stays e h hne)
    rw [mainStep_front e h hnext]
    refine Or.inr ?_
    omega

end Machine

/-! ## Runs the main loop takes part in -/

def PacedAction.isSysTick : PacedAction → Bool
  | .sysTick _ => true
  | _ => false

namespace Paced

/-- Only silent tasks run in the window. -/
def Quiet (s : Paced) (a : PacedAction) : Prop :=
  Run.Each machineStep Machine.Quiet s.machine (s.untimed a)

theorem step_lined {s : Paced} {a : PacedAction} (h : s.machine.Lined) (hquiet : s.Quiet a) :
    (s.step a).machine.Lined := by
  rw [step_untimed]
  exact (Run.Always.of_step (fun _ _ => Machine.machineStep_lined) h hquiet).last

/-! ## The potential -/

variable {g k b : Nat}

/-- Message `k` is not the youngest and is dispatched within `b` ticks. -/
structure Awaits (g k b : Nat) (s : Paced) : Prop where
  clocked : s.Clocked g
  lined : s.machine.Lined
  younger : k + 1 < s.machine.firmware.queue.history.accepted.length
  due : k + 1 < s.machine.front ∨ s.Due g (s.machine.ahead g k) b

theorem Awaits.main {s : Paced} (h : s.Awaits g k b) (e : Exchange) (hquiet : s.Quiet (.main e)) :
    (s.main e).Awaits g k b := by
  have hlined : (s.main e).machine.Lined := step_lined h.lined hquiet
  have hyounger : k + 1 < (s.main e).machine.firmware.queue.history.accepted.length := by
    rcases main_machine e s with hsame | hmove
    · rw [hsame]
      exact h.younger
    · rw [hmove]
      exact Nat.lt_of_lt_of_le h.younger (Machine.mainStep_accepted_le e s.machine)
  have hpast : k + 1 < s.machine.front → k + 1 < (s.main e).machine.front := by
    intro hpast
    rcases main_machine e s with hsame | hmove
    · rw [hsame]
      exact hpast
    · rw [hmove]
      exact Nat.lt_of_lt_of_le hpast (Machine.front_le_mainStep e h.lined)
  refine ⟨h.clocked.main e, hlined, hyounger, ?_⟩
  rcases Nat.lt_or_ge (k + 1) s.machine.front with hbefore | hahead
  · exact Or.inl (hpast hbefore)
  have hdue := h.due.resolve_left (Nat.not_lt.mpr hahead)
  rcases hdue.main h.clocked e with ⟨hsame, hstill⟩ | ⟨hmove, hless⟩
  · rw [hsame]
    exact Or.inr hstill
  · rw [hmove]
    exact (Machine.mainStep_ahead g e h.lined h.younger hahead).imp_right (hless _)

theorem Awaits.sysTick {s : Paced} (h : s.Awaits g k b) {t : Option Task}
    (hquiet : s.Quiet (.sysTick t)) (hprompt : s.Prompt g (.sysTick t)) :
    (s.sysTick t).Awaits g k (b - 1) := by
  have hclocked : (s.sysTick t).Clocked g := h.clocked.step (a := .sysTick t) hprompt
  have hlined : (s.sysTick t).machine.Lined := step_lined (a := .sysTick t) h.lined hquiet
  have hgrows : s.machine.firmware.queue.Grows (s.sysTick t).machine.firmware.queue := by
    cases t with
    | none => exact .refl _
    | some t => exact Machine.scheduler_grows t s.machine
  have hnext : (s.sysTick t).machine.next = s.machine.next := by cases t <;> rfl
  have hfront : (s.sysTick t).machine.front = s.machine.front :=
    Machine.front_of_grows hgrows (by rw [hnext])
  have hahead : (s.sysTick t).machine.ahead g k = s.machine.ahead g k := by
    rw [Machine.ahead, Machine.ahead, hfront, hnext]
  refine ⟨hclocked, hlined, Nat.lt_of_lt_of_le h.younger hgrows.accepted_le, ?_⟩
  rw [hfront, hahead]
  exact h.due.imp_right fun hdue => hdue.sysTick t

theorem Awaits.step {s : Paced} {a : PacedAction} (h : s.Awaits g k b)
    (hok : s.Quiet a ∧ s.Prompt g a) :
    (s.step a).Awaits g k (if a.isSysTick then b - 1 else b) := by
  cases a with
  | main e => exact h.main e hok.1
  | sysTick t => exact h.sysTick hok.1 hok.2
  | registers regs => exact ⟨h.clocked.step hok.2, step_lined h.lined hok.1, h.younger, h.due⟩

theorem Awaits.dispatched {s : Paced} (h : s.Awaits g k 0) :
    s.machine.firmware.queue.WasDispatched k := by
  obtain ⟨lo, cnt, hfifo⟩ := Machine.Line.fifo h.lined.front
  refine hfifo.complete k (h.due.resolve_right fun hdue => ?_)
  have hcost : s.machine.next.cost g ≤ s.machine.ahead g k :=
    Nat.le_trans (Statement.cost_le_ticks g s.machine.next) (Nat.le_add_left _ _)
  exact Nat.lt_irrefl 0 (hdue.pos h.clocked hcost)

/-- A message that is not the youngest waits no longer than the queue is long. -/
theorem Clocked.awaits {s : Paced} (h : s.Clocked g) (hlined : s.machine.Lined)
    (hyounger : k + 1 < s.machine.firmware.queue.history.accepted.length) :
    s.Awaits g k (callTicks g * s.machine.firmware.queue.lenght) := by
  refine ⟨h, hlined, hyounger, ?_⟩
  rcases Nat.lt_or_ge (k + 1) s.machine.front with hpast | hahead
  · exact Or.inl hpast
  have hcount := hlined.front.count
  have hpast := h.past
  have hcall := Statement.ticks_lt g s.machine.next
  have hslots : callTicks g * (k + 1 - s.machine.front + 1) ≤
      callTicks g * s.machine.firmware.queue.lenght := Nat.mul_le_mul_left _ (by omega)
  rw [Nat.mul_succ] at hslots
  refine Or.inr ?_
  unfold Due Machine.ahead
  by_cases hend : s.timeEnd = none
  · exact Or.inl ⟨hend, by omega⟩
  · obtain ⟨hle, -⟩ := h.polled hend
    exact Or.inr ⟨hend, by omega⟩

/-- However the tasks come between, as long as only silent ones run in the window and the main
loop gets to act every `g` ticks: an accepted message that is not the youngest is dispatched
within `37 * g + 51` ticks for each message in the queue. -/
theorem run_dispatches (f : Firmware) (now : Nat) (as bs : List PacedAction) (g k : Nat)
    (hnow : now ≤ 0x80000000000000)
    (hok : Run.Each step (fun s a => s.Quiet a ∧ s.Prompt g a) (start f now) (as ++ bs))
    (hyounger : k + 1 <
      (Run.final step (start f now) as).machine.firmware.queue.history.accepted.length)
    (hticks : callTicks g * (Run.final step (start f now) as).machine.firmware.queue.lenght ≤
      bs.countP PacedAction.isSysTick) :
    (Run.final step (start f now) (as ++ bs)).machine.firmware.queue.WasDispatched k := by
  obtain ⟨has, hbs⟩ := Run.each_append_iff.mp hok
  have hbegun : Run.Always step (fun s => s.Clocked g ∧ s.machine.Lined) (start f now) as :=
    Run.Always.of_step (fun _ _ h hok => ⟨h.1.step hok.2, step_lined h.2 hok.1⟩)
      ⟨clocked_start f g hnow, 0, Queue.afterInit_atRest f⟩ has
  obtain ⟨hclocked, hlined⟩ := hbegun.last
  have hawaits := Run.countdown PacedAction.isSysTick (fun _ _ _ => Awaits.step)
    (hclocked.awaits hlined hyounger) hbs
  rw [Nat.sub_eq_zero_of_le hticks] at hawaits
  rw [Run.final_append]
  exact hawaits.dispatched

/-- The main loop and the handler of SysTick take turns, and no task is due. -/
def turnsRun (e : Exchange) : Nat → List PacedAction
  | 0 => []
  | n + 1 => .main e :: .sysTick none :: turnsRun e n

theorem quiet_main (e : Exchange) (s : Paced) : s.Quiet (.main e) := by
  unfold Quiet
  rcases untimed_main e s with hnone | hone
  · rw [hnone]
    exact trivial
  · rw [hone]
    exact ⟨trivial, trivial⟩

theorem each_turnsRun (e : Exchange) (n : Nat) {s : Paced}
    (hearly : s.sysTickCount + n < 0x80000000000000) :
    Run.Each step (fun s a => s.Quiet a ∧ s.Prompt 2 a) s (turnsRun e n) := by
  induction n generalizing s with
  | zero => exact trivial
  | succ n ih =>
    obtain ⟨hcount, hlast⟩ := main_acted e s
    refine ⟨⟨quiet_main e s, trivial⟩, ⟨trivial, ?_, ?_⟩, ih ?_⟩
    · show (s.main e).sysTickCount < (s.main e).lastMain + 2
      omega
    · show (s.main e).sysTickCount < 0x80000000000000
      omega
    · show (s.main e).sysTickCount + 1 + n < 0x80000000000000
      omega

/-- Two status messages in the first millisecond, and slaves that never answer. -/
theorem run_dispatches_statusTask :
    (Run.final step (start bootFirmware 0) ([.sysTick (some Machine.statusTask),
      .sysTick (some Machine.statusTask)] ++
        turnsRun noAnswer 250)).machine.firmware.queue.WasDispatched 0 :=
  run_dispatches bootFirmware 0 _ _ 2 0 (Nat.zero_le _)
    ⟨⟨⟨fun h => h.elim, trivial⟩, by decide, by decide⟩,
      ⟨⟨fun h => h.elim, trivial⟩, by decide, by decide⟩, each_turnsRun noAnswer 250 (by decide)⟩
    (by decide +kernel) (by decide +kernel)

end Paced

end Recirculador
