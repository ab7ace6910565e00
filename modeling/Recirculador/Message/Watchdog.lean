/-
The watchdog of `system.c`.

`main` feeds it before each call of `message_loop` and it resets the board 5 s after it
was fed last.  If the main loop gets to act every 268 ticks, which is 134 ms, a call
takes less, whatever the slaves answer and whatever the tasks enqueue: 32 statements and 5
delays.
-/
import Recirculador.Message.Latency

namespace Recirculador

/-- `WWDT->TC` after `watchdog_init`, which counts 250 a millisecond. -/
def watchdogTc (time : Nat) : Nat := 250 * time

namespace Statement

/-- Ticks until the watchdog is fed, if the main loop gets to act every `g`. -/
def hungry (g : Nat) : Statement → Nat
  | .idle => g
  | .delayEnd => 3 * g + 10
  | .decrement => 4 * g + 10
  | .testLenght => 5 * g + 10
  | .moveHead => 6 * g + 10
  | next => next.ticks g + (6 * g + 10)

theorem hungry_le (g : Nat) (next : Statement) : next.hungry g ≤ next.ticks g + (6 * g + 10) := by
  cases next with
  | idle | delayEnd | decrement | testLenght | moveHead =>
    simp only [hungry]
    omega
  | _ => exact Nat.le_refl _

/-- A call that has just begun takes less than the longest. -/
theorem checkInit_hungry_lt (g : Nat) : Statement.checkInit.hungry g < callTicks g := by
  show 27 * g + 4 * (g + 10) + (6 * g + 10) < 32 * g + 5 * (g + 10) + 1
  omega

theorem cost_le_hungry (g : Nat) (next : Statement) : next.cost g ≤ next.hungry g := by
  cases next with
  | idle | decrement | testLenght | moveHead =>
    simp only [hungry, cost, isDelay, Bool.false_eq_true, if_false]
    omega
  | delayEnd =>
    simp only [hungry, cost, isDelay, if_true]
    omega
  | _ => exact Nat.le_trans (cost_le_ticks g _) (Nat.le_add_right _ _)

end Statement

namespace Machine

/-- Up to the slot that is given back; a call that finds nothing to do is over at once. -/
theorem mainStep_hungry_serving (g : Nat) (e : Exchange) {s : Machine}
    (hreset : s.next ≠ .resetSlot) (hserving : s.next.hungry g = s.next.ticks g + (6 * g + 10)) :
    (mainStep e s).next.hungry g + s.next.cost g ≤ s.next.hungry g := by
  rw [hserving]
  by_cases hidle : (mainStep e s).next = .idle
  · have hcost := Statement.cost_le_ticks g s.next
    rw [hidle]
    show g + s.next.cost g ≤ _
    omega
  · have hle := Statement.hungry_le g (mainStep e s).next
    have hticks := mainStep_ticks g e hreset fun h => absurd h hidle
    omega

theorem mainStep_hungry (g : Nat) (e : Exchange) {s : Machine} (hnext : s.next ≠ .idle) :
    (mainStep e s).next.hungry g + s.next.cost g ≤ s.next.hungry g := by
  obtain ⟨f, next, statusAux⟩ := s
  cases next with
  | idle => exact absurd rfl hnext
  | resetSlot =>
    have hcost := Statement.cost_le_ticks g .resetSlot
    show 6 * g + 10 + Statement.cost g .resetSlot ≤ Statement.ticks g .resetSlot + (6 * g + 10)
    omega
  | moveHead =>
    show 5 * g + 10 + (g + 0) ≤ 6 * g + 10
    omega
  | testLenght =>
    simp only [mainStep]
    split
    · show 4 * g + 10 + (g + 0) ≤ 5 * g + 10
      omega
    · show 3 * g + 10 + (g + 0) ≤ 5 * g + 10
      omega
  | decrement =>
    show 3 * g + 10 + (g + 0) ≤ 4 * g + 10
    omega
  | delayEnd =>
    show g + (g + (g + 10)) ≤ 3 * g + 10
    omega
  | _ => exact mainStep_hungry_serving g e (fun hreset => by cases hreset) rfl

end Machine

namespace Paced

/-- What the watchdog has counted down since it was fed if every tick takes its 500 us, at most:
the tick under way is counted in full.  Ticks lost while a task runs longer than one are not in
the count of SysTick and not in this one. -/
def watchdogCount (s : Paced) : Nat := 250 * (dTUs * (s.sysTickCount + 1 - s.fedAt)) / 1000

theorem main_fedAt (e : Exchange) {s : Paced} (h : s.machine.next ≠ .idle) :
    (s.main e).fedAt = s.fedAt := by
  rcases main_cases e s with ⟨-, -, hmain⟩ | ⟨-, -, -, -, hmain⟩ | ⟨-, -, -, -, hmain⟩ |
    ⟨-, hmain⟩
  · rw [hmain]
  · rw [hmain]
  · rw [hmain]
  · rw [hmain]
    simp only [record]

variable {g : Nat}

/-- The next call of `watchdog_feed` is due within the time of a call. -/
structure Feeding (g : Nat) (s : Paced) : Prop where
  clocked : s.Clocked g
  due : ∃ b, s.Due g (s.machine.next.hungry g) b ∧ s.sysTickCount + b ≤ s.fedAt + callTicks g

theorem Feeding.early {s : Paced} (h : s.Feeding g) : s.sysTickCount < s.fedAt + callTicks g := by
  obtain ⟨b, hdue, hle⟩ := h.due
  have hpos := hdue.pos h.clocked (Statement.cost_le_hungry g s.machine.next)
  omega

/-- Entering `message_loop`, the watchdog has just been fed. -/
theorem Feeding.enter {s : Paced} (h : s.Feeding g) (hidle : s.machine.next = .idle)
    (e : Exchange) : (s.main e).Feeding g := by
  refine ⟨h.clocked.main e, callTicks g, ?_⟩
  have hdelay : s.machine.next.isDelay = false := by
    rw [hidle]
    rfl
  have hnone := h.clocked.timing.idle hdelay
  have hmain : s.main e =
      { s.record with machine := mainStep e s.machine, lastMain := s.sysTickCount } := by
    rcases main_cases e s with ⟨hdelay', -⟩ | ⟨hdelay', -⟩ | ⟨hdelay', -⟩ | ⟨-, hmain⟩
    · exact absurd (hdelay.symm.trans hdelay') Bool.false_ne_true
    · exact absurd (hdelay.symm.trans hdelay') Bool.false_ne_true
    · exact absurd (hdelay.symm.trans hdelay') Bool.false_ne_true
    · exact hmain
  rw [hmain]
  have hinit : (mainStep e s.machine).next = .checkInit := by simp only [mainStep, hidle]
  have hfed : s.record.fedAt = s.sysTickCount := by simp only [record, hidle]
  refine ⟨Or.inl ⟨hnone, ?_⟩, ?_⟩
  · show (mainStep e s.machine).next.hungry g + s.sysTickCount < callTicks g + s.sysTickCount
    rw [hinit]
    exact Nat.add_lt_add_right (Statement.checkInit_hungry_lt g) _
  · show s.sysTickCount + callTicks g ≤ s.record.fedAt + callTicks g
    exact Nat.le_of_eq (by rw [hfed])

theorem Feeding.main {s : Paced} (h : s.Feeding g) (e : Exchange) : (s.main e).Feeding g := by
  by_cases hidle : s.machine.next = .idle
  · exact h.enter hidle e
  obtain ⟨b, hdue, hle⟩ := h.due
  obtain ⟨hcount, -⟩ := main_acted e s
  have hfed := main_fedAt e hidle
  refine ⟨h.clocked.main e, b, ?_, by rw [hcount, hfed]; exact hle⟩
  rcases hdue.main h.clocked e with ⟨hsame, hstill⟩ | ⟨hmove, hless⟩
  · rw [hsame]
    exact hstill
  · rw [hmove]
    exact hless _ (Machine.mainStep_hungry g e hidle)

theorem Feeding.step {s : Paced} {a : PacedAction} (h : s.Feeding g) (hprompt : s.Prompt g a) :
    (s.step a).Feeding g := by
  cases a with
  | main e => exact h.main e
  | sysTick t =>
    obtain ⟨b, hdue, hle⟩ := h.due
    have hpos := hdue.pos h.clocked (Statement.cost_le_hungry g s.machine.next)
    have hnext : (s.sysTick t).machine.next = s.machine.next := by cases t <;> rfl
    refine ⟨h.clocked.step (a := .sysTick t) hprompt, b - 1, ?_, ?_⟩
    · show (s.sysTick t).Due g ((s.sysTick t).machine.next.hungry g) (b - 1)
      rw [hnext]
      exact hdue.sysTick t
    · show s.sysTickCount + 1 + (b - 1) ≤ s.fedAt + callTicks g
      omega
  | registers regs => exact ⟨h.clocked.step hprompt, h.due⟩

theorem feeding_start (f : Firmware) (g : Nat) {now : Nat} (hnow : now ≤ 0x80000000000000) :
    (start f now).Feeding g := by
  refine ⟨clocked_start f g hnow, callTicks g, Or.inl ⟨rfl, ?_⟩, Nat.le_refl _⟩
  show g + now < callTicks g + now
  unfold callTicks callTurns
  omega

/-- As long as the main loop gets to act every 134 ms, the watchdog does not run out, whatever
the slaves answer and whatever the tasks enqueue. -/
theorem run_fed (f : Firmware) (now : Nat) (as : List PacedAction) (hnow : now ≤ 0x80000000000000)
    (hprompt : Run.Each step (Prompt 268) (start f now) as) :
    Run.Always step (fun s => s.watchdogCount < watchdogTc 5000) (start f now) as := by
  have hfeeding : Run.Always step (Feeding 268) (start f now) as :=
    Run.Always.of_step (fun _ _ => Feeding.step) (feeding_start f 268 hnow) hprompt
  refine hfeeding.mono fun s hs => ?_
  have hearly := hs.early
  have hcall : callTicks 268 = 9967 := rfl
  rw [hcall] at hearly
  unfold watchdogCount watchdogTc
  rw [dTUs_eq]
  omega

/-- Two status messages in the first millisecond, and slaves that never answer. -/
theorem run_fed_statusTask :
    Run.Always step (fun s => s.watchdogCount < watchdogTc 5000) (start bootFirmware 0)
      ([.sysTick (some Machine.statusTask), .sysTick (some Machine.statusTask)] ++
        turnsRun noAnswer 250) := by
  refine run_fed bootFirmware 0 _ (Nat.zero_le _)
    ⟨⟨by decide, by decide⟩, ⟨by decide, by decide⟩, ?_⟩
  refine Run.Each.mono_of_invariant (fun _ => True) (fun _ _ _ _ => trivial) ?_ trivial
    (each_turnsRun noAnswer 250 (by decide))
  intro s a _ hok
  exact hok.2.mono (by decide : 2 ≤ 268)

end Paced

end Recirculador
