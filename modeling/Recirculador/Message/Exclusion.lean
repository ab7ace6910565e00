/-
One transfer on the bus at a time.

The statements of the main loop that call the driver are taken apart here: each
call is a transfer, and the accesses of a transfer are steps of their own, as many as
the slave makes them.  Between any two of them SysTick may come and run a task to
its end, `RTC_loop` with its own transfers among them.  What keeps it out is
`pause`, set in front of each phase on the bus and cleared behind it.
-/
import Recirculador.Message.Preemption

namespace Recirculador

open Registers

theorem handleReply_pause (e : Exchange) (statusAux : Int) (f : Firmware) :
    (handleReply e statusAux f).2.pause = f.pause :=
  HandlerClosed.handleReply (Q := fun g => g.pause = f.pause)
    ⟨fun _ _ h => h, fun _ _ h => h, fun _ _ h => h⟩ e statusAux rfl

/-! ## Tasks -/

/-- The registered tasks.  Those that only measure, count and control come down to what
they leave in the registers. -/
inductive RegisteredTask
  | queue (t : Task)
  | rtcLoop (call : Rtc.RtcCall)
  | registers (regs : Registers)

def RegisteredTask.run (v : Rtc.RtcVar) (f : Firmware) : RegisteredTask → Rtc.RtcVar × Firmware
  | .queue t => (v, t.run f)
  | .rtcLoop call => Rtc.rtcLoop call v f
  | .registers regs => (v, { f with regs })

theorem RegisteredTask.run_pause (v : Rtc.RtcVar) (f : Firmware) (t : RegisteredTask) :
    (t.run v f).2.pause = f.pause := by
  cases t with
  | queue t =>
    cases t with
    | changeVerify now stack =>
      show (recChangeVerify now stack f).pause = f.pause
      unfold recChangeVerify
      dsimp only
      split
      · rfl
      split
      · rfl
      split <;> rfl
    | createMessages statusStack stack =>
      show (sendMeasured stack (recGetStatus statusStack f)).pause = f.pause
      unfold sendMeasured
      split <;> rfl
  | rtcLoop call =>
    show (Rtc.rtcLoop call v f).2.pause = f.pause
    unfold Rtc.rtcLoop
    dsimp only
    split
    · rfl
    split <;> rfl
  | registers regs => rfl

/-! ## The machine -/

/-- The calls of the driver the next statement makes. -/
def Machine.driverCalls (e : Exchange) (s : Machine) : List BusOp :=
  (mainStep e s).firmware.bus.drop s.firmware.bus.length

structure BusMachine where
  machine : Machine
  rtc : Rtc.RtcVar
  /-- The statement under way, if it calls the driver: its exchange and the calls that
  are not over. -/
  calls : Option (Exchange × List BusOp)
  /-- How often the first of them has been at the bus. -/
  accesses : Nat
  /-- For every task that ran, whether it came into a transfer. -/
  taskRuns : List Bool

namespace BusMachine

/-- Between the first and the last access of a transfer. -/
def inTransfer (s : BusMachine) : Bool := s.calls.isSome && decide (0 < s.accesses)

/-- A statement without calls of the driver, or the start of one with calls. -/
def statement (e : Exchange) (s : BusMachine) : BusMachine :=
  match s.calls with
  | some _ => s
  | none =>
    match s.machine.driverCalls e with
    | [] => { s with machine := mainStep e s.machine }
    | op :: ops => { s with calls := some (e, op :: ops), accesses := 0 }

/-- An access to the bus; the last one of the last call ends the statement. -/
def access (last : Bool) (s : BusMachine) : BusMachine :=
  match s.calls with
  | none => s
  | some (e, ops) =>
    if last = false then { s with accesses := s.accesses + 1 }
    else
      match ops.tail with
      | [] => { s with machine := mainStep e s.machine, calls := none, accesses := 0 }
      | op :: ops => { s with calls := some (e, op :: ops), accesses := 0 }

/-- `isrScheduler`, with the task it finds due. -/
def isrScheduler (t : RegisteredTask) (s : BusMachine) : BusMachine :=
  if s.machine.firmware.pause then s
  else
    let result := t.run s.rtc s.machine.firmware
    { s with
      machine := { s.machine with firmware := result.2 }
      rtc := result.1
      taskRuns := s.taskRuns ++ [s.inTransfer] }

inductive Action
  | statement (e : Exchange)
  | access (last : Bool)
  | sysTick (t : RegisteredTask)
  | registers (regs : Registers)

def step (s : BusMachine) : Action → BusMachine
  | .statement e => s.statement e
  | .access last => s.access last
  | .sysTick t => s.isrScheduler t
  | .registers regs =>
    { s with machine := { s.machine with firmware := { s.machine.firmware with regs } } }

/-- The end of `setup`: the main loop is about to call `message_loop`. -/
def afterSetup (f : Firmware) (rtc : Rtc.RtcVar) : BusMachine where
  machine := { firmware := { f with pause := false }, next := .idle, statusAux := 0 }
  rtc := rtc
  calls := none
  accesses := 0
  taskRuns := []

/-- No task has come into a transfer, and `message_loop` returns with `pause` 0. -/
structure Exclusive (s : BusMachine) : Prop where
  tasks : ∀ run ∈ s.taskRuns, run = false
  returned : s.machine.next = .idle → s.machine.firmware.pause = false

end BusMachine

/-! ## Left alone, the accesses make up the statement -/

namespace BusMachine

theorem final_access (e : Exchange) (ops : List BusOp) {op : BusOp} {s : BusMachine}
    (h : s.calls = some (e, op :: ops)) :
    let s' := Run.final step s (List.replicate (ops.length + 1) (.access true))
    s'.machine = mainStep e s.machine ∧ s'.calls = none := by
  induction ops generalizing op s with
  | nil =>
    have hstep : s.step (.access true) =
        { s with machine := mainStep e s.machine, calls := none, accesses := 0 } := by
      simp only [step, access, h, Bool.true_eq_false, if_false, List.tail_cons]
    show (s.step (.access true)).machine = _ ∧ (s.step (.access true)).calls = _
    rw [hstep]
    exact ⟨rfl, rfl⟩
  | cons next ops ih =>
    have hstep : s.step (.access true) =
        { s with calls := some (e, next :: ops), accesses := 0 } := by
      simp only [step, access, h, Bool.true_eq_false, if_false, List.tail_cons]
    have hcalls : (s.step (.access true)).calls = some (e, next :: ops) := by rw [hstep]
    have hrest := ih hcalls
    rw [List.length_cons, List.replicate_succ]
    refine ⟨hrest.1.trans ?_, hrest.2⟩
    rw [hstep]

/-- One access a call is enough to end a statement. -/
theorem final_statement (e : Exchange) {s : BusMachine} (h : s.calls = none) :
    let s' := Run.final step s
      (.statement e :: List.replicate (s.machine.driverCalls e).length (.access true))
    s'.machine = mainStep e s.machine ∧ s'.calls = none := by
  cases hdriver : s.machine.driverCalls e with
  | nil =>
    have hstep : s.step (.statement e) = { s with machine := mainStep e s.machine } := by
      simp only [step, statement, h, hdriver]
    show (s.step (.statement e)).machine = _ ∧ (s.step (.statement e)).calls = _
    rw [hstep]
    exact ⟨rfl, h⟩
  | cons op ops =>
    have hstep : s.step (.statement e) =
        { s with calls := some (e, op :: ops), accesses := 0 } := by
      simp only [step, statement, h, hdriver]
    have hcalls : (s.step (.statement e)).calls = some (e, op :: ops) := by rw [hstep]
    have hrest := final_access e ops hcalls
    refine ⟨hrest.1.trans ?_, hrest.2⟩
    rw [hstep]

end BusMachine

/-! ## Where the scheduler is paused -/

/-- The value of `pause` before a statement. -/
def Statement.paused : Statement → Bool
  | .aux .send _ => true
  | .aux .resumeSend _ => true
  | .aux .reply _ => true
  | .aux .clear _ => true
  | .aux .resumeReply _ => true
  | _ => false

namespace Machine

/-- Only statements inside the two phases call the driver. -/
theorem driverCalls_paused {e : Exchange} {s : Machine} (h : s.driverCalls e ≠ []) :
    s.next.paused = true := by
  obtain ⟨f, next, statusAux⟩ := s
  have hquiet : (mainStep e ⟨f, next, statusAux⟩).firmware.bus = f.bus → next.paused = true := by
    intro hbus
    refine absurd ?_ h
    rw [driverCalls, hbus]
    exact List.drop_length
  cases next with
  | aux statement slave =>
    cases statement with
    | send | resumeSend | reply | clear | resumeReply => rfl
    | pauseSend | delay | pauseReply => exact hquiet rfl
  | checkInit | checkLenght | checkAddr | loopTest | testLenght => exact hquiet rfl
  | _ => exact hquiet rfl

theorem auxStep_paused (e : Exchange) (statement : AuxStatement) (slave : Option Nat) {s : Machine}
    (h : s.firmware.pause = (Statement.aux statement slave).paused) :
    (auxStep e statement slave s).firmware.pause = (auxStep e statement slave s).next.paused := by
  cases statement with
  | pauseSend => rfl
  | send => exact h
  | resumeSend => rfl
  | delay => exact h
  | pauseReply => rfl
  | reply => exact (handleReply_pause e s.statusAux s.firmware).trans h
  | clear =>
    refine Eq.trans ?_ h
    show (s.firmware.clearBuffer s.statusAux).pause = s.firmware.pause
    unfold Firmware.clearBuffer
    split <;> rfl
  | resumeReply =>
    cases slave with
    | none => rfl
    | some i => rfl

theorem mainStep_paused (e : Exchange) {s : Machine} (h : s.firmware.pause = s.next.paused) :
    (mainStep e s).firmware.pause = (mainStep e s).next.paused := by
  have hite : ∀ {c : Prop} [Decidable c] {a b : Statement}, a.paused = false → b.paused = false →
      (if c then a else b).paused = false := by
    intro c _ a b ha hb
    split
    · exact ha
    · exact hb
  obtain ⟨f, next, statusAux⟩ := s
  cases next with
  | aux statement slave => exact auxStep_paused e statement slave h
  | checkInit | checkLenght | checkAddr | loopTest | testLenght => exact h.trans (hite rfl rfl).symm
  | _ => exact h

end Machine

namespace BusMachine

/-- `pause` is what the statement makes it, and a statement that calls the driver is
inside a phase. -/
structure Paused (s : BusMachine) : Prop where
  pause : s.machine.firmware.pause = s.machine.next.paused
  calls : s.calls.isSome = true → s.machine.next.paused = true
  tasks : ∀ run ∈ s.taskRuns, run = false

theorem Paused.exclusive {s : BusMachine} (h : s.Paused) : s.Exclusive := by
  refine ⟨h.tasks, fun hidle => ?_⟩
  rw [h.pause, hidle]
  rfl

theorem Paused.statement {s : BusMachine} (h : s.Paused) (e : Exchange) :
    (s.statement e).Paused := by
  unfold BusMachine.statement
  cases hcalls : s.calls with
  | some calls => exact h
  | none =>
    dsimp only
    cases hdriver : s.machine.driverCalls e with
    | nil =>
      exact ⟨Machine.mainStep_paused e h.pause, fun hsome => Bool.noConfusion hsome, h.tasks⟩
    | cons op ops =>
      have hphase : s.machine.next.paused = true :=
        Machine.driverCalls_paused (by rw [hdriver]; exact List.cons_ne_nil op ops)
      exact ⟨h.pause, fun _ => hphase, h.tasks⟩

theorem Paused.access {s : BusMachine} (h : s.Paused) (last : Bool) : (s.access last).Paused := by
  unfold BusMachine.access
  cases hcalls : s.calls with
  | none => exact h
  | some calls =>
    obtain ⟨e, ops⟩ := calls
    have hphase : s.machine.next.paused = true := h.calls (by rw [hcalls]; rfl)
    dsimp only
    split
    · exact ⟨h.pause, fun _ => hphase, h.tasks⟩
    cases ops.tail with
    | nil =>
      exact ⟨Machine.mainStep_paused e h.pause, fun hsome => Bool.noConfusion hsome, h.tasks⟩
    | cons op ops => exact ⟨h.pause, fun _ => hphase, h.tasks⟩

/-- A task runs with `pause` 0, so outside of both phases. -/
theorem Paused.isrScheduler {s : BusMachine} (h : s.Paused) (t : RegisteredTask) :
    (s.isrScheduler t).Paused := by
  unfold BusMachine.isrScheduler
  by_cases hpause : s.machine.firmware.pause = true
  · rw [if_pos hpause]
    exact h
  · have hcalls : s.calls.isSome = false := by
      cases hsome : s.calls.isSome with
      | false => rfl
      | true => exact absurd (h.pause.trans (h.calls hsome)) hpause
    rw [if_neg hpause]
    refine ⟨(t.run_pause s.rtc s.machine.firmware).trans h.pause, h.calls, fun run hrun => ?_⟩
    rcases List.mem_append.mp hrun with hold | hnew
    · exact h.tasks run hold
    · rw [List.mem_singleton.mp hnew, inTransfer, hcalls]
      rfl

theorem Paused.step (s : BusMachine) (a : Action) (h : s.Paused) : (s.step a).Paused := by
  cases a with
  | statement e => exact h.statement e
  | access last => exact h.access last
  | sysTick t => exact h.isrScheduler t
  | registers regs => exact ⟨h.pause, h.calls, h.tasks⟩

/-- One transfer at a time, in every state of every run. -/
theorem run_exclusive (f : Firmware) (rtc : Rtc.RtcVar) (as : List Action) :
    Run.Always BusMachine.step Exclusive (afterSetup f rtc) as := by
  have hstart : (afterSetup f rtc).Paused :=
    ⟨rfl, fun hsome => Bool.noConfusion hsome, fun _ hrun => nomatch hrun⟩
  have hpaused : Run.Always BusMachine.step Paused (afterSetup f rtc) as :=
    Run.Always.of_invariant (fun s a h => Paused.step s a h) hstart as
  exact hpaused.mono fun s h => h.exclusive

/-- A message goes out, SysTick comes into its transfer and the task does not run; it
runs when the transfer is over and `pause` cleared. -/
example :
    let f := { boolFirmware with queue := { boolFirmware.queue with init := true, lenght := 1 } }
    let status := RegisteredTask.queue (.createMessages messageDefault messageDefault)
    let s := Run.final step (afterSetup f ⟨true, 0, 3600000⟩)
      (List.replicate 6 (.statement noAnswer) ++ [.access false, .sysTick status])
    let s' := Run.final step s [.access true, .statement noAnswer, .sysTick status]
    s.inTransfer = true ∧ s.taskRuns = [] ∧ s'.taskRuns = [false] := by
  decide +kernel

end BusMachine

end Recirculador
