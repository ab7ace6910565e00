/-
How long a message waits under preemption.

A call of `message_loop` on a queue that is not empty gives one slot back within 32
statements, whatever the slaves answer and whatever tasks come between.  So a message is
dispatched within 32 statements of the main loop for each message in the queue, as long
as it is not the youngest: the counter reaches zero one message too early, and the
youngest stays until another one is accepted.
-/
import Recirculador.Message.Preemption

namespace Recirculador

/-! ## Statements until a slot is given back -/

/-- Statements from the test of the loop over the slaves on. -/
def loopTurns (i : Nat) : Nat := (sysI2cAddrSlaveVet.length - i) * 11 + 2

def AuxStatement.turns : AuxStatement → Nat
  | .pauseSend => 8
  | .send => 7
  | .resumeSend => 6
  | .delay => 5
  | .pauseReply => 4
  | .reply => 3
  | .clear => 2
  | .resumeReply => 1

def returnTurns : Option Nat → Nat
  | none => 1
  | some i => loopTurns (i + 1) + 1

/-- The statements of a call that serves a message are no more than this. -/
def callTurns : Nat := 32

theorem loopTurns_le (i : Nat) : loopTurns i ≤ 24 :=
  Nat.add_le_add_right (Nat.mul_le_mul_right 11 (Nat.sub_le 2 i)) 2

theorem loopTurns_succ_le (i : Nat) : loopTurns (i + 1) ≤ 13 := by
  have hlength : sysI2cAddrSlaveVet.length = 2 := rfl
  simp only [loopTurns, hlength]
  omega

theorem returnTurns_le (slave : Option Nat) : returnTurns slave ≤ 14 := by
  cases slave with
  | none => decide
  | some i => exact Nat.succ_le_succ (loopTurns_succ_le i)

namespace Statement

/-- Statements until a slot is given back, that one included, if the queue is not empty. -/
def turns : Statement → Nat
  | .resetSlot => 1
  | .aux statement slave => statement.turns + returnTurns slave
  | .delaySlave i => loopTurns (i + 1) + 1
  | .setAddr i => loopTurns (i + 1) + 10
  | .loopTest i => loopTurns i
  | .checkAddr => 25
  | .checkLenght => 26
  | .checkInit => 27
  | .idle => 28
  | .delayEnd => 29
  | .decrement => 30
  | .testLenght => 31
  | .moveHead => 32

/-- Slots given back that the counter still counts. -/
def uncounted : Statement → Nat
  | .moveHead => 1
  | .testLenght => 1
  | .decrement => 1
  | _ => 0

theorem turns_pos (next : Statement) : 0 < next.turns := by
  cases next with
  | aux statement slave =>
    cases statement <;> exact Nat.lt_of_lt_of_le (by decide) (Nat.le_add_right _ _)
  | _ => exact Nat.succ_pos _

theorem turns_le (next : Statement) : next.turns ≤ callTurns := by
  cases next with
  | aux statement slave =>
    have hreturn := returnTurns_le slave
    cases statement <;> simp only [turns, AuxStatement.turns, callTurns] <;> omega
  | loopTest i => exact Nat.le_trans (loopTurns_le i) (by decide)
  | setAddr i => exact Nat.le_trans (Nat.add_le_add_right (loopTurns_succ_le i) 10) (by decide)
  | delaySlave i => exact Nat.le_trans (Nat.add_le_add_right (loopTurns_succ_le i) 1) (by decide)
  | _ => simp only [turns, callTurns]; omega

end Statement

namespace Queue

variable {q q' q'' : Queue} {lo n : Nat}

theorem Fifo.count (h : q.Fifo lo (q.lenght + 1) n) : q.lenght + n = q.history.accepted.length := by
  have htotal := h.total
  omega

theorem Fifo.count_uncounted (h : q.Fifo lo q.lenght n) :
    q.lenght + n = q.history.accepted.length + 1 :=
  (Nat.add_comm _ _).trans h.total

/-- `q'` has taken some more messages than `q` and counts them. -/
def Grows (q q' : Queue) : Prop :=
  ∃ c, q'.history.accepted.length = q.history.accepted.length + c ∧ q'.lenght = q.lenght + c

theorem Grows.of_eq (haccepted : q'.history.accepted = q.history.accepted)
    (hlenght : q'.lenght = q.lenght) : q.Grows q' :=
  ⟨0, congrArg List.length haccepted, hlenght⟩

theorem Grows.refl (q : Queue) : q.Grows q := .of_eq rfl rfl

theorem Grows.accepted_le (h : q.Grows q') :
    q.history.accepted.length ≤ q'.history.accepted.length := by
  obtain ⟨c, haccepted, -⟩ := h
  omega

theorem Grows.trans (h : q.Grows q') (h' : q'.Grows q'') : q.Grows q'' := by
  obtain ⟨c, haccepted, hlenght⟩ := h
  obtain ⟨c', haccepted', hlenght'⟩ := h'
  exact ⟨c + c', by omega, by omega⟩

theorem grows_messageNew (m : I2cModbus) (q : Queue) : q.Grows (messageNew m q).2 := by
  by_cases hroom : q.Accepts
  · obtain ⟨cell, -, hnew⟩ := messageNew_accepts hroom m
    rw [hnew]
    exact ⟨1, List.length_append, rfl⟩
  · rw [(messageNew_refuses hroom m).2]
    exact .refl q

theorem Grows.of_enqueues {f f' : Firmware} (h : Enqueues f f') : f.queue.Grows f'.queue :=
  h.preserves (P := fun q => f.queue.Grows q) (fun m q hq => hq.trans (grows_messageNew m q))
    (.refl f.queue)

end Queue

open Queue

/-- The acceptances and the counter say which message is at the pointer. -/
theorem Statement.Line.count {next : Statement} {q : Queue} {n : Nat} (h : next.Line q n) :
    q.lenght + n = q.history.accepted.length + next.uncounted := by
  cases next with
  | idle => exact h.1.count
  | checkInit => exact h.1.count
  | checkLenght => exact h.1.count
  | checkAddr => exact h.fifo.count
  | loopTest i => exact h.1.fifo.count
  | setAddr i => exact h.fifo.count
  | aux statement slave =>
    cases statement with
    | pauseSend => exact h.fifo.count
    | _ => exact h.service.fifo.count
  | delaySlave i => exact h.service.fifo.count
  | resetSlot => exact h.service.fifo.count
  | moveHead => exact h.1.count_uncounted
  | testLenght => exact h.1.count_uncounted
  | decrement => exact h.1.count_uncounted
  | delayEnd => exact h.1.count

def MachineAction.isMain : MachineAction → Bool
  | .main _ => true
  | _ => false

namespace Machine

/-- The rank of the message at the pointer, or of the next one where the slot of the
pointer is given back. -/
def front (s : Machine) : Nat :=
  s.firmware.queue.history.accepted.length + s.next.uncounted - s.firmware.queue.lenght

theorem Lined.front {s : Machine} (h : s.Lined) : s.next.Line s.firmware.queue s.front := by
  obtain ⟨n, h⟩ := h
  have hcount := h.count
  obtain rfl : n = s.front := by
    unfold Machine.front
    omega
  exact h

/-! ## Steps -/

theorem auxStep_grows (e : Exchange) (statement : AuxStatement) (slave : Option Nat)
    (s : Machine) : s.firmware.queue.Grows (auxStep e statement slave s).firmware.queue := by
  cases statement with
  | send => exact .of_eq rfl rfl
  | reply => exact .of_enqueues (handleReply_enqueues e s.statusAux s.firmware)
  | clear =>
    show s.firmware.queue.Grows (s.firmware.clearBuffer s.statusAux).queue
    rw [clearBuffer_queue]
    exact .refl _
  | _ => exact .of_eq rfl rfl

/-- Only one statement lowers the counter. -/
theorem mainStep_grows (e : Exchange) {s : Machine} (h : s.next ≠ .decrement) :
    s.firmware.queue.Grows (mainStep e s).firmware.queue := by
  obtain ⟨f, next, statusAux⟩ := s
  cases next with
  | aux statement slave => exact auxStep_grows e statement slave _
  | decrement => exact absurd rfl h
  | _ => exact .of_eq rfl rfl

theorem scheduler_grows (t : Task) (s : Machine) :
    s.firmware.queue.Grows (machineStep s (.scheduler t)).firmware.queue := by
  show s.firmware.queue.Grows (isrScheduler t s.firmware).queue
  unfold isrScheduler
  split
  · exact .refl _
  · exact .of_enqueues (run_enqueues t s.firmware)

theorem front_of_grows {s s' : Machine} (h : s.firmware.queue.Grows s'.firmware.queue)
    (huncounted : s'.next.uncounted = s.next.uncounted) : s'.front = s.front := by
  obtain ⟨c, haccepted, hlenght⟩ := h
  unfold front
  omega

/-- Unless the call finds nothing to do, a statement brings the next move of the pointer
nearer. -/
theorem mainStep_turns (e : Exchange) {s : Machine} (hnext : s.next ≠ .resetSlot)
    (hstays : (mainStep e s).next = .idle → s.next = .delayEnd) :
    (mainStep e s).next.turns < s.next.turns := by
  obtain ⟨f, next, statusAux⟩ := s
  cases next with
  | checkInit =>
    by_cases hready : f.queue.init = false
    · simp only [mainStep, if_pos hready] at hstays
      cases hstays trivial
    · simp only [mainStep, if_neg hready]
      exact Nat.lt_succ_self _
  | checkLenght =>
    by_cases hempty : f.queue.lenght = 0
    · simp only [mainStep, if_pos hempty] at hstays
      cases hstays trivial
    · simp only [mainStep, if_neg hempty]
      exact Nat.lt_succ_self _
  | checkAddr =>
    by_cases hall : f.queue.head.addr = sysI2cAddrAll
    · simp only [mainStep, if_pos hall]
      decide
    · simp only [mainStep, if_neg hall]
      decide
  | loopTest i =>
    by_cases hmore : i < sysI2cAddrSlaveVet.length
    · simp only [mainStep, if_pos hmore]
      show loopTurns (i + 1) + 10 < loopTurns i
      simp only [loopTurns]
      omega
    · simp only [mainStep, if_neg hmore]
      exact Nat.lt_of_lt_of_le (by decide : 1 < 2) (Nat.le_add_left 2 _)
  | setAddr i =>
    show 8 + (loopTurns (i + 1) + 1) < loopTurns (i + 1) + 10
    omega
  | aux statement slave =>
    cases statement with
    | resumeReply =>
      have hreturn : (auxReturn slave).turns = returnTurns slave := by cases slave <;> rfl
      show (auxReturn slave).turns < 1 + returnTurns slave
      omega
    | _ => exact Nat.add_lt_add_right (Nat.lt_succ_self _) _
  | testLenght =>
    simp only [mainStep]
    split <;> decide
  | resetSlot => exact absurd rfl hnext
  | idle | delaySlave i | moveHead | decrement | delayEnd => exact Nat.lt_succ_self _

/-- A call on a queue that is not empty goes on to the end. -/
theorem mainStep_stays (e : Exchange) {s : Machine} (h : s.Lined)
    (hne : 0 < s.firmware.queue.lenght) (hidle : (mainStep e s).next = .idle) :
    s.next = .delayEnd := by
  obtain ⟨f, next, statusAux⟩ := s
  have hline := h.front
  cases next with
  | checkInit =>
    have hready : ¬ f.queue.init = false := by simp [show f.queue.init = true from hline.1.ready]
    simp only [mainStep, if_neg hready] at hidle
    cases hidle
  | checkLenght =>
    simp only [mainStep, if_neg (Nat.ne_of_gt hne)] at hidle
    cases hidle
  | checkAddr | loopTest i | testLenght =>
    simp only [mainStep] at hidle
    split at hidle <;> cases hidle
  | aux statement slave =>
    cases statement with
    | resumeReply => cases slave <;> cases hidle
    | _ => cases hidle
  | delayEnd => rfl
  | idle | setAddr i | delaySlave i | resetSlot | moveHead | decrement => cases hidle

theorem mainStep_uncounted (e : Exchange) {s : Machine} (h : s.Lined)
    (hreset : s.next ≠ .resetSlot) (hdecrement : s.next ≠ .decrement) :
    (mainStep e s).next.uncounted = s.next.uncounted := by
  obtain ⟨f, next, statusAux⟩ := s
  have hline := h.front
  cases next with
  | checkInit | checkLenght | checkAddr | loopTest i =>
    simp only [mainStep]
    split <;> rfl
  | aux statement slave =>
    cases statement with
    | resumeReply => cases slave <;> rfl
    | _ => rfl
  | testLenght =>
    have hpos : f.queue.lenght > 0 := hline.2.2
    simp only [mainStep, if_pos hpos]
    rfl
  | resetSlot => exact absurd rfl hreset
  | decrement => exact absurd rfl hdecrement
  | _ => rfl

/-- The message at the pointer stays until its slot is given back. -/
theorem mainStep_front (e : Exchange) {s : Machine} (h : s.Lined) (hnext : s.next ≠ .resetSlot) :
    (mainStep e s).front = s.front := by
  by_cases hdecrement : s.next = .decrement
  · obtain ⟨f, next, statusAux⟩ := s
    obtain rfl : next = .decrement := hdecrement
    have hpos : 0 < f.queue.lenght := h.front.2.2
    show f.queue.history.accepted.length + 0 - (f.queue.lenght - 1) =
      f.queue.history.accepted.length + 1 - f.queue.lenght
    omega
  · exact front_of_grows (mainStep_grows e hdecrement) (mainStep_uncounted e h hnext hdecrement)

theorem resetSlot_front (e : Exchange) {s : Machine} (h : s.Lined) (hnext : s.next = .resetSlot) :
    (mainStep e s).front = s.front + 1 ∧ (mainStep e s).next = .moveHead := by
  obtain ⟨f, next, statusAux⟩ := s
  obtain rfl : next = .resetSlot := hnext
  have hcount := h.front.count
  refine ⟨?_, rfl⟩
  show f.queue.history.accepted.length + 1 - f.queue.lenght =
    f.queue.history.accepted.length + 0 - f.queue.lenght + 1
  simp only [Statement.uncounted] at hcount
  omega

theorem mainStep_accepted_le (e : Exchange) (s : Machine) :
    s.firmware.queue.history.accepted.length ≤
      (mainStep e s).firmware.queue.history.accepted.length := by
  by_cases hdecrement : s.next = .decrement
  · obtain ⟨f, next, statusAux⟩ := s
    obtain rfl : next = .decrement := hdecrement
    exact Nat.le_refl _
  · exact (mainStep_grows e hdecrement).accepted_le

theorem machineStep_lined {s : Machine} {a : MachineAction} (h : s.Lined) (hquiet : s.Quiet a) :
    (machineStep s a).Lined := by
  cases a with
  | main e => exact mainStep_lined e h
  | scheduler t => exact scheduler_lined h hquiet
  | registers regs => exact h

/-! ## Runs -/

/-- Message `k` is not the youngest and is dispatched within `b` statements. -/
structure Waits (k b : Nat) (s : Machine) : Prop where
  lined : s.Lined
  younger : k + 1 < s.firmware.queue.history.accepted.length
  turns : k + 1 < s.front ∨ callTurns * (k + 1 - s.front) + s.next.turns ≤ b

variable {k b : Nat}

theorem Waits.main {s : Machine} (h : s.Waits k b) (e : Exchange) :
    (mainStep e s).Waits k (b - 1) := by
  have hcount := h.lined.front.count
  have hyounger := h.younger
  have hturns := h.turns
  refine ⟨mainStep_lined e h.lined, Nat.lt_of_lt_of_le h.younger (mainStep_accepted_le e s), ?_⟩
  by_cases hnext : s.next = .resetSlot
  · obtain ⟨hfront, hmove⟩ := resetSlot_front e h.lined hnext
    rw [hfront, hmove]
    rw [hnext] at hturns
    simp only [callTurns, Statement.turns] at hturns ⊢
    omega
  · rw [mainStep_front e h.lined hnext]
    rcases Nat.lt_or_ge (k + 1) s.front with hpast | hahead
    · exact Or.inl hpast
    · have hne : 0 < s.firmware.queue.lenght := by omega
      have hfewer := mainStep_turns e hnext (mainStep_stays e h.lined hne)
      simp only [callTurns] at hturns ⊢
      omega

theorem Waits.scheduler {s : Machine} (h : s.Waits k b) {t : Task}
    (hquiet : s.Quiet (.scheduler t)) : (machineStep s (.scheduler t)).Waits k b := by
  have hgrows := scheduler_grows t s
  refine ⟨scheduler_lined h.lined hquiet, Nat.lt_of_lt_of_le h.younger hgrows.accepted_le, ?_⟩
  rw [front_of_grows hgrows rfl]
  exact h.turns

theorem Waits.step {s : Machine} {a : MachineAction} (h : s.Waits k b) (hquiet : s.Quiet a) :
    (machineStep s a).Waits k (if a.isMain then b - 1 else b) := by
  cases a with
  | main e => exact h.main e
  | scheduler t => exact h.scheduler hquiet
  | registers regs => exact ⟨h.lined, h.younger, h.turns⟩

theorem Waits.dispatched {s : Machine} (h : s.Waits k 0) : s.firmware.queue.WasDispatched k := by
  have hpos := s.next.turns_pos
  have hturns := h.turns
  obtain ⟨lo, cnt, hfifo⟩ := Line.fifo h.lined.front
  exact hfifo.complete k (by omega)

/-- A message that is not the youngest waits no longer than the queue is long. -/
theorem Lined.waits {s : Machine} (h : s.Lined)
    (hyounger : k + 1 < s.firmware.queue.history.accepted.length) :
    s.Waits k (callTurns * s.firmware.queue.lenght) := by
  have hcount := h.front.count
  have hturns := s.next.turns_le
  refine ⟨h, hyounger, ?_⟩
  simp only [callTurns] at hturns ⊢
  omega

/-- However the tasks come between, as long as only silent ones run in the window: an
accepted message that is not the youngest is dispatched within 32 statements of the main
loop for each message in the queue. -/
theorem run_served (f : Firmware) (as bs : List MachineAction) (k : Nat)
    (hquiet : Run.Each machineStep Quiet (afterInit f) (as ++ bs))
    (hyounger : k + 1 <
      (Run.final machineStep (afterInit f) as).firmware.queue.history.accepted.length)
    (hturns : callTurns * (Run.final machineStep (afterInit f) as).firmware.queue.lenght ≤
      bs.countP MachineAction.isMain) :
    (Run.final machineStep (afterInit f) (as ++ bs)).firmware.queue.WasDispatched k := by
  obtain ⟨has, hbs⟩ := Run.each_append_iff.mp hquiet
  have hlined : Run.Always machineStep Lined (afterInit f) as :=
    Run.Always.of_step (fun _ _ hs ha => machineStep_lined hs ha)
      ⟨0, Queue.afterInit_atRest f⟩ has
  have hwaits := Run.countdown MachineAction.isMain (fun _ _ _ hs ha => Waits.step hs ha)
    (hlined.last.waits hyounger) hbs
  rw [Nat.sub_eq_zero_of_le hturns] at hwaits
  rw [Run.final_append]
  exact hwaits.dispatched

theorem each_quiet_main (e : Exchange) (n : Nat) (s : Machine) :
    Run.Each machineStep Quiet s (List.replicate n (.main e)) := by
  induction n generalizing s with
  | zero => exact trivial
  | succ n ih => exact ⟨trivial, ih _⟩

/-- The first of two status messages, with slaves that never answer. -/
theorem run_served_statusTask :
    (Run.final machineStep (afterInit bootFirmware) ([.scheduler statusTask,
      .scheduler statusTask] ++ List.replicate 64 (.main noAnswer))).firmware.queue.WasDispatched
        0 :=
  run_served bootFirmware _ _ 0
    ⟨fun h => h.elim, fun h => h.elim, each_quiet_main noAnswer 64 _⟩
    (by decide +kernel) (by decide +kernel)

end Machine

end Recirculador
