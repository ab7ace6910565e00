/-
The queue under preemption.

The main loop is taken statement by statement and the scheduler interrupt may run
a task between any two of them while `pause` is 0.  The bus and the slaves answer
each statement as they like and the other interrupts change the registers at any
time.  The line of messages survives a task everywhere but between the statement
that moves the pointer and the one that lowers the counter: there the counter is
one too high and `message_New` leaves a hole behind the last message.
-/
import Recirculador.Change.Tasks
import Recirculador.Message.Order

namespace Recirculador

open Registers Ring

/-! ## The statements -/

inductive AuxStatement
  | pauseSend
  | send
  | resumeSend
  | delay
  | pauseReply
  | reply
  | clear
  | resumeReply

/-- The next statement of `message_loop`; `idle` is outside of it.  `aux` carries
the slave to go on with, if the message goes to all of them. -/
inductive Statement
  | idle
  | checkInit
  | checkLenght
  | checkAddr
  | loopTest (i : Nat)
  | setAddr (i : Nat)
  | aux (statement : AuxStatement) (slave : Option Nat)
  | delaySlave (i : Nat)
  | resetSlot
  | moveHead
  | testLenght
  | decrement
  | delayEnd

structure Machine where
  firmware : Firmware
  next : Statement
  statusAux : Int

def auxReturn : Option Nat → Statement
  | none => .resetSlot
  | some i => .delaySlave i

def auxStep (e : Exchange) (statement : AuxStatement) (slave : Option Nat) (s : Machine) :
    Machine :=
  let f := s.firmware
  match statement with
  | .pauseSend => { s with firmware := f.beginAux, next := .aux .send slave }
  | .send =>
    let sent := f.sendMessage e
    { firmware := sent.2, next := .aux .resumeSend slave, statusAux := sent.1 }
  | .resumeSend => { s with firmware := f.schedulerContinue, next := .aux .delay slave }
  | .delay => { s with next := .aux .pauseReply slave }
  | .pauseReply => { s with firmware := f.schedulerPause, next := .aux .reply slave }
  | .reply =>
    let handled := handleReply e s.statusAux f
    { firmware := handled.2, next := .aux .clear slave, statusAux := handled.1 }
  | .clear => { s with firmware := f.clearBuffer s.statusAux, next := .aux .resumeReply slave }
  | .resumeReply => { s with firmware := f.schedulerContinue, next := auxReturn slave }

def mainStep (e : Exchange) (s : Machine) : Machine :=
  let f := s.firmware
  match s.next with
  | .idle => { s with firmware := { f with queue := f.queue.recordCall }, next := .checkInit }
  | .checkInit => { s with next := if f.queue.init = false then .idle else .checkLenght }
  | .checkLenght => { s with next := if f.queue.lenght = 0 then .idle else .checkAddr }
  | .checkAddr =>
    { s with
      next := if f.queue.head.addr = sysI2cAddrAll then .loopTest 0 else .aux .pauseSend none }
  | .loopTest i =>
    { s with next := if i < sysI2cAddrSlaveVet.length then .setAddr i else .resetSlot }
  | .setAddr i =>
    { s with
      firmware := f.setAddr (sysI2cAddrSlaveVet.getD i 0)
      next := .aux .pauseSend (some i) }
  | .aux statement slave => auxStep e statement slave s
  | .delaySlave i => { s with next := .loopTest (i + 1) }
  | .resetSlot => { s with firmware := { f with queue := f.queue.resetSlot }, next := .moveHead }
  | .moveHead => { s with firmware := { f with queue := f.queue.moveHead }, next := .testLenght }
  | .testLenght => { s with next := if f.queue.lenght > 0 then .decrement else .delayEnd }
  | .decrement => { s with firmware := { f with queue := f.queue.decrement }, next := .delayEnd }
  | .delayEnd => { s with next := .idle }

/-! ## Tasks and interrupts -/

inductive Task
  | changeVerify (now : BitVec 64) (stack : I2cModbus)
  | createMessages (statusStack stack : I2cModbus)

def Task.run : Task → Firmware → Firmware
  | .changeVerify now stack => recChangeVerify now stack
  | .createMessages statusStack stack => recCreateMessages statusStack stack

/-- `isrScheduler`, with the task it finds due. -/
def isrScheduler (t : Task) (f : Firmware) : Firmware := if f.pause then f else t.run f

inductive MachineAction
  | main (e : Exchange)
  | scheduler (t : Task)
  | registers (regs : Registers)

def machineStep (s : Machine) : MachineAction → Machine
  | .main e => mainStep e s
  | .scheduler t => { s with firmware := isrScheduler t s.firmware }
  | .registers regs => { s with firmware := { s.firmware with regs } }

/-! ## Without preemption the statements are `message_loop` -/

/-- The main loop alone, one exchange a statement. -/
def mainRun (es : List Exchange) (s : Machine) : Machine := es.foldl (fun s e => mainStep e s) s

theorem mainRun_append (es es' : List Exchange) (s : Machine) :
    mainRun (es ++ es') s = mainRun es' (mainRun es s) :=
  List.foldl_append

theorem mainRun_aux (e : Exchange) (slave : Option Nat) (f : Firmware) (status : Int) :
    ∃ status', mainRun (List.replicate 8 e) ⟨f, .aux .pauseSend slave, status⟩ =
      ⟨messageLoopAux e f, auxReturn slave, status'⟩ :=
  ⟨_, rfl⟩

theorem mainRun_all (env : Nat → Exchange) (addrs : List (BitVec 8)) (i : Nat)
    (hdrop : sysI2cAddrSlaveVet.drop i = addrs) (f : Firmware) (status : Int) :
    ∃ es status', mainRun es ⟨f, .loopTest i, status⟩ =
      ⟨messageLoopAll env i addrs f, .resetSlot, status'⟩ := by
  induction addrs generalizing i f status with
  | nil =>
    have hend : ¬ i < sysI2cAddrSlaveVet.length := Nat.not_lt.mpr (List.drop_eq_nil_iff.mp hdrop)
    refine ⟨[env i], status, ?_⟩
    simp only [mainRun, List.foldl_cons, List.foldl_nil, mainStep, if_neg hend, messageLoopAll]
  | cons addr addrs ih =>
    have hin : i < sysI2cAddrSlaveVet.length := by
      apply Nat.lt_of_not_le
      intro hle
      rw [List.drop_eq_nil_iff.mpr hle] at hdrop
      cases hdrop
    rw [List.drop_eq_getElem_cons hin] at hdrop
    obtain ⟨haddr, hrest⟩ := List.cons.inj hdrop
    have hget : sysI2cAddrSlaveVet.getD i 0 = addr := by
      rw [List.getD_eq_getElem?_getD, List.getElem?_eq_getElem hin, Option.getD_some, haddr]
    obtain ⟨status₁, haux⟩ := mainRun_aux (env i) (some i) (f.setAddr addr) status
    obtain ⟨es, status₂, hes⟩ := ih (i + 1) hrest
      (messageLoopAux (env i) (f.setAddr addr)) status₁
    refine ⟨[env i, env i] ++ (List.replicate 8 (env i) ++ ([env i] ++ es)), status₂, ?_⟩
    have hstart : mainRun [env i, env i] ⟨f, .loopTest i, status⟩ =
        ⟨f.setAddr addr, .aux .pauseSend (some i), status⟩ := by
      simp only [mainRun, List.foldl_cons, List.foldl_nil, mainStep, if_pos hin, hget]
    rw [mainRun_append, hstart, mainRun_append, haux, mainRun_append]
    exact hes

theorem mainRun_serveHead (env : Nat → Exchange) (f : Firmware) (status : Int) :
    ∃ es status', mainRun es ⟨f, .checkAddr, status⟩ =
      ⟨serveHead env f, .resetSlot, status'⟩ := by
  unfold serveHead
  by_cases hall : f.queue.head.addr = sysI2cAddrAll
  · obtain ⟨es, status', hes⟩ := mainRun_all env sysI2cAddrSlaveVet 0 rfl f status
    have hstart : mainRun [env 0] ⟨f, .checkAddr, status⟩ = ⟨f, .loopTest 0, status⟩ := by
      simp only [mainRun, List.foldl_cons, List.foldl_nil, mainStep, if_pos hall]
    refine ⟨[env 0] ++ es, status', ?_⟩
    rw [mainRun_append, hstart, if_pos hall, hes]
  · obtain ⟨status', haux⟩ := mainRun_aux (env 0) none f status
    have hstart : mainRun [env 0] ⟨f, .checkAddr, status⟩ = ⟨f, .aux .pauseSend none, status⟩ := by
      simp only [mainRun, List.foldl_cons, List.foldl_nil, mainStep, if_neg hall]
    refine ⟨[env 0] ++ List.replicate 8 (env 0), status', ?_⟩
    rw [mainRun_append, hstart, if_neg hall, haux]
    rfl

theorem mainRun_release (e : Exchange) (f : Firmware) (status : Int) :
    ∃ es, mainRun es ⟨f, .resetSlot, status⟩ =
      ⟨{ f with queue := f.queue.release }, .idle, status⟩ := by
  unfold Queue.release
  by_cases hpos : f.queue.resetSlot.moveHead.lenght > 0
  · refine ⟨List.replicate 5 e, ?_⟩
    simp only [mainRun, List.replicate, List.foldl_cons, List.foldl_nil, mainStep, if_pos hpos]
  · refine ⟨List.replicate 4 e, ?_⟩
    simp only [mainRun, List.replicate, List.foldl_cons, List.foldl_nil, mainStep, if_neg hpos]

/-- Left alone, the statements of one call compute `message_loop`. -/
theorem mainRun_messageLoop (env : Nat → Exchange) (f : Firmware) (status : Int) :
    ∃ es status', mainRun es ⟨f, .idle, status⟩ = ⟨messageLoop env f, .idle, status'⟩ := by
  rw [messageLoop]
  dsimp only
  have henter : mainRun [env 0] ⟨f, .idle, status⟩ =
      ⟨{ f with queue := f.queue.recordCall }, .checkInit, status⟩ := rfl
  by_cases hinit : f.queue.recordCall.init = false
  · refine ⟨[env 0] ++ [env 0], status, ?_⟩
    rw [mainRun_append, henter, if_pos hinit]
    simp only [mainRun, List.foldl_cons, List.foldl_nil, mainStep, if_pos hinit]
  by_cases hidle : f.queue.recordCall.lenght = 0
  · refine ⟨[env 0] ++ [env 0, env 0], status, ?_⟩
    rw [mainRun_append, henter, if_neg hinit, if_pos hidle]
    simp only [mainRun, List.foldl_cons, List.foldl_nil, mainStep, if_neg hinit, if_pos hidle]
  rw [if_neg hinit, if_neg hidle]
  have hchecks : mainRun [env 0, env 0]
      ⟨{ f with queue := f.queue.recordCall }, .checkInit, status⟩ =
      ⟨{ f with queue := f.queue.recordCall }, .checkAddr, status⟩ := by
    simp only [mainRun, List.foldl_cons, List.foldl_nil, mainStep, if_neg hinit, if_neg hidle]
  obtain ⟨es, status', hserve⟩ :=
    mainRun_serveHead env { f with queue := f.queue.recordCall } status
  obtain ⟨es', hrelease⟩ := mainRun_release (env 0)
    (serveHead env { f with queue := f.queue.recordCall }) status'
  refine ⟨[env 0] ++ ([env 0, env 0] ++ (es ++ es')), status', ?_⟩
  rw [mainRun_append, henter, mainRun_append, hchecks, mainRun_append, hserve, hrelease]

/-! ## The line at every statement -/

/-- What the queue looks like before each statement. -/
def Statement.Line : Statement → Queue → Nat → Prop
  | .idle, q, n => q.AtRest n
  | .checkInit, q, n => q.AtRest n
  | .checkLenght, q, n => q.AtRest n
  | .checkAddr, q, n => q.InService n
  | .loopTest i, q, n => q.InService n ∧ (0 < i → q.Opened n)
  | .setAddr _, q, n => q.InService n
  | .aux .pauseSend _, q, n => q.InService n
  | .aux _ _, q, n => q.Served n
  | .delaySlave _, q, n => q.Served n
  | .resetSlot, q, n => q.Served n
  | .moveHead, q, n => q.Fifo 1 q.lenght n ∧ q.Fresh n ∧ 0 < q.lenght
  | .testLenght, q, n => q.Fifo 0 q.lenght n ∧ q.Fresh n ∧ 0 < q.lenght
  | .decrement, q, n => q.Fifo 0 q.lenght n ∧ q.Fresh n ∧ 0 < q.lenght
  | .delayEnd, q, n => q.AtRest n

/-- Between moving the pointer and lowering the counter. -/
def Statement.InWindow : Statement → Prop
  | .testLenght => True
  | .decrement => True
  | _ => False

namespace Machine

def Lined (s : Machine) : Prop := ∃ n, s.next.Line s.firmware.queue n

theorem auxStep_lined (e : Exchange) (statement : AuxStatement) (slave : Option Nat) {s : Machine}
    {n : Nat} (h : (Statement.aux statement slave).Line s.firmware.queue n) :
    (auxStep e statement slave s).Lined := by
  cases statement with
  | pauseSend => exact ⟨n, h.beginAux⟩
  | send => exact ⟨n, h.sendMessage e⟩
  | resumeSend => exact ⟨n, h⟩
  | delay => exact ⟨n, h⟩
  | pauseReply => exact ⟨n, h⟩
  | reply => exact ⟨n, Queue.Served.of_enqueues h (handleReply_enqueues e s.statusAux s.firmware)⟩
  | clear =>
    refine ⟨n, ?_⟩
    show (s.firmware.clearBuffer s.statusAux).queue.Served n
    rw [Queue.clearBuffer_queue]
    exact h
  | resumeReply =>
    cases slave with
    | none => exact ⟨n, h⟩
    | some i => exact ⟨n, h⟩

theorem mainStep_lined (e : Exchange) {s : Machine} (h : s.Lined) : (mainStep e s).Lined := by
  obtain ⟨f, next, statusAux⟩ := s
  obtain ⟨n, h⟩ := h
  cases next with
  | idle => exact ⟨n, h.1.recordCall h.2, h.2⟩
  | checkInit =>
    by_cases hinit : f.queue.init = false
    · refine ⟨n, ?_⟩
      simp only [mainStep, if_pos hinit]
      exact h
    · refine ⟨n, ?_⟩
      simp only [mainStep, if_neg hinit]
      exact h
  | checkLenght =>
    by_cases hidle : f.queue.lenght = 0
    · refine ⟨n, ?_⟩
      simp only [mainStep, if_pos hidle]
      exact h
    · refine ⟨n, ?_⟩
      simp only [mainStep, if_neg hidle]
      exact ⟨h.1, Nat.pos_of_ne_zero hidle⟩
  | checkAddr =>
    by_cases hall : f.queue.head.addr = sysI2cAddrAll
    · refine ⟨n, ?_⟩
      simp only [mainStep, if_pos hall]
      exact ⟨h, fun hpos => absurd hpos (Nat.lt_irrefl 0)⟩
    · refine ⟨n, ?_⟩
      simp only [mainStep, if_neg hall]
      exact h
  | loopTest i =>
    by_cases hmore : i < sysI2cAddrSlaveVet.length
    · refine ⟨n, ?_⟩
      simp only [mainStep, if_pos hmore]
      exact h.1
    · refine ⟨n, ?_⟩
      simp only [mainStep, if_neg hmore]
      have hpos : 0 < i := Nat.lt_of_lt_of_le (by decide) (Nat.le_of_not_lt hmore)
      exact ⟨h.1, h.2 hpos⟩
  | setAddr i => exact ⟨n, Queue.InService.setHead h rfl⟩
  | aux statement slave => exact auxStep_lined e statement slave h
  | delaySlave i => exact ⟨n, h.service, fun _ => h.opened⟩
  | resetSlot =>
    obtain ⟨hreset, hfresh⟩ := h.service.fifo.resetSlot h.opened
    exact ⟨n + 1, hreset, hfresh, h.service.nonempty⟩
  | moveHead => exact ⟨n, h.1.moveHead, h.2.1, h.2.2⟩
  | testLenght =>
    have hpos : f.queue.lenght > 0 := h.2.2
    refine ⟨n, ?_⟩
    simp only [mainStep, if_pos hpos]
    exact h
  | decrement =>
    refine ⟨n, ?_, h.2.1⟩
    have hlast : f.queue.decrement.lenght + 1 = f.queue.lenght := Nat.sub_add_cancel h.2.2
    show f.queue.decrement.Fifo 0 (f.queue.decrement.lenght + 1) n
    rw [hlast]
    exact h.1.decrement
  | delayEnd => exact ⟨n, h⟩

/-- Outside the window the line survives `message_New`. -/
theorem line_messageNew {next : Statement} (hout : ¬ next.InWindow) (m : I2cModbus) {q : Queue}
    {n : Nat} (h : next.Line q n) : next.Line (messageNew m q).2 n := by
  have hserved : ∀ {q : Queue}, q.Served n → (messageNew m q).2.Served n := fun h =>
    ⟨h.service.messageNew m, h.opened.messageNew m⟩
  cases next with
  | idle => exact Queue.AtRest.messageNew h m
  | checkInit => exact Queue.AtRest.messageNew h m
  | checkLenght => exact Queue.AtRest.messageNew h m
  | checkAddr => exact Queue.InService.messageNew h m
  | loopTest i => exact ⟨h.1.messageNew m, fun hpos => (h.2 hpos).messageNew m⟩
  | setAddr i => exact Queue.InService.messageNew h m
  | aux statement slave =>
    cases statement with
    | pauseSend => exact Queue.InService.messageNew h m
    | send => exact hserved h
    | resumeSend => exact hserved h
    | delay => exact hserved h
    | pauseReply => exact hserved h
    | reply => exact hserved h
    | clear => exact hserved h
    | resumeReply => exact hserved h
  | delaySlave i => exact hserved h
  | resetSlot => exact hserved h
  | moveHead =>
    obtain ⟨cnt, hfifo, hend, hle⟩ := h.1.messageNew (Nat.add_comm 1 _) m
    obtain rfl : cnt = (messageNew m q).2.lenght := by omega
    exact ⟨hfifo, h.2.1.messageNew m, Nat.lt_of_lt_of_le h.2.2 hle⟩
  | testLenght => exact absurd trivial hout
  | decrement => exact absurd trivial hout
  | delayEnd => exact Queue.AtRest.messageNew h m

/-! ## Runs -/

/-- A task that finds nothing to enqueue or no room for it. -/
def SilentTask (t : Task) (f : Firmware) : Prop :=
  f.queue.lenght = 14 ∨
    match t with
    | .changeVerify now _ => ∀ b, ¬ (f.refresh now).regs.Pending b
    | .createMessages _ _ => False

/-- Only silent tasks run in the window. -/
def Quiet (s : Machine) : MachineAction → Prop
  | .scheduler t => s.next.InWindow → s.firmware.pause = true ∨ SilentTask t s.firmware
  | _ => True

theorem run_enqueues (t : Task) (f : Firmware) : Enqueues f (t.run f) := by
  cases t with
  | changeVerify now stack => exact recChangeVerify_enqueues now stack f
  | createMessages statusStack stack => exact recCreateMessages_enqueues statusStack stack f

theorem SilentTask.queue_eq {t : Task} {f : Firmware} (h : SilentTask t f)
    (hready : f.queue.init = true) : (t.run f).queue = f.queue := by
  rcases h with hfull | hnone
  · obtain ⟨ms, hms⟩ := run_enqueues t f
    rw [hms, Queue.enqueueAll_full hready hfull]
  · cases t with
    | changeVerify now stack =>
      have hrun : recChangeVerify now stack f = f.refresh now :=
        (if_neg (hnone .bool)).trans ((if_neg (hnone .short)).trans (if_neg (hnone .int)))
      show (recChangeVerify now stack f).queue = f.queue
      rw [hrun]
      rfl
    | createMessages statusStack stack => exact hnone.elim

theorem scheduler_lined {s : Machine} (h : s.Lined) {t : Task} (hquiet : s.Quiet (.scheduler t)) :
    (machineStep s (.scheduler t)).Lined := by
  obtain ⟨f, next, statusAux⟩ := s
  obtain ⟨n, h⟩ := h
  refine ⟨n, ?_⟩
  show next.Line (isrScheduler t f).queue n
  unfold isrScheduler
  by_cases hpause : f.pause = true
  · rw [if_pos hpause]
    exact h
  rw [if_neg hpause]
  by_cases hwindow : next.InWindow
  · have hready : f.queue.init = true := by
      cases next <;> first | exact hwindow.elim | exact h.1.ready
    have hsilent := (hquiet hwindow).resolve_left hpause
    rw [hsilent.queue_eq hready]
    exact h
  · exact (run_enqueues t f).preserves (P := fun q => next.Line q n)
      (fun m _ hq => line_messageNew hwindow m hq) h

/-- Accepted messages are dispatched or still in a slot, and outside
`message_loop` the counter is the distance to the last slot written. -/
structure Intact (s : Machine) : Prop where
  kept : ∀ k, k < s.firmware.queue.history.accepted.length → s.firmware.queue.WasDispatched k ∨
    ∃ i, s.firmware.queue.history.holder i = some k ∧
      s.firmware.queue.IsAccepted k (s.firmware.queue.slots i).message
  distance : s.next = .idle → s.firmware.queue.lenght =
    distance s.firmware.queue.ptrQueue s.firmware.queue.history.lastWritten

theorem Line.fifo {next : Statement} {q : Queue} {n : Nat} (h : next.Line q n) :
    ∃ lo cnt, q.Fifo lo cnt n := by
  cases next with
  | idle => exact ⟨_, _, h.1⟩
  | checkInit => exact ⟨_, _, h.1⟩
  | checkLenght => exact ⟨_, _, h.1⟩
  | checkAddr => exact ⟨_, _, h.fifo⟩
  | loopTest i => exact ⟨_, _, h.1.fifo⟩
  | setAddr i => exact ⟨_, _, h.fifo⟩
  | aux statement slave =>
    cases statement with
    | pauseSend => exact ⟨_, _, h.fifo⟩
    | send => exact ⟨_, _, h.service.fifo⟩
    | resumeSend => exact ⟨_, _, h.service.fifo⟩
    | delay => exact ⟨_, _, h.service.fifo⟩
    | pauseReply => exact ⟨_, _, h.service.fifo⟩
    | reply => exact ⟨_, _, h.service.fifo⟩
    | clear => exact ⟨_, _, h.service.fifo⟩
    | resumeReply => exact ⟨_, _, h.service.fifo⟩
  | delaySlave i => exact ⟨_, _, h.service.fifo⟩
  | resetSlot => exact ⟨_, _, h.service.fifo⟩
  | moveHead => exact ⟨_, _, h.1⟩
  | testLenght => exact ⟨_, _, h.1⟩
  | decrement => exact ⟨_, _, h.1⟩
  | delayEnd => exact ⟨_, _, h.1⟩

theorem Lined.intact {s : Machine} (h : s.Lined) : s.Intact := by
  obtain ⟨f, next, statusAux⟩ := s
  obtain ⟨n, h⟩ := h
  obtain ⟨lo, cnt, hfifo⟩ := Line.fifo h
  refine ⟨hfifo.inOrder.kept, ?_⟩
  intro hidle
  obtain rfl : next = .idle := hidle
  have hrest : f.queue.AtRest n := h
  have hlt : f.queue.lenght < 15 := by
    have hfits := hrest.1.fits
    simp only [sysModbusMessageQueueSize] at hfits
    omega
  show f.queue.lenght = distance f.queue.ptrQueue f.queue.history.lastWritten
  rw [hrest.1.tail f.queue.lenght rfl, Nat.zero_add, distance_slot _ hlt]

def afterInit (f : Firmware) : Machine := { firmware := f.afterInit, next := .idle, statusAux := 0 }

/-- Every state of a run is intact if only silent tasks run in the window. -/
theorem run_intact (f : Firmware) (as : List MachineAction)
    (hquiet : Run.Each machineStep Quiet (afterInit f) as) :
    Run.Always machineStep Intact (afterInit f) as := by
  have hlined : Run.Always machineStep Lined (afterInit f) as := by
    refine Run.Always.of_step ?_ ⟨0, Queue.afterInit_atRest f⟩ hquiet
    intro s a hs ha
    cases a with
    | main e => exact mainStep_lined e hs
    | scheduler t => exact scheduler_lined hs ha
    | registers regs => exact hs
  exact hlined.mono fun s hs => hs.intact

/-! ## A task in the window -/

def statusTask : Task := .createMessages messageDefault messageDefault

/-- A message, a whole call up to the window, a message in it, the rest of the call
and a third message. -/
def windowRun : List MachineAction :=
  .scheduler statusTask :: (List.replicate 29 (.main noAnswer) ++
    .scheduler statusTask :: (List.replicate 3 (.main noAnswer) ++ [.scheduler statusTask]))

/-- The third message overwrites the second, which was never dispatched. -/
theorem run_overwrites :
    ¬ ∀ (f : Firmware) (as : List MachineAction),
      Run.Always machineStep Intact (afterInit f) as := by
  intro hall
  have hlast := (hall bootFirmware windowRun).last
  rcases hlast.kept 1 (by decide +kernel) with ⟨d, hd, hticket⟩ | ⟨i, hholder, _⟩
  · have hother : ∀ d ∈ (Run.final machineStep (afterInit bootFirmware)
        windowRun).firmware.queue.history.dispatched, d.ticket ≠ some 1 := by decide +kernel
    exact hother d hd hticket
  · have hother : ∀ i, (Run.final machineStep (afterInit bootFirmware)
        windowRun).firmware.queue.history.holder i ≠ some 1 := by decide +kernel
    exact hother i hholder

/-- The same message outside the window does no harm. -/
theorem run_intact_outside :
    Run.Always machineStep Intact (afterInit bootFirmware)
      [.scheduler statusTask, .main noAnswer, .main noAnswer, .scheduler statusTask] :=
  run_intact bootFirmware _
    ⟨fun h => h.elim, trivial, trivial, fun h => h.elim, trivial⟩

end Machine

end Recirculador
