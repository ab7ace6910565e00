/-
How long one call of `message_loop` keeps the bus.

The program never asks for a reply of more than 16 bytes, so every call of the driver comes
to its end whatever the slaves do.  `budget` is what the rest of a call may still take before
each statement, for two slaves at most, and it is never overdrawn.  What the tasks and the
interrupts do between the statements is not part of the call.
-/
import Recirculador.Bus.Bounded
import Recirculador.Bus.Endless
import Recirculador.Message.Request

namespace Recirculador

open SysRegMap

/-! ## Calls of the driver -/

namespace BusOp

/-- The most accesses a call takes, if it asks for 255 bytes at most. -/
def cost : BusOp → Nat
  | .send _ message => I2c.sendCost message.length
  | .sendModbus message => I2c.sendCost (I2c.messageLength message)
  | .readLenght _ len => I2c.readCost len.toNat
  | .read _ => 24110
  | .readClearBuffer _ => 24110

/-- A read with a length that the counter of `i2cReadLenght_master` gets to. -/
def Ends : BusOp → Prop
  | .readLenght _ len => 0 ≤ len ∧ len ≤ 255
  | _ => True

/-- The call comes to its end: a read of a given length does so in 256 turns of its loop, and
all others have no loop that could go on. -/
def Returns : BusOp → Prop
  | .readLenght addr len => ∀ (fuel : Nat) (b : I2c) (r : Buffer), 256 ≤ fuel →
    ∃ stat, (b.readLenghtMaster fuel addr len r).1 = some stat
  | _ => True

theorem Ends.returns {op : BusOp} (h : op.Ends) : op.Returns := by
  cases op with
  | readLenght addr len =>
    exact fun fuel b r hfuel => I2c.readLenghtMaster_ends h.2 hfuel addr b r
  | send | sendModbus | read | readClearBuffer => exact trivial

/-- The call leads from `b` to `b'`, with whatever is behind the pointer of the message and
however far the loop of a read gets. -/
inductive Leads (b : I2c) : BusOp → I2c → Prop
  | send (addr : BitVec 8) (message : List (BitVec 8)) :
      Leads b (.send addr message) (b.sendMaster addr message).2
  | sendModbus (payload : Nat → BitVec 8) (message : I2cModbus) :
      Leads b (.sendModbus message) (b.sendMasterModbus payload message).2.2
  | readLenght (fuel : Nat) (addr : BitVec 8) (len : Int) (r : Buffer) :
      Leads b (.readLenght addr len) (b.readLenghtMaster fuel addr len r).2.1
  | read (addr : BitVec 8) (r : Buffer) : Leads b (.read addr) (b.readMaster addr r).2.1
  | readClearBuffer (addr : BitVec 8) :
      Leads b (.readClearBuffer addr) (b.readClearBufferMaster addr).2

theorem Leads.costs {op : BusOp} {b b' : I2c} (h : Leads b op b') (hends : op.Ends) :
    I2c.Costs op.cost b b' := by
  cases h with
  | send addr message => exact I2c.sendMaster_costs addr message b
  | sendModbus payload message => exact I2c.sendMasterModbus_costs payload message b
  | readLenght fuel addr len r =>
    obtain ⟨hpos, hle⟩ := hends
    have hlen : ((len.toNat : Nat) : Int) = len := Int.toNat_of_nonneg hpos
    have hcosts : I2c.Costs (I2c.readCost len.toNat) b
        (b.readLenghtMaster fuel addr len.toNat r).2.1 :=
      I2c.readLenghtMaster_costs (by omega) fuel addr b r
    rwa [hlen] at hcosts
  | read addr r => exact I2c.readMaster_costs addr b r
  | readClearBuffer addr => exact I2c.readClearBufferMaster_costs addr b

/-- The calls, one after the other, lead from `b` to `b'`. -/
inductive AllLead : List BusOp → I2c → I2c → Prop
  | nil (b : I2c) : AllLead [] b b
  | cons {op : BusOp} {ops : List BusOp} {b b₁ b' : I2c} (head : Leads b op b₁)
      (tail : AllLead ops b₁ b') : AllLead (op :: ops) b b'

/-- What the calls take together. -/
def costs : List BusOp → Nat
  | [] => 0
  | op :: ops => op.cost + costs ops

theorem costs_append (ops ops' : List BusOp) : costs (ops ++ ops') = costs ops + costs ops' := by
  induction ops with
  | nil => exact (Nat.zero_add _).symm
  | cons op ops ih => rw [List.cons_append, costs, costs, ih, Nat.add_assoc]

theorem AllLead.costs {ops : List BusOp} {b b' : I2c} (h : AllLead ops b b')
    (hends : ∀ op ∈ ops, op.Ends) : I2c.Costs (BusOp.costs ops) b b' := by
  induction h with
  | nil b => exact .refl b
  | cons head tail ih =>
    exact (head.costs (hends _ List.mem_cons_self)).trans
      (ih fun op hop => hends op (List.mem_cons_of_mem _ hop))

end BusOp

/-! ## What the statements spend -/

/-- From `f` to `f'` the driver was called for `n` accesses at most. -/
def Firmware.Spends (n : Nat) (f f' : Firmware) : Prop :=
  ∃ ops, f'.bus = f.bus ++ ops ∧ (∀ op ∈ ops, op.Ends) ∧ BusOp.costs ops ≤ n

namespace Firmware.Spends

variable {n n' : Nat} {f f' f'' : Firmware}

theorem of_eq (h : f'.bus = f.bus) : Spends 0 f f' :=
  ⟨[], by rw [h, List.append_nil], nofun, Nat.le_refl 0⟩

theorem trans (h : Spends n f f') (h' : Spends n' f' f'') : Spends (n + n') f f'' := by
  obtain ⟨ops, hbus, hends, hle⟩ := h
  obtain ⟨ops', hbus', hends', hle'⟩ := h'
  refine ⟨ops ++ ops', by rw [hbus', hbus, List.append_assoc], ?_, ?_⟩
  · intro op hop
    exact (List.mem_append.mp hop).elim (hends op) (hends' op)
  · rw [BusOp.costs_append]
    exact Nat.add_le_add hle hle'

theorem mono (h : Spends n f f') (hle : n ≤ n') : Spends n' f f' := by
  obtain ⟨ops, hbus, hends, hcost⟩ := h
  exact ⟨ops, hbus, hends, Nat.le_trans hcost hle⟩

theorem record (f : Firmware) {op : BusOp} (hends : op.Ends) : Spends op.cost f (f.record op) :=
  ⟨[op], rfl, fun _ h => (List.mem_singleton.mp h) ▸ hends, Nat.le_refl _⟩

end Firmware.Spends

open Firmware

/-- The parts of an exchange: the message, the reply and the time that may be passed on to
the clock chip, and the bytes that are thrown away after a failure. -/
def messageCost : Nat := I2c.sendCost 200
def replyCost : Nat := I2c.readCost 16 + I2c.sendCost 11
def clearCost : Nat := 24110

theorem Built.length_le {base : BitVec 32} {m : I2cModbus} (h : Built base m) :
    I2c.messageLength m ≤ 200 := by
  rw [I2c.messageLength]
  cases h with
  | filler _ hhead hsize =>
    rw [hhead, hsize]
    decide
  | status _ hhead hsize =>
    rw [hhead, hsize]
    decide
  | block b hmem hb =>
    rw [hb.sizeHead, hb.size_eq (Block.inside hmem).2.2]
    simp only [Block.all, List.mem_cons, List.not_mem_nil, or_false] at hmem
    rcases hmem with rfl | rfl | rfl | rfl <;> decide

theorem Firmware.Clean.sendMessage_spends {f : Firmware} (h : f.Clean) (e : Exchange) :
    Spends messageCost f (f.sendMessage e).2 := by
  have hlength := h.head.length_le
  unfold Firmware.sendMessage
  dsimp only
  have hends : ∀ m : I2cModbus, (BusOp.sendModbus m).Ends := fun _ => trivial
  refine (Spends.record { f with queue := _ } (hends _)).mono ?_
  have hsame : ∀ m : I2cModbus, m.sizeHead = f.queue.head.sizeHead →
      m.sizeMessage = f.queue.head.sizeMessage → (BusOp.sendModbus m).cost ≤ messageCost := by
    intro m hhead hsize
    show 184 + 47 * I2c.messageLength m ≤ 184 + 47 * 200
    have hm : I2c.messageLength m = I2c.messageLength f.queue.head := by
      rw [I2c.messageLength, I2c.messageLength, hhead, hsize]
    omega
  split
  · exact hsame _ rfl rfl
  · exact hsame _ rfl rfl

theorem fixedReply_spends {n : Nat} {k : (Nat → BitVec 8) → Firmware → Int × Firmware}
    (hk : ∀ reply f, Spends n f (k reply f).2) {len : Nat} (hlen : len ≤ 16) (e : Exchange)
    (f : Firmware) : Spends (I2c.readCost 16 + n) f (fixedReply len k e f).2 := by
  have hread : Spends (I2c.readCost 16) f (f.record (.readLenght f.queue.head.addr len)) := by
    have hends : (BusOp.readLenght f.queue.head.addr len).Ends :=
      show 0 ≤ (len : Int) ∧ (len : Int) ≤ 255 by omega
    refine (Spends.record f hends).mono ?_
    show 2164 + 70 * ((len : Int).toNat) ≤ 2164 + 70 * 16
    omega
  unfold fixedReply
  dsimp only [i2cReadLenghtMaster]
  cases e.delivered len with
  | none => exact hread.mono (Nat.le_add_right _ n)
  | some reply =>
    dsimp only
    split
    · exact hread.trans (hk reply _)
    · exact hread.mono (Nat.le_add_right _ n)

theorem regChage_bus (addr flag : BitVec 8) (stack : I2cModbus) (f : Firmware) :
    (regChage addr flag stack f).bus = f.bus := by
  have hnew : ∀ {c : Prop} [Decidable c] (m : I2cModbus) (g : Firmware),
      (if c then (g.messageNew m).2 else g).bus = g.bus := by
    intro c _ m g
    split <;> rfl
  unfold regChage
  split
  · rfl
  · dsimp only
    rw [hnew, hnew, hnew]

theorem setTimestamp_spends (e : Exchange) (timestampRef : BitVec 32) (f : Firmware) :
    Spends (I2c.sendCost 11) f (setTimestamp e timestampRef f) := by
  unfold setTimestamp
  split
  · exact Spends.record { f with regs := _ } trivial
  · exact (Spends.of_eq rfl).mono (Nat.zero_le _)

theorem reportSlaveId_spends (e : Exchange) (f : Firmware) :
    Spends replyCost f (reportSlaveId e f).2 := by
  unfold reportSlaveId
  split
  · refine fixedReply_spends (fun reply g => ?_) (Nat.le_refl 16) e f
    exact (setTimestamp_spends e _ g).trans (.of_eq (regChage_bus _ _ _ _))
  · exact (Spends.of_eq rfl).mono (Nat.zero_le _)

/-- The reply to a message of the program. -/
theorem Firmware.Clean.handleReply_spends {f : Firmware} (h : f.Clean) (e : Exchange)
    (statusAux : Int) : Spends replyCost f (handleReply e statusAux f).2 := by
  cases h.head with
  | filler hcode _ _ =>
    have hnone : (handleReply e statusAux f).2 = f := by simp [handleReply, hcode]
    rw [hnone]
    exact (Spends.of_eq rfl).mono (Nat.zero_le _)
  | status hcode _ _ =>
    have hreport : handleReply e statusAux f = reportSlaveId e f := by simp [handleReply, hcode]
    rw [hreport]
    exact reportSlaveId_spends e f
  | block b _ hb =>
    have hset : handleReply e statusAux f = genericSetReg e f := by
      simp [handleReply, hb.code, setMultNumRegReply]
    have hsize : (if f.queue.head.code = Modbus.diagnostics then 5 else 7) ≤ 16 := by
      split <;> decide
    have hread := fixedReply_spends (k := fun reply g =>
      (if echoes e reply ((if f.queue.head.code = Modbus.diagnostics then 5 else 7) - 2) g
        then replyOK else replyFail, g)) (fun _ _ => Spends.of_eq rfl) hsize e f
    rw [hset, genericSetReg]
    exact hread.mono (by decide)

theorem clearBuffer_spends (statusAux : Int) (f : Firmware) :
    Spends clearCost f (f.clearBuffer statusAux) := by
  unfold clearBuffer
  split
  · exact Spends.record f trivial
  · exact (Spends.of_eq rfl).mono (Nat.zero_le _)

theorem isrScheduler_bus (t : Task) (f : Firmware) : (isrScheduler t f).bus = f.bus := by
  have hverify : ∀ now stack, (recChangeVerify now stack f).bus = f.bus := by
    intro now stack
    rw [recChangeVerify_eq]
    cases f.tries now with
    | none => rfl
    | some b => rfl
  have hcreate : ∀ statusStack stack, (recCreateMessages statusStack stack f).bus = f.bus := by
    intro statusStack stack
    show (sendMeasured stack (recGetStatus statusStack f)).bus = f.bus
    unfold sendMeasured
    split <;> rfl
  unfold isrScheduler
  split
  · rfl
  · cases t with
    | changeVerify now stack => exact hverify now stack
    | createMessages statusStack stack => exact hcreate statusStack stack

/-! ## What is left of a call -/

/-- A message to one slave. -/
def exchangeCost : Nat := messageCost + replyCost + clearCost

def AuxStatement.budget : AuxStatement → Nat
  | .pauseSend | .send => messageCost + replyCost + clearCost
  | .resumeSend | .delay | .pauseReply | .reply => replyCost + clearCost
  | .clear => clearCost
  | .resumeReply => 0

/-- The slaves that come after `slave`. -/
def slavesLeft : Option Nat → Nat
  | none => 0
  | some i => 1 - i

/-- What the statements of the call from this one on may still spend. -/
def Statement.budget : Statement → Nat
  | .checkInit | .checkLenght | .checkAddr => 2 * exchangeCost
  | .loopTest i => (2 - i) * exchangeCost
  | .setAddr i => exchangeCost + (1 - i) * exchangeCost
  | .aux statement slave => statement.budget + slavesLeft slave * exchangeCost
  | .delaySlave i => (1 - i) * exchangeCost
  | .idle | .resetSlot | .moveHead | .testLenght | .decrement | .delayEnd => 0

namespace Machine

/-- A statement spends no more than its budget is above that of the next. -/
def Pays (s s' : Machine) : Prop :=
  ∃ n, Spends n s.firmware s'.firmware ∧ n + s'.next.budget ≤ s.next.budget

theorem Pays.of_eq {s s' : Machine} (hbus : s'.firmware.bus = s.firmware.bus)
    (hle : s'.next.budget ≤ s.next.budget) : Pays s s' :=
  ⟨0, .of_eq hbus, by omega⟩

theorem auxStep_pays (e : Exchange) (statement : AuxStatement) (slave : Option Nat) {s : Machine}
    (hnext : s.next = .aux statement slave) (h : s.firmware.Clean) :
    Pays s (auxStep e statement slave s) := by
  have hrest : ∀ {n : Nat} {statement' : AuxStatement} {f : Firmware} {status : Int},
      Spends n s.firmware f → n + statement'.budget ≤ statement.budget →
        Pays s ⟨f, .aux statement' slave, status⟩ := by
    intro n statement' f status hspends hle
    refine ⟨n, hspends, ?_⟩
    rw [hnext]
    show n + (statement'.budget + _) ≤ statement.budget + _
    omega
  cases statement with
  | pauseSend => exact hrest (.of_eq rfl) (Nat.le_of_eq (Nat.zero_add _))
  | send => exact hrest (h.sendMessage_spends e) (Nat.le_of_eq (Nat.add_assoc _ _ _).symm)
  | resumeSend => exact hrest (.of_eq rfl) (Nat.le_of_eq (Nat.zero_add _))
  | delay => exact hrest (.of_eq rfl) (Nat.le_of_eq (Nat.zero_add _))
  | pauseReply => exact hrest (.of_eq rfl) (Nat.le_of_eq (Nat.zero_add _))
  | reply => exact hrest (h.handleReply_spends e s.statusAux) (Nat.le_refl _)
  | clear => exact hrest (clearBuffer_spends s.statusAux s.firmware) (Nat.le_refl _)
  | resumeReply =>
    refine .of_eq rfl ?_
    rw [hnext]
    cases slave with
    | none => exact Nat.zero_le _
    | some i => exact Nat.le_add_left _ _

theorem mainStep_pays (e : Exchange) {s : Machine} (hrunning : s.next ≠ .idle)
    (h : s.firmware.Clean) : Pays s (mainStep e s) := by
  obtain ⟨f, next, statusAux⟩ := s
  cases next with
  | idle => exact absurd rfl hrunning
  | checkInit =>
    refine .of_eq rfl ?_
    simp only [mainStep]
    split
    · exact Nat.zero_le _
    · exact Nat.le_refl _
  | checkLenght =>
    refine .of_eq rfl ?_
    simp only [mainStep]
    split
    · exact Nat.zero_le _
    · exact Nat.le_refl _
  | checkAddr =>
    refine .of_eq rfl ?_
    simp only [mainStep]
    split
    · exact Nat.le_refl _
    · show exchangeCost + 0 * exchangeCost ≤ 2 * exchangeCost
      omega
  | loopTest i =>
    refine .of_eq rfl ?_
    simp only [mainStep]
    split
    · rename_i hmore
      have hone : 2 - i = (1 - i) + 1 := by
        have hi : i < 2 := hmore
        omega
      show exchangeCost + (1 - i) * exchangeCost ≤ (2 - i) * exchangeCost
      exact Nat.le_of_eq (by rw [hone, Nat.add_mul, Nat.one_mul, Nat.add_comm])
    · exact Nat.zero_le _
  | setAddr i => exact .of_eq rfl (Nat.le_refl _)
  | aux statement slave => exact auxStep_pays e statement slave rfl h
  | delaySlave i =>
    refine .of_eq rfl ?_
    show (2 - (i + 1)) * exchangeCost ≤ (1 - i) * exchangeCost
    have hnext : 2 - (i + 1) = 1 - i := by omega
    exact Nat.le_of_eq (by rw [hnext])
  | testLenght =>
    refine .of_eq rfl ?_
    simp only [mainStep]
    split <;> exact Nat.le_refl _
  | resetSlot | moveHead | decrement | delayEnd => exact .of_eq rfl (Nat.le_refl _)

end Machine

/-! ## Runs -/

/-- The machine and how many calls of the driver were made before this call of `message_loop`. -/
structure Watched where
  machine : Machine
  start : Nat

namespace Watched

/-- The main loop enters `message_loop`. -/
def enters (w : Watched) : MachineAction → Bool
  | .main _ =>
    match w.machine.next with
    | .idle => true
    | _ => false
  | _ => false

def step (w : Watched) (a : MachineAction) : Watched where
  machine := machineStep w.machine a
  start := if w.enters a then w.machine.firmware.bus.length else w.start

/-- The calls of the driver since `message_loop` was entered. -/
def calls (w : Watched) : List BusOp := w.machine.firmware.bus.drop w.start

/-- Every call of the driver comes to its end, and together they took no more accesses to the
controller than two exchanges may. -/
def Bounded (w : Watched) : Prop :=
  (∀ op ∈ w.calls, op.Returns) ∧
    ∀ b b', BusOp.AllLead w.calls b b' → I2c.Costs (2 * exchangeCost) b b'

/-- What was spent and what is left are within two exchanges. -/
structure InBudget (w : Watched) : Prop where
  clean : w.machine.firmware.Clean
  start : w.start ≤ w.machine.firmware.bus.length
  ends : ∀ op ∈ w.calls, op.Ends
  spent : BusOp.costs w.calls + w.machine.next.budget ≤ 2 * exchangeCost

theorem InBudget.bounded {w : Watched} (h : w.InBudget) : w.Bounded := by
  refine ⟨fun op hop => (h.ends op hop).returns, fun b b' hcalls => ?_⟩
  exact (hcalls.costs h.ends).mono (Nat.le_trans (Nat.le_add_right _ _) h.spent)

/-- Paying for a statement out of the budget. -/
theorem InBudget.pays {w : Watched} (h : w.InBudget) {s : Machine} (hclean : s.firmware.Clean)
    (hpays : w.machine.Pays s) : InBudget ⟨s, w.start⟩ := by
  obtain ⟨n, ⟨ops, hbus, hends, hcost⟩, hle⟩ := hpays
  have hspent := h.spent
  have hcalls : Watched.calls ⟨s, w.start⟩ = w.calls ++ ops := by
    show s.firmware.bus.drop w.start = w.machine.firmware.bus.drop w.start ++ ops
    rw [hbus, List.drop_append_of_le_length h.start]
  refine ⟨hclean, ?_, ?_, ?_⟩
  · show w.start ≤ s.firmware.bus.length
    rw [hbus, List.length_append]
    exact Nat.le_add_right_of_le h.start
  · intro op hop
    rw [hcalls] at hop
    exact (List.mem_append.mp hop).elim (h.ends op) (hends op)
  · show BusOp.costs (Watched.calls ⟨s, w.start⟩) + s.next.budget ≤ 2 * exchangeCost
    rw [hcalls, BusOp.costs_append]
    omega

/-- A new call has spent nothing. -/
theorem InBudget.enter {s : Machine} (hclean : s.firmware.Clean)
    (hle : s.next.budget ≤ 2 * exchangeCost) : InBudget ⟨s, s.firmware.bus.length⟩ := by
  have hcalls : Watched.calls ⟨s, s.firmware.bus.length⟩ = [] := List.drop_length
  refine ⟨hclean, Nat.le_refl _, ?_, ?_⟩
  · rw [hcalls]
    exact nofun
  · rw [hcalls, BusOp.costs, Nat.zero_add]
    exact hle

theorem step_inBudget (w : Watched) (a : MachineAction) (h : w.InBudget) :
    (w.step a).InBudget := by
  obtain ⟨⟨f, next, statusAux⟩, start⟩ := w
  have hclean := Machine.machineStep_clean ⟨f, next, statusAux⟩ a h.clean
  cases a with
  | main e =>
    have hrunning : next ≠ .idle → InBudget ⟨mainStep e ⟨f, next, statusAux⟩, start⟩ := fun hnext =>
      h.pays hclean (Machine.mainStep_pays e hnext h.clean)
    cases next with
    | idle => exact .enter hclean (Nat.le_refl _)
    | checkInit | checkLenght | checkAddr | loopTest | setAddr | aux | delaySlave | resetSlot
    | moveHead | testLenght | decrement | delayEnd => exact hrunning nofun
  | scheduler t => exact h.pays hclean (.of_eq (isrScheduler_bus t f) (Nat.le_refl _))
  | registers regs => exact h.pays hclean (.of_eq rfl (Nat.le_refl _))

/-- Whatever the slaves answer and the tasks enqueue, a call of `message_loop` always comes
to its end after so many accesses to the controller. -/
theorem run_bounded (f : Firmware) (as : List MachineAction) :
    Run.Always step Bounded ⟨Machine.afterInit f, f.bus.length⟩ as :=
  (Run.Always.of_invariant step_inBudget
    (.enter (Machine.afterInit_clean f) (Nat.zero_le _)) as).mono fun _ => InBudget.bounded

/-- Two exchanges take 75358 accesses at most. -/
example : 2 * exchangeCost = 75358 := rfl

end Watched

end Recirculador
