/-
What the main loop reads through the pointer of a message.

`message_loop` sends the bytes behind the pointer of the message it serves and compares the
reply of a slave with them.  The program fills in messages in a few places, and in every
state of a run the queue holds such messages only: their pointers lead into the register
file, and the bytes behind them are those of the registers they name.
-/
import Recirculador.Bus.Frame
import Recirculador.Change.Pending
import Recirculador.Message.Preemption

namespace Recirculador

open SysRegMap Registers

/-! ## The messages of the program -/

/-- Registers that are announced together, and where they lie in `reg_vet`. -/
structure Block where
  bank : Bank
  regAddr : Nat
  nReg : Nat
  offset : Nat
  size : Nat
  deriving DecidableEq

namespace Block

def bools : Block := ⟨.bool, offsetBool, nregBool, 0, nregBool / 8 + 1⟩

def shorts : Block := ⟨.short, offsetShort, nregShort, shortBase, nregShort * 2⟩

def statics : Block := ⟨.int, fluxCalib, nregIntStatic, intBase + 4 * 14, nregIntStatic * 4⟩

def measures : Block := ⟨.int, offsetInt, errors - timestamp, intBase, (errors - timestamp) * 4⟩

def all : List Block := [bools, shorts, statics, measures]

/-- The message announces the block of the register file at `base`. -/
structure AnnouncedBy (b : Block) (base : BitVec 32) (m : I2cModbus) : Prop where
  code : m.code = Modbus.setMultNumReg
  regAddr : m.regAddr = BitVec.ofNat 16 b.regAddr
  nReg : m.nReg = BitVec.ofNat 16 b.nReg
  bytes : m.bytes = BitVec.ofNat 8 b.size
  ptrMessage : m.ptrMessage = base + BitVec.ofNat 32 b.offset
  sizeHead : m.sizeHead = 6
  sizeMessage : m.sizeMessage = BitVec.ofNat 16 b.size

/-- A block and the five bytes a reply is compared with lie in the register file. -/
theorem inside {b : Block} (h : b ∈ all) :
    b.offset + b.size ≤ 784 ∧ b.offset + 5 ≤ 784 ∧ b.size < 256 := by
  simp only [all, List.mem_cons, List.not_mem_nil, or_false] at h
  rcases h with rfl | rfl | rfl | rfl <;> decide

end Block

/-- A message of the program: the filler of a free slot, the request of a status or the
announcement of a block. -/
inductive Built (base : BitVec 32) (m : I2cModbus) : Prop
  | filler (code : m.code = 0) (sizeHead : m.sizeHead = 0) (sizeMessage : m.sizeMessage = 0)
  | status (code : m.code = Modbus.reportSlaveId) (sizeHead : m.sizeHead = 1)
      (sizeMessage : m.sizeMessage = 0)
  | block (b : Block) (mem : b ∈ Block.all) (announced : b.AnnouncedBy base m)

namespace Built

variable {base : BitVec 32} {m m' : I2cModbus}

/-- Sending writes the checksum and the address of a message only. -/
theorem of_contents (h : Built base m) (hsame : m'.contents = m.contents) : Built base m' := by
  simp only [I2cModbus.contents, I2cModbus.mk.injEq] at hsame
  obtain ⟨hcode, hregAddr, hnReg, hbytes, hptr, -, -, hhead, hsize⟩ := hsame
  cases h with
  | filler code sizeHead sizeMessage =>
    exact .filler (hcode.trans code) (hhead.trans sizeHead) (hsize.trans sizeMessage)
  | status code sizeHead sizeMessage =>
    exact .status (hcode.trans code) (hhead.trans sizeHead) (hsize.trans sizeMessage)
  | block b mem h =>
    exact .block b mem ⟨hcode.trans h.code, hregAddr.trans h.regAddr, hnReg.trans h.nReg,
      hbytes.trans h.bytes, hptr.trans h.ptrMessage, hhead.trans h.sizeHead,
      hsize.trans h.sizeMessage⟩

theorem default (base : BitVec 32) : Built base messageDefault := .filler rfl rfl rfl

theorem setMultNumReg {b : Block} (hmem : b ∈ Block.all) {ptrMessage : BitVec 32}
    (hptr : ptrMessage = base + BitVec.ofNat 32 b.offset) (addr : BitVec 8) (stack : I2cModbus) :
    Built base (setMultNumReg b.regAddr b.nReg b.size ptrMessage addr stack) := by
  have hsize := (Block.inside hmem).2.2
  refine .block b hmem ⟨rfl, rfl, rfl, rfl, hptr, rfl, ?_⟩
  show (BitVec.ofNat 8 b.size).setWidth 16 = BitVec.ofNat 16 b.size
  apply BitVec.eq_of_toNat_eq
  rw [BitVec.toNat_setWidth, BitVec.toNat_ofNat, BitVec.toNat_ofNat, Nat.mod_eq_of_lt hsize]

theorem statusMessage (base : BitVec 32) (stack : I2cModbus) :
    Built base (statusMessage stack) := .status rfl rfl rfl

end Built

theorem bankMessage_built (b : Bank) (stack : I2cModbus) (f : Firmware) :
    Built f.regVetAddr (bankMessage b stack f) := by
  cases b with
  | bool =>
    exact .setMultNumReg (b := .bools) (by decide) (BitVec.add_zero f.regVetAddr).symm _ stack
  | short => exact .setMultNumReg (b := .shorts) (by decide) rfl _ stack
  | int => exact .setMultNumReg (b := .statics) (by decide) rfl _ stack

/-! ## What the tasks and the handlers enqueue -/

/-- The queue of `f'` is that of `f` after some messages of the program were enqueued. -/
def Firmware.Posts (f f' : Firmware) : Prop :=
  f'.regVetAddr = f.regVetAddr ∧
    ∃ ms, (∀ m ∈ ms, Built f.regVetAddr m) ∧ f'.queue = enqueueAll ms f.queue

namespace Firmware.Posts

variable {f f' f'' : Firmware}

theorem of_eq (haddr : f'.regVetAddr = f.regVetAddr) (hqueue : f'.queue = f.queue) :
    Posts f f' := ⟨haddr, [], nofun, hqueue⟩

theorem refl (f : Firmware) : Posts f f := of_eq rfl rfl

theorem trans (h : Posts f f') (h' : Posts f' f'') : Posts f f'' := by
  obtain ⟨haddr, ms, hms, hqueue⟩ := h
  obtain ⟨haddr', ms', hms', hqueue'⟩ := h'
  refine ⟨haddr'.trans haddr, ms ++ ms', ?_, ?_⟩
  · intro m hm
    rcases List.mem_append.mp hm with hm | hm
    · exact hms m hm
    · exact haddr ▸ hms' m hm
  · rw [hqueue', hqueue, enqueueAll, enqueueAll, enqueueAll, List.foldl_append]

theorem messageNew {m : I2cModbus} (h : Built f.regVetAddr m) : Posts f (f.messageNew m).2 :=
  ⟨rfl, [m], fun _ hm => (List.mem_singleton.mp hm) ▸ h, rfl⟩

theorem ite {c : Prop} [Decidable c] (h : Posts f f') (h' : Posts f f'') :
    Posts f (if c then f' else f'') := by
  split
  · exact h
  · exact h'

end Firmware.Posts

open Firmware

theorem recChangeVerify_posts (now : BitVec 64) (stack : I2cModbus) (f : Firmware) :
    Posts f (recChangeVerify now stack f) := by
  have hrefresh : Posts f (f.refresh now) := .of_eq rfl rfl
  rw [recChangeVerify_eq]
  cases f.tries now with
  | none => exact hrefresh
  | some b =>
    have hannounce : Posts (f.refresh now) (announce b stack (f.refresh now)) :=
      Posts.messageNew (bankMessage_built b stack (f.refresh now))
    exact hrefresh.trans hannounce

theorem recCreateMessages_posts (statusStack stack : I2cModbus) (f : Firmware) :
    Posts f (recCreateMessages statusStack stack f) := by
  have hstatus : Posts f (recGetStatus statusStack f) :=
    Posts.messageNew (Built.statusMessage _ statusStack)
  have hsent : ∀ g : Firmware, Posts g (sendMeasured stack g) := by
    intro g
    unfold sendMeasured
    refine .ite (.refl g) ?_
    exact Posts.trans (.of_eq rfl rfl)
      (Posts.messageNew (.setMultNumReg (b := .measures) (by decide) rfl sysI2cAddrAll stack))
  exact hstatus.trans (hsent _)

theorem regChage_posts (addr flag : BitVec 8) (stack : I2cModbus) (f : Firmware) :
    Posts f (regChage addr flag stack f) := by
  have hpost : ∀ {c : Prop} [Decidable c] {m : I2cModbus} {g : Firmware},
      Built g.regVetAddr m → Posts g (if c then (g.messageNew m).2 else g) := fun h =>
    .ite (.messageNew h) (.refl _)
  unfold regChage
  refine .ite (.refl f) ?_
  dsimp only
  refine Posts.trans (Posts.trans ?_ (hpost ?_)) (hpost ?_)
  · exact hpost (.setMultNumReg (b := .bools) (by decide) (BitVec.add_zero _).symm addr stack)
  · exact .setMultNumReg (b := .shorts) (by decide) rfl addr stack
  · exact .setMultNumReg (b := .statics) (by decide) rfl addr stack

theorem fixedReply_posts {k : (Nat → BitVec 8) → Firmware → Int × Firmware}
    (hk : ∀ reply f, Posts f (k reply f).2) (len : Nat) (e : Exchange) (f : Firmware) :
    Posts f (fixedReply len k e f).2 := by
  have hread : Posts f (f.record (.readLenght f.queue.head.addr len)) := .of_eq rfl rfl
  unfold fixedReply
  dsimp only [i2cReadLenghtMaster]
  cases e.delivered len with
  | none => exact hread
  | some reply =>
    dsimp only
    split
    · exact hread.trans (hk reply _)
    · exact hread

/-- A reply that is read and checked, and registers written if it is right. -/
theorem checkedReply_posts {f g : Firmware} (hg : Posts f g) (hread : Option (Nat → BitVec 8))
    (check : (Nat → BitVec 8) → Bool) (k : (Nat → BitVec 8) → Int × Registers) :
    Posts f (match hread with
      | none => (replyFail, g)
      | some reply =>
        if check reply then ((k reply).1, { g with regs := (k reply).2 }) else (replyFail, g)).2 := by
  cases hread with
  | none => exact hg
  | some reply =>
    dsimp only
    split
    · exact hg.trans (.of_eq rfl rfl)
    · exact hg

theorem genericReadReg_posts (e : Exchange) (f : Firmware) : Posts f (genericReadReg e f).2 := by
  unfold genericReadReg
  dsimp only [i2cReadLenghtMaster]
  split
  · exact .refl f
  · exact checkedReply_posts (.of_eq rfl rfl) (e.delivered _) _ fun _ => (replyOK, _)

theorem getBoolReg_posts (e : Exchange) (f : Firmware) : Posts f (getBoolReg e f).2 := by
  unfold getBoolReg
  dsimp only [i2cReadLenghtMaster]
  exact checkedReply_posts (.of_eq rfl rfl) (e.delivered _) _ _

theorem openReply_posts (sizeReply : BitVec 8 → Nat) (e : Exchange) (f : Firmware) :
    Posts f (openReply sizeReply e f).2 := by
  unfold openReply
  dsimp only [i2cReadMaster]
  cases e.reply with
  | none => exact .of_eq rfl rfl
  | some reply =>
    dsimp only
    split <;> exact .of_eq rfl rfl

theorem rwMultRegisters_posts (e : Exchange) (f : Firmware) :
    Posts f (rwMultRegisters e f).2 := by
  unfold rwMultRegisters
  dsimp only [i2cReadLenghtMaster]
  split
  · exact checkedReply_posts (.of_eq rfl rfl) (e.delivered _) _ fun _ => (replyOK, _)
  · exact .refl f

theorem reportSlaveId_posts (e : Exchange) (f : Firmware) :
    Posts f (reportSlaveId e f).2 := by
  have htime : ∀ timestampRef g, Posts g (setTimestamp e timestampRef g) := fun _ g =>
    .ite (.of_eq rfl rfl) (.refl g)
  unfold reportSlaveId
  split
  · exact fixedReply_posts (fun reply g => (htime _ g).trans (regChage_posts _ _ _ _)) 16 e f
  · exact .refl f

/-- Only the report of a slave makes the program enqueue. -/
theorem handleReply_posts (e : Exchange) (statusAux : Int) (f : Firmware) :
    Posts f (handleReply e statusAux f).2 := by
  have hkept : ∀ len k, (∀ reply f, (k reply f).2 = f) → Posts f (fixedReply len k e f).2 :=
    fun len k hk => fixedReply_posts (fun reply f => .of_eq (by rw [hk]) (by rw [hk])) len e f
  exact handleReply_rule (P := fun r => Posts f r.2) (fun _ => getBoolReg_posts e f)
    (genericReadReg_posts e f) (hkept _ _ fun _ _ => rfl) (hkept 4 _ fun _ _ => rfl)
    (hkept 5 _ fun _ _ => rfl) (fun _ => openReply_posts _ e f) (reportSlaveId_posts e f)
    (hkept 10 _ fun _ _ => rfl) (rwMultRegisters_posts e f) (fun _ => .refl f) statusAux

/-! ## The queue holds nothing else -/

def Queue.Holds (P : I2cModbus → Prop) (q : Queue) : Prop := ∀ i, P (q.slots i).message

namespace Queue.Holds

variable {P : I2cModbus → Prop} {q : Queue}

theorem setMessage (h : q.Holds P) {m : I2cModbus} (hm : P m) (slot : Slot) :
    (q.setMessage slot m).Holds P := by
  intro i
  by_cases hi : i = slot
  · simpa [Queue.setMessage, hi] using hm
  · simpa [Queue.setMessage, hi] using h i

theorem messageNew (h : q.Holds P) {m : I2cModbus} (hm : P m) :
    (Recirculador.messageNew m q).2.Holds P := by
  by_cases hroom : q.Accepts
  · obtain ⟨slot, -, hnew⟩ := messageNew_accepts hroom m
    rw [hnew]
    exact setMessage (q := { q with lenght := q.lenght + 1 }) h hm slot
  · rw [(messageNew_refuses hroom m).2]
    exact h

theorem enqueueAll (h : q.Holds P) {ms : List I2cModbus} (hms : ∀ m ∈ ms, P m) :
    (Recirculador.enqueueAll ms q).Holds P := by
  induction ms generalizing q with
  | nil => exact h
  | cons m ms ih =>
    exact ih (h.messageNew (hms m List.mem_cons_self)) fun m' hm' =>
      hms m' (List.mem_cons_of_mem m hm')

end Queue.Holds

/-- Every message in the queue is one of the program's. -/
def Firmware.Clean (f : Firmware) : Prop := f.queue.Holds (Built f.regVetAddr)

namespace Firmware.Clean

variable {f f' : Firmware}

theorem head (h : f.Clean) : Built f.regVetAddr f.queue.head := h f.queue.ptrQueue

theorem posts (h : f.Clean) (hposts : Posts f f') : f'.Clean := by
  obtain ⟨haddr, ms, hms, hqueue⟩ := hposts
  rw [Clean, haddr, hqueue]
  exact Queue.Holds.enqueueAll h hms

/-- Writing the checksum or the address into the message at the pointer. -/
theorem setHead (h : f.Clean) {m : I2cModbus} (hm : m.contents = f.queue.head.contents) :
    { f with queue := f.queue.setMessage f.queue.ptrQueue m }.Clean :=
  Queue.Holds.setMessage h (h.head.of_contents hm) f.queue.ptrQueue

theorem sendMessage (h : f.Clean) (e : Exchange) : (f.sendMessage e).2.Clean := by
  refine setHead h ?_
  split <;> rfl

theorem resetSlot (h : f.Clean) : { f with queue := f.queue.resetSlot }.Clean :=
  Queue.Holds.setMessage h (Built.default f.regVetAddr) f.queue.ptrQueue

end Firmware.Clean

namespace Machine

theorem auxStep_clean (e : Exchange) (statement : AuxStatement) (slave : Option Nat) {s : Machine}
    (h : s.firmware.Clean) : (auxStep e statement slave s).firmware.Clean := by
  cases statement with
  | pauseSend => exact h
  | send => exact h.sendMessage e
  | resumeSend => exact h
  | delay => exact h
  | pauseReply => exact h
  | reply => exact h.posts (handleReply_posts e s.statusAux s.firmware)
  | clear => exact h.posts (.ite (.of_eq rfl rfl) (.refl s.firmware))
  | resumeReply => exact h

theorem mainStep_clean (e : Exchange) {s : Machine} (h : s.firmware.Clean) :
    (mainStep e s).firmware.Clean := by
  obtain ⟨f, next, statusAux⟩ := s
  cases next with
  | setAddr i => exact Firmware.Clean.setHead h rfl
  | aux statement slave => exact auxStep_clean e statement slave h
  | resetSlot => exact Firmware.Clean.resetSlot h
  | idle | checkInit | checkLenght | checkAddr | loopTest | delaySlave | moveHead | testLenght
  | decrement | delayEnd => exact h

theorem machineStep_clean (s : Machine) (a : MachineAction) (h : s.firmware.Clean) :
    (machineStep s a).firmware.Clean := by
  cases a with
  | main e => exact mainStep_clean e h
  | scheduler t =>
    refine h.posts (.ite (.refl s.firmware) ?_)
    cases t with
    | changeVerify now stack => exact recChangeVerify_posts now stack s.firmware
    | createMessages statusStack stack => exact recCreateMessages_posts statusStack stack s.firmware
  | registers regs => exact h

theorem afterInit_clean (f : Firmware) : (afterInit f).firmware.Clean := fun _ =>
  Built.default f.regVetAddr

end Machine

/-! ## Reading behind the pointer -/

/-- A byte of the register file is what it is whatever the rest of the memory holds. -/
theorem deref_inside {offset : Nat} (hoffset : offset < 784) (memory : Nat → BitVec 8)
    (f : Firmware) :
    f.deref memory (f.regVetAddr + BitVec.ofNat 32 offset) = f.regs.regVet offset := by
  have hdistance : (f.regVetAddr + BitVec.ofNat 32 offset - f.regVetAddr).toNat = offset := by
    rw [BitVec.add_comm, BitVec.add_sub_cancel, BitVec.toNat_ofNat]
    exact Nat.mod_eq_of_lt (by omega)
  rw [deref, hdistance]
  exact if_pos hoffset

namespace Block.AnnouncedBy

variable {b : Block} {f : Firmware} {m : I2cModbus}

theorem deref_eq (h : b.AnnouncedBy f.regVetAddr m) {i : Nat} (hi : b.offset + i < 784)
    (memory : Nat → BitVec 8) :
    f.deref memory (m.ptrMessage + BitVec.ofNat 32 i) = f.regs.regVet (b.offset + i) := by
  have hptr : m.ptrMessage + BitVec.ofNat 32 i = f.regVetAddr + BitVec.ofNat 32 (b.offset + i) := by
    rw [h.ptrMessage, BitVec.add_assoc, ← BitVec.ofNat_add]
  rw [hptr, deref_inside hi]

end Block.AnnouncedBy

theorem Block.AnnouncedBy.size_eq {b : Block} {base : BitVec 32} {m : I2cModbus}
    (h : b.AnnouncedBy base m) (hsmall : b.size < 256) : m.sizeMessage.toInt = b.size := by
  have hnat : m.sizeMessage.toNat = b.size := by
    rw [h.sizeMessage, BitVec.toNat_ofNat]
    exact Nat.mod_eq_of_lt (by omega)
  rw [BitVec.toInt_eq_toNat_cond, hnat, if_pos (by omega)]

/-- The bytes a transfer reads behind the pointer of the message served. -/
theorem Firmware.Clean.payload_eq {f : Firmware} (h : f.Clean) (memory memory' : Nat → BitVec 8)
    {i : Nat} (hi : i < (f.queue.head.sizeMessage.signExtend 32).toNat) :
    f.deref memory (f.queue.head.ptrMessage + BitVec.ofNat 32 i) =
      f.deref memory' (f.queue.head.ptrMessage + BitVec.ofNat 32 i) := by
  cases h.head with
  | filler _ _ hsize => exact absurd hi (by rw [hsize]; exact Nat.not_lt_zero i)
  | status _ _ hsize => exact absurd hi (by rw [hsize]; exact Nat.not_lt_zero i)
  | block b hmem hb =>
    obtain ⟨hinside, -, hsmall⟩ := Block.inside hmem
    have hsize := hb.size_eq hsmall
    rw [I2c.toNat_signExtend (by omega)] at hi
    rw [hb.deref_eq (by omega), hb.deref_eq (by omega)]

/-- The bytes a reply is compared with. -/
theorem Firmware.Clean.echoes_eq {f : Firmware} (h : f.Clean)
    (hcode : f.queue.head.code = Modbus.setMultNumReg) (memory memory' : Nat → BitVec 8)
    {i : Nat} (hi : i < 5) :
    f.deref memory (f.queue.head.ptrMessage + BitVec.ofNat 32 i) =
      f.deref memory' (f.queue.head.ptrMessage + BitVec.ofNat 32 i) := by
  cases h.head with
  | filler hfiller _ _ => exact absurd (hfiller.symm.trans hcode) (by decide)
  | status hstatus _ _ => exact absurd (hstatus.symm.trans hcode) (by decide)
  | block b hmem hb =>
    obtain ⟨-, hinside, -⟩ := Block.inside hmem
    rw [hb.deref_eq (by omega), hb.deref_eq (by omega)]

namespace Firmware.Clean

variable {f : Firmware}

theorem sendMessage_eq (h : f.Clean) (e : Exchange) (memory : Nat → BitVec 8) :
    f.sendMessage { e with memory } = f.sendMessage e := by
  have hcrc : modbusStructCrc16 (fun i => f.queue.head.structBytes.getD i 0)
        (f.queue.head.sizeHead.signExtend 32).toNat
        (fun i => f.deref memory (f.queue.head.ptrMessage + BitVec.ofNat 32 i))
        (f.queue.head.sizeMessage.signExtend 32).toNat =
      modbusStructCrc16 (fun i => f.queue.head.structBytes.getD i 0)
        (f.queue.head.sizeHead.signExtend 32).toNat
        (fun i => f.deref e.memory (f.queue.head.ptrMessage + BitVec.ofNat 32 i))
        (f.queue.head.sizeMessage.signExtend 32).toNat := by
    rw [modbusStructCrc16_eq, modbusStructCrc16_eq]
    have hpayload := List.map_congr_left fun i hi =>
      h.payload_eq memory e.memory (List.mem_range.mp hi)
    rw [hpayload]
  simp only [Firmware.sendMessage, hcrc]

theorem genericSetReg_eq (h : f.Clean) (hcode : f.queue.head.code = Modbus.setMultNumReg)
    (e : Exchange) (memory : Nat → BitVec 8) :
    genericSetReg { e with memory } f = genericSetReg e f := by
  have hsize : (if f.queue.head.code = Modbus.diagnostics then 5 else 7) = 7 :=
    if_neg (by rw [hcode]; decide)
  have hechoes : ∀ reply op, echoes { e with memory } reply 5 (f.record op) =
      echoes e reply 5 (f.record op) := by
    intro reply op
    unfold echoes
    rw [Bool.eq_iff_iff, List.all_eq_true, List.all_eq_true]
    refine forall₂_congr fun i hi => ?_
    have hbyte := h.echoes_eq hcode memory e.memory (List.mem_range.mp hi)
    exact iff_of_eq (congrArg (fun byte => (byte == reply i) = true) hbyte)
  unfold genericSetReg fixedReply
  dsimp only [i2cReadLenghtMaster, Exchange.delivered]
  rw [hsize]
  simp only [Nat.reduceSub, hechoes]

theorem handleReply_eq (h : f.Clean) (e : Exchange) (memory : Nat → BitVec 8) (statusAux : Int) :
    handleReply { e with memory } statusAux f = handleReply e statusAux f := by
  cases h.head with
  | filler hcode _ _ => simp [handleReply, hcode]
  | status hcode _ _ =>
    have hreport : reportSlaveId { e with memory } f = reportSlaveId e f := rfl
    simp [handleReply, hcode, hreport]
  | block b _ hb =>
    have hset : setMultNumRegReply { e with memory } f = setMultNumRegReply e f :=
      h.genericSetReg_eq hb.code e memory
    simp [handleReply, hb.code, hset]

end Firmware.Clean

namespace Machine

theorem mainStep_eq {s : Machine} (h : s.firmware.Clean) (e : Exchange) (memory : Nat → BitVec 8) :
    mainStep { e with memory } s = mainStep e s := by
  obtain ⟨f, next, statusAux⟩ := s
  cases next with
  | aux statement slave =>
    cases statement with
    | send =>
      have hsend := h.sendMessage_eq e memory
      simp only [mainStep, auxStep]
      rw [hsend]
    | reply =>
      have hreply := h.handleReply_eq e memory statusAux
      simp only [mainStep, auxStep]
      rw [hreply]
    | pauseSend | resumeSend | delay | pauseReply | clear | resumeReply => rfl
  | idle | checkInit | checkLenght | checkAddr | loopTest | setAddr | delaySlave | resetSlot
  | moveHead | testLenght | decrement | delayEnd => rfl

/-- However tasks and interrupts come between its statements, the main loop never depends on
what the memory outside of the register file holds. -/
theorem run_reads_registers (f : Firmware) (as : List MachineAction) :
    Run.Always machineStep
      (fun s => ∀ e memory, mainStep { e with memory } s = mainStep e s) (afterInit f) as :=
  (Run.Always.of_invariant machineStep_clean (afterInit_clean f) as).mono fun _ h => mainStep_eq h

end Machine

end Recirculador
