/-
A message on its way out, under preemption.

`i2cSend_master_modbus` is taken statement by statement and the button's interrupt
may come between any two of them.  The checksum is made from the registers behind
the message's pointer once, the payload is read from them again byte by byte: a
byte the interrupt changes in between goes out under the checksum of the old one.
-/
import Recirculador.Bus.Frame
import Recirculador.Change.Tasks
import Recirculador.Common.Run
import Recirculador.Message.Loop
import Recirculador.Pump.Clobber

namespace Recirculador

open SysRegMap Registers

/-! ## The statements -/

inductive FramePart
  | head
  | payload
  | crc

/-- The next statement of `i2cSend_master_modbus`; `complete` and `failed` are its
returns. -/
inductive SendStatement
  | waitIdle
  | computeCrc
  | address
  | start
  | waitStart
  | loopTest (part : FramePart) (i : Nat)
  | wait (part : FramePart) (i : Nat)
  | data (part : FramePart) (i : Nat)
  | next (part : FramePart) (i : Nat)
  | waitEnd
  | dummy
  | stop
  | waitStopped
  | complete
  | failed

structure Transmission where
  firmware : Firmware
  gpio : Gpio
  botoeira : IsrBotoeira
  next : SendStatement
  /-- What was written to `MSTDAT` after the address. -/
  sent : List (BitVec 8)

namespace Transmission

def begin (f : Firmware) (gpio : Gpio) (botoeira : IsrBotoeira) : Transmission :=
  { firmware := f, gpio, botoeira, next := .waitIdle, sent := [] }

def message (s : Transmission) : I2cModbus := s.firmware.queue.head

/-- The byte behind the message's pointer, as it is now. -/
def payloadNow (memory : Nat → BitVec 8) (s : Transmission) (i : Nat) : BitVec 8 :=
  s.firmware.deref memory (s.message.ptrMessage + BitVec.ofNat 32 i)

def partSize (m : I2cModbus) : FramePart → Nat
  | .head => m.sizeHead.toInt.toNat
  | .payload => m.sizeMessage.toInt.toNat
  | .crc => 2

def partByte (memory : Nat → BitVec 8) (s : Transmission) : FramePart → Nat → BitVec 8
  | .head, i => s.message.structBytes.getD i 0
  | .payload, i => s.payloadNow memory i
  | .crc, i => (crcBytes s.message.crc).getD i 0

/-- The statement after a loop. -/
def afterPart : FramePart → SendStatement
  | .head => .loopTest .payload 0
  | .payload => .loopTest .crc 0
  | .crc => .waitEnd

/-- One statement; `ok` is the result of a wait. -/
def statementStep (memory : Nat → BitVec 8) (ok : Bool) (s : Transmission) : Transmission :=
  match s.next with
  | .waitIdle => { s with next := if ok then .computeCrc else .failed }
  | .computeCrc =>
    let f := s.firmware
    let message := { s.message with crc := s.message.frameCrc (s.payloadNow memory) }
    { s with
      firmware := { f with queue := f.queue.setMessage f.queue.ptrQueue message }
      next := .address }
  | .address => { s with next := .start }
  | .start => { s with next := .waitStart }
  | .waitStart => { s with next := if ok then .loopTest .head 0 else .failed }
  | .loopTest part i =>
    { s with next := if i < partSize s.message part then .wait part i else afterPart part }
  | .wait part i => { s with next := if ok then .data part i else .failed }
  | .data part i => { s with sent := s.sent ++ [s.partByte memory part i], next := .next part i }
  | .next part i => { s with next := .loopTest part (i + 1) }
  -- The last two waits are not looked at.
  | .waitEnd => { s with next := .dummy }
  | .dummy => { s with next := .stop }
  | .stop => { s with next := .waitStopped }
  | .waitStopped => { s with next := .complete }
  | .complete => s
  | .failed => s

def plant (s : Transmission) : Plant :=
  { regs := s.firmware.regs, gpio := s.gpio, botoeira := s.botoeira }

def interrupt (now : BitVec 64) (s : Transmission) : Transmission :=
  let p := recIsrBotoeira now s.plant
  { s with firmware := { s.firmware with regs := p.regs }, gpio := p.gpio, botoeira := p.botoeira }

inductive Action
  | statement (ok : Bool)
  | botoeira (now : BitVec 64)
  | pins (level : Nat → Bool)

def step (memory : Nat → BitVec 8) (s : Transmission) : Action → Transmission
  | .statement ok => s.statementStep memory ok
  | .botoeira now => s.interrupt now
  | .pins level => { s with gpio := { s.gpio with level } }

/-! ## Complete strings -/

/-- The whole string is out. -/
def Complete : SendStatement → Prop
  | .waitEnd => True
  | .dummy => True
  | .stop => True
  | .waitStopped => True
  | .complete => True
  | _ => False

instance : (next : SendStatement) → Decidable (Complete next)
  | .waitEnd => inferInstanceAs (Decidable True)
  | .dummy => inferInstanceAs (Decidable True)
  | .stop => inferInstanceAs (Decidable True)
  | .waitStopped => inferInstanceAs (Decidable True)
  | .complete => inferInstanceAs (Decidable True)
  | .waitIdle => inferInstanceAs (Decidable False)
  | .computeCrc => inferInstanceAs (Decidable False)
  | .address => inferInstanceAs (Decidable False)
  | .start => inferInstanceAs (Decidable False)
  | .waitStart => inferInstanceAs (Decidable False)
  | .loopTest _ _ => inferInstanceAs (Decidable False)
  | .wait _ _ => inferInstanceAs (Decidable False)
  | .data _ _ => inferInstanceAs (Decidable False)
  | .next _ _ => inferInstanceAs (Decidable False)
  | .failed => inferInstanceAs (Decidable False)

def Checked (s : Transmission) : Prop :=
  Complete s.next →
    checkCrc16 (fun i => s.sent.getD i 0) (BitVec.ofNat 32 s.sent.length) = true

instance (s : Transmission) : Decidable s.Checked := inferInstanceAs (Decidable (_ → _))

/-- The checksum is made and payload byte `j` still to be read. -/
def isAhead (j : Nat) : SendStatement → Bool
  | .address => true
  | .start => true
  | .waitStart => true
  | .loopTest .head _ => true
  | .wait .head _ => true
  | .data .head _ => true
  | .next .head _ => true
  | .loopTest .payload i => i ≤ j
  | .wait .payload i => i ≤ j
  | .data .payload i => i ≤ j
  | .next .payload i => i < j
  | _ => false

/-- Where in the payload the register byte with the pump's bit is, if it is. -/
def pumpIndex (s : Transmission) : Nat := (s.firmware.regVetAddr - s.message.ptrMessage).toNat

/-- The interrupt changes the pump's bit. -/
def Flips (now : BitVec 64) (p : Plant) : Prop :=
  p.Fires now ∧ regReadBool pump p.regs = p.botoeira.pumpOn

instance (now : BitVec 64) (p : Plant) : Decidable (Flips now p) :=
  inferInstanceAs (Decidable (_ ∧ _))

/-- An interrupt changes the pump's bit while its byte waits to be sent under a
checksum already made. -/
def Disturbs (s : Transmission) : Action → Prop
  | .botoeira now => Flips now s.plant ∧ s.pumpIndex < partSize s.message .payload ∧
      isAhead s.pumpIndex s.next = true
  | _ => False

instance (s : Transmission) : (a : Action) → Decidable (s.Disturbs a)
  | .botoeira _ => inferInstanceAs (Decidable (_ ∧ _))
  | .statement _ => inferInstanceAs (Decidable False)
  | .pins _ => inferInstanceAs (Decidable False)

/-- A step, and how many disturbances there were. -/
def tally (memory : Nat → BitVec 8) (t : Transmission × Nat) (a : Action) : Transmission × Nat :=
  (step memory t.1 a, if t.1.Disturbs a then t.2 + 1 else t.2)

/-- How many disturbances a run of the send has. -/
def disturbances (memory : Nat → BitVec 8) (s : Transmission) (as : List Action) : Nat :=
  (Run.final (tally memory) (s, 0) as).2

/-! ## How far a string is out -/

/-- Sizes as the program gives them: a head inside the checked part of the
structure and a payload. -/
structure Sized (m : I2cModbus) : Prop where
  head : 0 ≤ m.sizeHead.toInt
  head_le : m.sizeHead.toInt ≤ 6
  message : 0 ≤ m.sizeMessage.toInt

theorem sized_setMultNumReg (regAddr nReg bytes : Nat) (ptrMessage : BitVec 32) (addr : BitVec 8)
    (stack : I2cModbus) : Sized (setMultNumReg regAddr nReg bytes ptrMessage addr stack) := by
  have hsmall := (BitVec.ofNat 8 bytes).isLt
  have hnat : ((BitVec.ofNat 8 bytes).setWidth 16).toNat = (BitVec.ofNat 8 bytes).toNat :=
    BitVec.toNat_setWidth_of_le (by decide)
  refine ⟨Int.natCast_nonneg 6, Int.le_refl 6, ?_⟩
  show 0 ≤ ((BitVec.ofNat 8 bytes).setWidth 16).toInt
  rw [BitVec.toInt_eq_toNat_of_lt (by omega)]
  exact Int.natCast_nonneg _

def partBase (m : I2cModbus) : FramePart → Nat
  | .head => 0
  | .payload => partSize m .head
  | .crc => partSize m .head + partSize m .payload

/-- How many bytes of the frame are out before a statement. -/
def count (m : I2cModbus) : SendStatement → Nat
  | .loopTest part i => partBase m part + i
  | .wait part i => partBase m part + i
  | .data part i => partBase m part + i
  | .next part i => partBase m part + i + 1
  | .waitEnd => partBase m .crc + 2
  | .dummy => partBase m .crc + 2
  | .stop => partBase m .crc + 2
  | .waitStopped => partBase m .crc + 2
  | .complete => partBase m .crc + 2
  | _ => 0

def InPart (m : I2cModbus) : SendStatement → Prop
  | .loopTest part i => i ≤ partSize m part
  | .wait part i => i < partSize m part
  | .data part i => i < partSize m part
  | .next part i => i < partSize m part
  | _ => True

/-- The checksum is not made yet. -/
def Unsummed : SendStatement → Prop
  | .waitIdle => True
  | .computeCrc => True
  | _ => False

/-- What goes out under the checksum of `P` if the payload is read as `Q`. -/
def sentFrame (P Q : Nat → BitVec 8) (m : I2cModbus) : List (BitVec 8) :=
  m.headBytes ++ m.payloadBytes Q ++ crcBytes (m.frameCrc P)

/-- The string goes out under the checksum of `P` with the payload `Q`, and what is
still to be read of the payload is that of `Q`. -/
structure Sums (memory : Nat → BitVec 8) (s : Transmission) (P Q : Nat → BitVec 8) : Prop where
  summed : ¬ Unsummed s.next
  crc : s.message.crc = s.message.frameCrc P
  sent : s.sent = (sentFrame P Q s.message).take (count s.message s.next)
  inPart : InPart s.message s.next
  ahead : ∀ j, j < partSize s.message .payload → isAhead j s.next = true →
    s.payloadNow memory j = Q j

variable {memory : Nat → BitVec 8} {s : Transmission} {P Q : Nat → BitVec 8}

theorem headBytes_length (m : I2cModbus) : m.headBytes.length = partSize m .head := by
  rw [I2cModbus.headBytes, List.length_map, List.length_range]
  rfl

theorem payloadBytes_length (Q : Nat → BitVec 8) (m : I2cModbus) :
    (m.payloadBytes Q).length = partSize m .payload := by
  rw [I2cModbus.payloadBytes, List.length_map, List.length_range]
  rfl

theorem sentFrame_length (P Q : Nat → BitVec 8) (m : I2cModbus) :
    (sentFrame P Q m).length = partBase m .crc + 2 := by
  rw [sentFrame, List.length_append, List.length_append, headBytes_length, payloadBytes_length]
  rfl

def frameByte (P Q : Nat → BitVec 8) (m : I2cModbus) : FramePart → Nat → BitVec 8
  | .head, i => m.structBytes.getD i 0
  | .payload, i => Q i
  | .crc, i => (crcBytes (m.frameCrc P)).getD i 0

/-- The byte of a part at its place in the frame. -/
theorem sentFrame_part (P Q : Nat → BitVec 8) (m : I2cModbus) {part : FramePart} {i : Nat}
    (hi : i < partSize m part) :
    (sentFrame P Q m)[partBase m part + i]? = some (frameByte P Q m part i) := by
  have hhead := headBytes_length m
  have hbody := payloadBytes_length Q m
  rw [sentFrame, List.append_assoc]
  cases part with
  | head =>
    have hpos : partBase m .head + i = i := Nat.zero_add i
    have hin : i < m.sizeHead.toInt.toNat := hi
    rw [hpos, List.getElem?_append_left (hhead ▸ hi), I2cModbus.headBytes, List.getElem?_map,
      List.getElem?_range hin]
    rfl
  | payload =>
    have hpos : partBase m .payload + i - m.headBytes.length = i := by
      rw [hhead]
      exact Nat.add_sub_cancel_left _ _
    have hle : m.headBytes.length ≤ partBase m .payload + i := by
      rw [hhead]
      exact Nat.le_add_right _ _
    have hin : i < m.sizeMessage.toInt.toNat := hi
    rw [List.getElem?_append_right hle, hpos, List.getElem?_append_left (hbody ▸ hi),
      I2cModbus.payloadBytes, List.getElem?_map, List.getElem?_range hin]
    rfl
  | crc =>
    have hpos : partBase m .crc + i - m.headBytes.length - (m.payloadBytes Q).length = i := by
      rw [hhead, hbody]
      show partSize m .head + partSize m .payload + i - _ - _ = i
      omega
    have hle : m.headBytes.length ≤ partBase m .crc + i := by
      rw [hhead]
      show _ ≤ partSize m .head + partSize m .payload + i
      omega
    have hle' : (m.payloadBytes Q).length ≤ partBase m .crc + i - m.headBytes.length := by
      rw [hhead, hbody]
      show _ ≤ partSize m .head + partSize m .payload + i - _
      omega
    have hlen : i < (crcBytes (m.frameCrc P)).length := hi
    rw [List.getElem?_append_right hle, List.getElem?_append_right hle', hpos, frameByte,
      List.getD_eq_getElem?_getD, List.getElem?_eq_getElem hlen, Option.getD_some]

/-! ## The invariant -/

/-- Going on to a statement before which as much is out. -/
theorem Sums.move (h : Sums memory s P Q) {next : SendStatement} (hsummed : ¬ Unsummed next)
    (hcount : count s.message next = count s.message s.next) (hin : InPart s.message next)
    (hahead : ∀ j, isAhead j next = true → isAhead j s.next = true) :
    Sums memory { s with next } P Q := by
  refine ⟨hsummed, h.crc, ?_, hin, fun j hj hnext => h.ahead j hj (hahead j hnext)⟩
  show s.sent = (sentFrame P Q s.message).take (count s.message next)
  rw [hcount]
  exact h.sent

/-- The loop of a part is over. -/
theorem Sums.leave (h : Sums memory s P Q) {part : FramePart} {i : Nat}
    (hnext : s.next = .loopTest part i) (hend : ¬ i < partSize s.message part) :
    Sums memory { s with next := afterPart part } P Q := by
  have hin := h.inPart
  rw [hnext] at hin
  have hi : i = partSize s.message part := Nat.le_antisymm hin (Nat.le_of_not_lt hend)
  refine h.move ?_ ?_ ?_ ?_
  · cases part <;> exact fun hfalse => hfalse
  · rw [hnext, hi]
    cases part with
    | head => exact Nat.add_comm _ _
    | payload => rfl
    | crc => rfl
  · cases part with
    | head => exact Nat.zero_le _
    | payload => exact Nat.zero_le _
    | crc => trivial
  · intro j hj
    rw [hnext]
    cases part with
    | head => rfl
    | payload => exact Bool.noConfusion hj
    | crc => exact Bool.noConfusion hj

/-- The byte written is the next one of the frame. -/
theorem Sums.data (h : Sums memory s P Q) {part : FramePart} {i : Nat}
    (hnext : s.next = .data part i) :
    Sums memory { s with sent := s.sent ++ [s.partByte memory part i], next := .next part i }
      P Q := by
  have hin := h.inPart
  rw [hnext] at hin
  have hbyte : s.partByte memory part i = frameByte P Q s.message part i := by
    cases part with
    | head => rfl
    | payload => exact h.ahead i hin (by rw [hnext]; exact decide_eq_true (Nat.le_refl i))
    | crc =>
      rw [partByte, h.crc]
      rfl
  refine ⟨fun hfalse => hfalse, h.crc, ?_, hin, fun j hj hahead => h.ahead j hj ?_⟩
  · show s.sent ++ [s.partByte memory part i] =
      (sentFrame P Q s.message).take (partBase s.message part + i + 1)
    rw [List.take_add_one, sentFrame_part P Q s.message hin, h.sent, hnext, hbyte]
    rfl
  · rw [hnext]
    cases part with
    | head => rfl
    | payload => exact decide_eq_true (Nat.le_of_lt (of_decide_eq_true hahead))
    | crc => exact hahead

/-- The checksum is made from the payload as it is then. -/
theorem sums_computeCrc (hsized : Sized s.message) (hnext : s.next = .computeCrc)
    (hsent : s.sent = []) (ok : Bool) :
    Sums memory (s.statementStep memory ok) (s.payloadNow memory) (s.payloadNow memory) := by
  have hmessage : (s.statementStep memory ok).message =
      { s.message with crc := s.message.frameCrc (s.payloadNow memory) } := by
    simp only [statementStep, hnext, message, Queue.head, Queue.setMessage, if_true]
  have hpayload : (s.statementStep memory ok).payloadNow memory = s.payloadNow memory := by
    funext i
    rw [payloadNow, hmessage]
    simp only [statementStep, hnext]
    rfl
  have hstart : (s.statementStep memory ok).next = .address := by
    simp only [statementStep, hnext]
  have hnone : (s.statementStep memory ok).sent = [] := by
    simp only [statementStep, hnext, hsent]
  refine ⟨?_, ?_, ?_, ?_, fun j _ _ => by rw [hpayload]⟩
  · rw [hstart]
    exact fun hfalse => hfalse
  · rw [hmessage]
    exact (I2c.frameCrc_crc hsized.head hsized.head_le hsized.message _ _).symm
  · rw [hnone, hstart]
    rfl
  · rw [hstart]
    trivial

/-- What is out survives every statement after the checksum, unless a wait fails. -/
theorem Sums.statement (h : Sums memory s P Q) (ok : Bool) :
    (s.statementStep memory ok).message = s.message ∧
      ((s.statementStep memory ok).next = .failed ∨
        Sums memory (s.statementStep memory ok) P Q) := by
  cases hnext : s.next with
  | waitIdle => exact absurd (by rw [hnext]; trivial) h.summed
  | computeCrc => exact absurd (by rw [hnext]; trivial) h.summed
  | address | start =>
    simp only [statementStep, hnext]
    exact ⟨rfl, Or.inr (h.move id (by rw [hnext]; rfl) trivial fun _ _ => by rw [hnext]; rfl)⟩
  | waitStart =>
    simp only [statementStep, hnext]
    refine ⟨rfl, ?_⟩
    cases ok with
    | false => exact Or.inl rfl
    | true =>
      exact Or.inr (h.move id (by rw [hnext]; rfl) (Nat.zero_le _) fun _ _ => by rw [hnext]; rfl)
  | loopTest part i =>
    simp only [statementStep, hnext]
    refine ⟨rfl, Or.inr ?_⟩
    by_cases hmore : i < partSize s.message part
    · rw [if_pos hmore]
      exact h.move id (by rw [hnext]; rfl) hmore fun j hj => by rw [hnext]; cases part <;> exact hj
    · rw [if_neg hmore]
      exact h.leave hnext hmore
  | wait part i =>
    have hin := h.inPart
    rw [hnext] at hin
    simp only [statementStep, hnext]
    refine ⟨rfl, ?_⟩
    cases ok with
    | false => exact Or.inl rfl
    | true =>
      exact Or.inr (h.move id (by rw [hnext]; rfl) hin fun j hj => by
        rw [hnext]; cases part <;> exact hj)
  | data part i =>
    simp only [statementStep, hnext]
    exact ⟨rfl, Or.inr (h.data hnext)⟩
  | next part i =>
    have hin := h.inPart
    rw [hnext] at hin
    simp only [statementStep, hnext]
    refine ⟨rfl, Or.inr (h.move id (by rw [hnext]; rfl) hin fun j hj => ?_)⟩
    rw [hnext]
    cases part with
    | head => rfl
    | payload =>
      have hlt : i + 1 ≤ j := of_decide_eq_true hj
      exact decide_eq_true hlt
    | crc => exact hj
  | waitEnd | dummy | stop | waitStopped =>
    simp only [statementStep, hnext]
    exact ⟨rfl, Or.inr (h.move id (by rw [hnext]; rfl) trivial fun _ hj => Bool.noConfusion hj)⟩
  | complete | failed =>
    have hstay : s.statementStep memory ok = s := by simp only [statementStep, hnext]
    rw [hstay]
    exact ⟨rfl, Or.inr h⟩

/-! ## The interrupt -/

/-- Writing the first bit with a value it does not have changes just that bit. -/
theorem boolWrite_flip {value : Bool} {v : BitVec 8} (hne : v.getLsbD 7 ≠ value) :
    boolWrite value 0 v = v ^^^ 0x80#8 := by
  apply BitVec.eq_of_getLsbD_eq
  intro i hi
  have hbit := getLsbD_boolWrite v value (p := 0) (q := 7 - i) (by decide) (by omega)
  have hsub : 7 - (7 - i) = i := by omega
  have hmask : (0x80#8).getLsbD i = decide (i = 7) := by
    have h : ∀ j : Fin 8, (0x80#8).getLsbD j.val = decide (j.val = 7) := by decide
    exact h ⟨i, hi⟩
  rw [hsub] at hbit
  rw [hbit, BitVec.getLsbD_xor, hmask]
  by_cases h7 : i = 7
  · subst h7
    simpa using (Bool.eq_not.mpr (Ne.symm hne))
  · simp [h7, show ¬ 7 - i = 0 by omega]

theorem regVet_regWriteBool_pump (value : Bool) (r : Registers) (a : Nat) :
    (regWriteBool value pump r).regVet a =
      if a = 0 ∧ regReadBool pump r ≠ value then r.regVet 0 ^^^ 0x80#8 else r.regVet a := by
  rw [regWriteBool_eq Plant.getIndex_pump, ← regReadBool_eq Plant.getIndex_pump]
  by_cases hsame : regReadBool pump r = value
  · rw [if_pos hsame, if_neg fun h => h.2 hsame]
  rw [if_neg hsame]
  by_cases ha : a = 0
  · rw [if_pos ⟨ha, hsame⟩]
    rw [Plant.pump_regVet] at hsame
    exact (if_pos ha).trans (boolWrite_flip hsame)
  · rw [if_neg fun h => ha h.1]
    exact if_neg ha

/-- The interrupt changes no register byte but the first, and that one only if it
changes the pump's bit. -/
theorem regVet_recIsrBotoeira (now : BitVec 64) (p : Plant) (a : Nat) :
    (recIsrBotoeira now p).regs.regVet a =
      if a = 0 ∧ Flips now p then p.regs.regVet 0 ^^^ 0x80#8 else p.regs.regVet a := by
  rw [Plant.recIsrBotoeira_eq]
  by_cases hfires : p.Fires now
  case neg => rw [if_neg hfires, if_neg fun h => hfires h.2.1]
  have hne : ∀ x y : Bool, x = y ↔ x ≠ !y := by decide
  have hflips : a = 0 ∧ Flips now p ↔ a = 0 ∧ regReadBool pump p.regs ≠ !p.botoeira.pumpOn := by
    rw [Flips, hne]
    exact and_congr Iff.rfl (and_iff_right hfires)
  rw [if_pos hfires]
  simp only [hflips]
  cases hflag : p.botoeira.pumpOn with
  | false => exact regVet_regWriteBool_pump true p.regs a
  | true => exact regVet_regWriteBool_pump false p.regs a

/-- The payload after the interrupt. -/
def disturbed (s : Transmission) (now : BitVec 64) (Q : Nat → BitVec 8) (j : Nat) : BitVec 8 :=
  if j = s.pumpIndex ∧ s.Disturbs (.botoeira now) then Q j ^^^ 0x80#8 else Q j

theorem payloadNow_interrupt {now : BitVec 64} {j : Nat} (hj : j < partSize s.message .payload)
    (hahead : isAhead j s.next = true) :
    (s.interrupt now).payloadNow memory j = s.disturbed now (s.payloadNow memory) j := by
  have hsmall : j < 0x8000 := by
    have hlt := BitVec.toInt_lt (x := s.message.sizeMessage)
    have hj : j < s.message.sizeMessage.toInt.toNat := hj
    omega
  have hindex : j = s.pumpIndex ↔
      (s.message.ptrMessage + BitVec.ofNat 32 j - s.firmware.regVetAddr).toNat = 0 := by
    rw [pumpIndex]
    bv_omega
  have hbyte := regVet_recIsrBotoeira now s.plant
    (s.message.ptrMessage + BitVec.ofNat 32 j - s.firmware.regVetAddr).toNat
  rw [disturbed]
  by_cases hpump : j = s.pumpIndex
  · have hzero := hindex.mp hpump
    have hdisturbs : s.Disturbs (.botoeira now) ↔ Flips now s.plant := by
      subst hpump
      exact ⟨fun h => h.1, fun h => ⟨h, hj, hahead⟩⟩
    have hlt : (s.message.ptrMessage + BitVec.ofNat 32 j - s.firmware.regVetAddr).toNat <
        intBase + 4 * nregIntTot := by
      rw [hzero]
      decide
    have hnow : s.payloadNow memory j = s.plant.regs.regVet 0 := by
      rw [payloadNow, Firmware.deref]
      exact (if_pos hlt).trans (congrArg s.plant.regs.regVet hzero)
    have hthen : (s.interrupt now).payloadNow memory j = (recIsrBotoeira now s.plant).regs.regVet
        (s.message.ptrMessage + BitVec.ofNat 32 j - s.firmware.regVetAddr).toNat :=
      if_pos hlt
    rw [hthen, hbyte, hnow, hzero]
    by_cases hflips : Flips now s.plant
    · rw [if_pos ⟨rfl, hflips⟩, if_pos ⟨hpump, hdisturbs.mpr hflips⟩]
    · rw [if_neg fun h => hflips h.2, if_neg fun h => hflips (hdisturbs.mp h.2)]
  · rw [if_neg fun h => hpump h.1]
    rw [if_neg fun h => hpump (hindex.mpr h.1)] at hbyte
    exact Firmware.deref_congr rfl hbyte

/-- The bytes out before a byte of the payload do not depend on it. -/
theorem sentFrame_take {m : I2cModbus} {P Q Q' : Nat → BitVec 8} {n j : Nat}
    (hj : j ≤ partSize m .payload) (hn : n ≤ partSize m .head + j) (h : ∀ i, i < j → Q' i = Q i) :
    (sentFrame P Q' m).take n = (sentFrame P Q m).take n := by
  have hfront : ∀ Q : Nat → BitVec 8, (sentFrame P Q m).take n =
      (m.headBytes ++ (List.range j).map Q).take n := by
    intro Q
    have hbody : j ≤ (m.payloadBytes Q).length := by rw [payloadBytes_length]; exact hj
    have htake : (m.payloadBytes Q).take j = (List.range j).map Q := by
      rw [I2cModbus.payloadBytes, ← List.map_take, List.take_range]
      exact congrArg (fun k => (List.range k).map Q) (Nat.min_eq_left hj)
    have hcut : ∀ l : List (BitVec 8), l.take n = (l.take (m.headBytes.length + j)).take n :=
      fun l => by rw [List.take_take, Nat.min_eq_left (by rw [headBytes_length]; exact hn)]
    rw [hcut, sentFrame, List.append_assoc, List.take_length_add_append,
      List.take_append_of_le_length hbody, htake]
  rw [hfront, hfront]
  exact congrArg (fun l => (m.headBytes ++ l).take n)
    (List.map_congr_left fun i hi => h i (List.mem_range.mp hi))

/-- A payload byte still to be read is still to be sent. -/
theorem count_le_of_isAhead {m : I2cModbus} {next : SendStatement} {j : Nat}
    (hin : InPart m next) (h : isAhead j next = true) : count m next ≤ partSize m .head + j := by
  have hhead : ∀ part i, part = .head → i ≤ partSize m part →
      partBase m part + i ≤ partSize m .head + j := by
    intro part i hpart hi
    subst hpart
    show 0 + i ≤ _
    omega
  cases next with
  | loopTest part i =>
    cases part with
    | head => exact hhead _ i rfl hin
    | payload => exact Nat.add_le_add_left (of_decide_eq_true h) _
    | crc => exact Bool.noConfusion h
  | wait part i =>
    cases part with
    | head => exact hhead _ i rfl (Nat.le_of_lt hin)
    | payload => exact Nat.add_le_add_left (of_decide_eq_true h) _
    | crc => exact Bool.noConfusion h
  | data part i =>
    cases part with
    | head => exact hhead _ i rfl (Nat.le_of_lt hin)
    | payload => exact Nat.add_le_add_left (of_decide_eq_true h) _
    | crc => exact Bool.noConfusion h
  | next part i =>
    cases part with
    | head => exact hhead _ (i + 1) rfl hin
    | payload => exact Nat.add_le_add_left (show i + 1 ≤ j from of_decide_eq_true h) _
    | crc => exact Bool.noConfusion h
  | address | start | waitStart => exact Nat.zero_le _
  | _ => exact Bool.noConfusion h

theorem Sums.interrupt (h : Sums memory s P Q) (now : BitVec 64) :
    Sums memory (s.interrupt now) P (s.disturbed now Q) := by
  refine ⟨h.summed, h.crc, ?_, h.inPart, fun j hj hahead => ?_⟩
  · show s.sent = (sentFrame P (s.disturbed now Q) s.message).take (count s.message s.next)
    rw [h.sent]
    by_cases hdisturbs : s.Disturbs (.botoeira now)
    · refine (sentFrame_take (Nat.le_of_lt hdisturbs.2.1)
        (count_le_of_isAhead h.inPart hdisturbs.2.2) fun i hi => ?_).symm
      exact if_neg fun hbad => absurd hbad.1 (Nat.ne_of_lt hi)
    · have hsame : s.disturbed now Q = Q := by
        funext j
        exact if_neg fun hbad => hdisturbs hbad.2
      rw [hsame]
  · have hbyte : (s.interrupt now).payloadNow memory j =
        s.disturbed now (s.payloadNow memory) j := payloadNow_interrupt hj hahead
    rw [hbyte, disturbed, disturbed, h.ahead j hj hahead]

/-! ## Runs -/

/-- The payload `Q` sent is the payload `P` summed but for byte `k`, which differs
after an odd number of disturbances. -/
structure Differs (k size disturbances : Nat) (P Q : Nat → BitVec 8) : Prop where
  index : disturbances % 2 = 1 → k < size
  bytes : ∀ j, Q j = if j = k ∧ disturbances % 2 = 1 then P j ^^^ 0x80#8 else P j

def Invariant (memory : Nat → BitVec 8) (t : Transmission × Nat) : Prop :=
  Sized t.1.message ∧
    (t.1.next = .failed ∨ (Unsummed t.1.next ∧ t.1.sent = [] ∧ t.2 = 0) ∨
      ∃ P Q, Sums memory t.1 P Q ∧
        Differs t.1.pumpIndex (partSize t.1.message .payload) t.2 P Q)

theorem Differs.interrupt {d : Nat}
    (h : Differs s.pumpIndex (partSize s.message .payload) d P Q) (now : BitVec 64) :
    Differs s.pumpIndex (partSize s.message .payload)
      (if s.Disturbs (.botoeira now) then d + 1 else d) P (s.disturbed now Q) := by
  by_cases hdisturbs : s.Disturbs (.botoeira now)
  · rw [if_pos hdisturbs]
    refine ⟨fun _ => hdisturbs.2.1, fun j => ?_⟩
    rw [disturbed, h.bytes]
    by_cases hpump : j = s.pumpIndex
    · by_cases hodd : d % 2 = 1
      · have heven : ¬ (d + 1) % 2 = 1 := by omega
        rw [if_pos ⟨hpump, hdisturbs⟩, if_pos ⟨hpump, hodd⟩, if_neg fun hbad => heven hbad.2,
          BitVec.xor_assoc, BitVec.xor_self, BitVec.xor_zero]
      · have hnext : (d + 1) % 2 = 1 := by omega
        rw [if_pos ⟨hpump, hdisturbs⟩, if_neg fun hbad => hodd hbad.2, if_pos ⟨hpump, hnext⟩]
    · rw [if_neg fun hbad => hpump hbad.1, if_neg fun hbad => hpump hbad.1,
        if_neg fun hbad => hpump hbad.1]
  · have hsame : s.disturbed now Q = Q := by
      funext j
      exact if_neg fun hbad => hdisturbs hbad.2
    rw [if_neg hdisturbs, hsame]
    exact h

theorem regVetAddr_statementStep (ok : Bool) :
    (s.statementStep memory ok).firmware.regVetAddr = s.firmware.regVetAddr := by
  unfold statementStep
  split <;> rfl

theorem Invariant.statement {t : Transmission × Nat} (h : Invariant memory t) (ok : Bool) :
    Invariant memory (t.1.statementStep memory ok, t.2) := by
  obtain ⟨s, d⟩ := t
  obtain ⟨hsized, hfailed | ⟨hunsummed, hsent, hnone⟩ | ⟨P, Q, hsums, hdiffers⟩⟩ := h
  · have hfailed : s.next = .failed := hfailed
    have hstay : s.statementStep memory ok = s := by simp only [statementStep, hfailed]
    rw [hstay]
    exact ⟨hsized, Or.inl hfailed⟩
  · cases hnext : s.next with
    | waitIdle =>
      simp only [statementStep, hnext]
      cases ok with
      | false => exact ⟨hsized, Or.inl rfl⟩
      | true => exact ⟨hsized, Or.inr (Or.inl ⟨trivial, hsent, hnone⟩)⟩
    | computeCrc =>
      have hsums : Sums memory (s.statementStep memory ok) _ _ :=
        sums_computeCrc hsized hnext hsent ok
      have hmessage : (s.statementStep memory ok).message =
          { s.message with crc := s.message.frameCrc (s.payloadNow memory) } := by
        simp only [statementStep, hnext, message, Queue.head, Queue.setMessage, if_true]
      have hnone : d = 0 := hnone
      refine ⟨?_, Or.inr (Or.inr ⟨_, _, hsums, ⟨fun hodd => ?_, fun j => ?_⟩⟩)⟩
      · show Sized (s.statementStep memory ok).message
        rw [hmessage]
        exact ⟨hsized.head, hsized.head_le, hsized.message⟩
      · subst hnone
        exact Nat.noConfusion hodd
      · subst hnone
        exact (if_neg fun hbad => Nat.noConfusion hbad.2).symm
    | _ =>
      rw [hnext] at hunsummed
      exact hunsummed.elim
  · rcases hsums.statement ok with ⟨hmessage, hfailed | hsums'⟩
    · exact ⟨hmessage ▸ hsized, Or.inl hfailed⟩
    · refine ⟨hmessage ▸ hsized, Or.inr (Or.inr ⟨P, Q, hsums', ?_⟩)⟩
      show Differs (s.statementStep memory ok).pumpIndex _ d P Q
      rw [pumpIndex, hmessage, regVetAddr_statementStep]
      exact hdiffers

theorem Invariant.step (t : Transmission × Nat) (a : Action) (h : Invariant memory t) :
    Invariant memory (tally memory t a) := by
  cases a with
  | statement ok => exact h.statement ok
  | botoeira now =>
    obtain ⟨hsized, hfailed | ⟨hunsummed, hsent, hnone⟩ | ⟨P, Q, hsums, hdiffers⟩⟩ := h
    · exact ⟨hsized, Or.inl hfailed⟩
    · have hidle : ¬ t.1.Disturbs (.botoeira now) := by
        intro hbad
        have hahead := hbad.2.2
        cases hnext : t.1.next <;> rw [hnext] at hunsummed hahead
        all_goals first | exact hunsummed.elim | exact Bool.noConfusion hahead
      exact ⟨hsized, Or.inr (Or.inl ⟨hunsummed, hsent, (if_neg hidle).trans hnone⟩)⟩
    · exact ⟨hsized, Or.inr (Or.inr ⟨P, _, hsums.interrupt now, hdiffers.interrupt now⟩)⟩
  | pins level =>
    obtain ⟨hsized, hfailed | hunsummed | ⟨P, Q, hsums, hdiffers⟩⟩ := h
    · exact ⟨hsized, Or.inl hfailed⟩
    · exact ⟨hsized, Or.inr (Or.inl hunsummed)⟩
    · exact ⟨hsized, Or.inr (Or.inr ⟨P, Q, ⟨hsums.summed, hsums.crc, hsums.sent, hsums.inPart,
        hsums.ahead⟩, hdiffers⟩)⟩

/-- After an odd number of disturbances one byte of the payload is another. -/
theorem Differs.payloadBytes_set {m : I2cModbus} {k d : Nat}
    (h : Differs k (partSize m .payload) d P Q) (hodd : d % 2 = 1) :
    m.payloadBytes Q = (m.payloadBytes P).set k (P k ^^^ 0x80#8) := by
  apply List.ext_getElem
  · rw [List.length_set, payloadBytes_length, payloadBytes_length]
  · intro j hj hj'
    simp only [I2cModbus.payloadBytes, List.getElem_set, List.getElem_map, List.getElem_range,
      h.bytes]
    by_cases hjk : j = k
    · rw [if_pos ⟨hjk, hodd⟩, if_pos hjk.symm, hjk]
    · rw [if_neg fun hbad => hjk hbad.1, if_neg (Ne.symm hjk)]

/-- The string with the payload `Q` passes under the checksum of `P` exactly if
nothing was disturbed for good. -/
theorem checked_sentFrame {m : I2cModbus} (hsized : Sized m) {k d : Nat}
    (h : Differs k (partSize m .payload) d P Q) :
    checkCrc16 (fun i => (sentFrame P Q m).getD i 0) (BitVec.ofNat 32 (sentFrame P Q m).length) =
      true ↔ d % 2 = 0 := by
  have hlen : (sentFrame P Q m).length = (m.headBytes ++ m.payloadBytes Q).length + 2 := by
    rw [sentFrame, List.length_append]
    rfl
  have hsmall : (m.headBytes ++ m.payloadBytes Q).length + 2 < 0x100000000 := by
    have hlt := BitVec.toInt_lt (x := m.sizeMessage)
    have hle := hsized.head_le
    rw [List.length_append, headBytes_length, payloadBytes_length]
    show m.sizeHead.toInt.toNat + m.sizeMessage.toInt.toNat + 2 < _
    omega
  have hcrc := I2c.frameCrc_eq hsized.head hsized.message P
  rw [hlen]
  refine (checkCrc16_append _ _ hsmall).trans ?_
  rw [hcrc]
  by_cases hodd : d % 2 = 1
  · have hk : k < (m.payloadBytes P).length := by
      rw [payloadBytes_length]
      exact h.index hodd
    have hset : m.headBytes ++ m.payloadBytes Q =
        (m.headBytes ++ m.payloadBytes P).set (m.headBytes.length + k) (P k ^^^ 0x80#8) := by
      rw [h.payloadBytes_set hodd, List.set_append_right _ _ (Nat.le_add_right _ k),
        Nat.add_sub_cancel_left]
    have hin : m.headBytes.length + k < (m.headBytes ++ m.payloadBytes P).length := by
      rw [List.length_append]
      exact Nat.add_lt_add_left hk _
    have hbyte : (m.headBytes ++ m.payloadBytes P)[m.headBytes.length + k] = P k := by
      rw [List.getElem_append_right (Nat.le_add_right _ k)]
      simp only [Nat.add_sub_cancel_left, I2cModbus.payloadBytes, List.getElem_map,
        List.getElem_range]
    rw [hset]
    refine iff_of_false (fun hsame => ?_) (by omega)
    have hflip := (crcList_set hin (P k ^^^ 0x80#8)).mp hsame.symm
    rw [hbyte] at hflip
    have hzero : (0x80#8) = 0#8 := (BitVec.xor_right_inj (P k)).mp (by rw [hflip, BitVec.xor_zero])
    exact absurd hzero (by decide)
  · have hsame : Q = P := by
      funext j
      rw [h.bytes, if_neg fun hbad => hodd hbad.2]
    rw [hsame]
    exact iff_of_true rfl (by omega)

/-- Once the string is complete, as much is out as the frame is long. -/
theorem Sums.complete (h : Sums memory s P Q) (hcomplete : Complete s.next) :
    s.sent = sentFrame P Q s.message := by
  have hcount : count s.message s.next = partBase s.message .crc + 2 := by
    cases hnext : s.next <;> rw [hnext] at hcomplete
    all_goals first | rfl | exact hcomplete.elim
  rw [h.sent, hcount, ← sentFrame_length P Q, List.take_length]

theorem final_tally (s : Transmission) (n : Nat) (as : List Action) :
    (Run.final (tally memory) (s, n) as).1 = Run.final (step memory) s as := by
  induction as generalizing s n with
  | nil => rfl
  | cons a as ih => exact ih _ _

theorem Invariant.begin {f : Firmware} (hsized : Sized f.queue.head) (gpio : Gpio)
    (botoeira : IsrBotoeira) : Invariant memory (begin f gpio botoeira, 0) :=
  ⟨hsized, Or.inr (Or.inl ⟨trivial, rfl, rfl⟩)⟩

/-- A string that went out complete passes its check exactly if the pump's bit was
changed an even number of times between the checksum and its own byte. -/
theorem run_checked_iff {f : Firmware} (hsized : Sized f.queue.head) (gpio : Gpio)
    (botoeira : IsrBotoeira) (memory : Nat → BitVec 8) (as : List Action) :
    Checked (Run.final (step memory) (begin f gpio botoeira) as) ↔
      (Complete (Run.final (step memory) (begin f gpio botoeira) as).next →
        disturbances memory (begin f gpio botoeira) as % 2 = 0) := by
  have hrun := Run.final_of_invariant (Invariant memory) Invariant.step
    (Invariant.begin hsized gpio botoeira) as
  rw [← final_tally _ 0 as]
  refine forall_congr' fun hcomplete => ?_
  rcases hrun with ⟨hsized, hfailed | ⟨hunsummed, _⟩ | ⟨P, Q, hsums, hdiffers⟩⟩
  · rw [hfailed] at hcomplete
    exact hcomplete.elim
  · cases hnext : (Run.final (tally memory) (begin f gpio botoeira, 0) as).1.next <;>
      rw [hnext] at hcomplete hunsummed
    all_goals first | exact hcomplete.elim | exact hunsummed.elim
  · rw [hsums.complete hcomplete]
    exact checked_sentFrame hsized hdiffers

/-- The announcement of the bool bank, and a press of the button after `n` statements. -/
def pressedAfter (n : Nat) : Transmission :=
  Run.final (step fun _ => 0) (begin boolFirmware (Plant.afterSetup 0 0).gpio isrBotoeiraVar)
    (List.replicate n (.statement true) ++ [.botoeira 200] ++
      List.replicate (44 - n) (.statement true))

/-- Pressed right after the checksum is made. -/
theorem run_unchecked :
    ¬ ∀ (f : Firmware) (gpio : Gpio) (botoeira : IsrBotoeira) (memory : Nat → BitVec 8)
      (as : List Action), Sized f.queue.head →
        Checked (Run.final (step memory) (begin f gpio botoeira) as) := by
  intro hall
  have hchecked : Checked (pressedAfter 2) := hall _ _ _ _ _ (sized_setMultNumReg _ _ _ _ _ _)
  exact absurd hchecked (by decide +kernel)

/-- Pressed before the checksum is made. -/
theorem run_checked_early : Complete (pressedAfter 0).next ∧ (pressedAfter 0).Checked :=
  ⟨by decide +kernel,
    (run_checked_iff (f := boolFirmware) (sized_setMultNumReg _ _ _ _ _ _) _ _ _ _).mpr
      fun _ => by decide +kernel⟩

end Transmission

end Recirculador
