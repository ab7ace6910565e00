/-
The reply handlers of `message_manager.c`.

Every handler reads the reply of the slave the message at the pointer is for and
returns `_replyFail` or `_replyOK`.  Most of them touch registers at most; the
report of a slave also sets the time and enqueues the banks the slave asks for.
-/
import Recirculador.Firmware

namespace Recirculador

open SysRegMap Registers

@[simp] abbrev replyFail : Int := 0
@[simp] abbrev replyOK : Int := 1

/-- `Set_Mult_Num_Reg` for a block of registers, as all builders fill it in. -/
def setMultNumReg (regAddr nReg bytes : Nat) (ptrMessage : BitVec 32) (addr : BitVec 8)
    (stack : I2cModbus) : I2cModbus :=
  { stack with
    code := Modbus.setMultNumReg
    regAddr := BitVec.ofNat 16 regAddr
    nReg := BitVec.ofNat 16 nReg
    bytes := BitVec.ofNat 8 bytes
    ptrMessage
    addr
    sizeHead := 6
    sizeMessage := (BitVec.ofNat 8 bytes).setWidth 16 }

/-- `_Reg_chage`.  The three messages share one local variable. -/
def regChage (addr flag : BitVec 8) (stack : I2cModbus) (f : Firmware) : Firmware :=
  if flag = 0 then f
  else
    let boolMessage :=
      setMultNumReg offsetBool nregBool (nregBool / 8 + 1) (regPtrBool f) addr stack
    let f := if flag &&& 0b001 ≠ 0 then (f.messageNew boolMessage).2 else f
    let shortMessage :=
      setMultNumReg offsetShort nregShort (nregShort * 2) (regPtrShort model f) addr stack
    let f := if flag &&& 0b010 ≠ 0 then (f.messageNew shortMessage).2 else f
    let intMessage :=
      setMultNumReg fluxCalib nregIntStatic (nregIntStatic * 4) (regPtrInt fluxCalib f) addr stack
    if flag &&& 0b100 ≠ 0 then (f.messageNew intMessage).2 else f

/-! ## Reading a reply -/

/-- The reply to a read of `len` bytes.  Past 255 bytes the driver's loop never ends
well, whatever the slave sends. -/
def Exchange.delivered (e : Exchange) (len : Int) : Option (Nat → BitVec 8) :=
  if len ≤ 255 then e.reply else none

theorem Exchange.delivered_of_le {len : Int} (h : len ≤ 255) (e : Exchange) :
    e.delivered len = e.reply := if_pos h

theorem Exchange.delivered_of_lt {len : Int} (h : 255 < len) (e : Exchange) :
    e.delivered len = none := if_neg (Int.not_le.mpr h)

def i2cReadLenghtMaster (e : Exchange) (len : Int) (f : Firmware) :
    Option (Nat → BitVec 8) × Firmware :=
  (e.delivered len, f.record (.readLenght f.queue.head.addr len))

def i2cReadMaster (e : Exchange) (f : Firmware) : Option (Nat → BitVec 8) × Firmware :=
  (e.reply, f.record (.read f.queue.head.addr))

/-- The first bytes of the reply are those behind the message's pointer. -/
def echoes (e : Exchange) (reply : Nat → BitVec 8) (len : Nat) (f : Firmware) : Bool :=
  (List.range len).all fun i =>
    f.deref e.memory (f.queue.head.ptrMessage + BitVec.ofNat 32 i) == reply i

/-- The handlers that check a reply of fixed length and then `k`. -/
def fixedReply (len : Nat) (k : (Nat → BitVec 8) → Firmware → Int × Firmware) (e : Exchange)
    (f : Firmware) : Int × Firmware :=
  let read := i2cReadLenghtMaster e len f
  match read.1 with
  | none => (replyFail, read.2)
  | some reply =>
    if checkCrc16 reply (BitVec.ofNat 32 len) then k reply read.2 else (replyFail, read.2)

def genericSetReg (e : Exchange) (f : Firmware) : Int × Firmware :=
  let sizeReply := if f.queue.head.code = Modbus.diagnostics then 5 else 7
  fixedReply sizeReply
    (fun reply f => (if echoes e reply (sizeReply - 2) f then replyOK else replyFail, f)) e f

def genericReadReg (e : Exchange) (f : Firmware) : Int × Firmware :=
  let message := f.queue.head
  let nBytes := (getRegBytes message.regAddr.toInt * message.nReg.signExtend 32).toInt
  if nBytes < 1 then (replyFail, f)
  else
    let sizeReply := 4 + nBytes
    let read := i2cReadLenghtMaster e sizeReply f
    match read.1 with
    | none => (replyFail, read.2)
    | some reply =>
      if checkCrc16 reply (BitVec.ofInt 32 sizeReply) then
        let regs := regWriteVet (fun i => reply (2 + i)) (message.nReg.signExtend 32).toNat
          (message.regAddr.signExtend 32).toNat read.2.regs
        (replyOK, { read.2 with regs })
      else (replyFail, read.2)

/-- The loops of `_Get_Bool_Reg` over the bits still to come. -/
def getBoolRegLoop (reply : Nat → BitVec 8) :
    List Nat → Int → BitVec 32 → Registers → Int × Registers
  | [], _, _, r => (replyFail, r)
  | bit :: bits, nReg, addrAux, r =>
    let value := decide (reply (2 + bit / 8) &&& (0b10000000#8 >>> (bit % 8)) ≠ 0)
    let r := regWriteBool value addrAux.toNat r
    if nReg - 1 = 0 then (replyOK, r) else getBoolRegLoop reply bits (nReg - 1) (addrAux + 1) r

def getBoolReg (e : Exchange) (f : Firmware) : Int × Firmware :=
  let message := f.queue.head
  let nReg := message.nReg.toInt
  let sizeReply := 4 + nReg.tdiv 8
  let sizeReply := if nReg.tmod 8 ≠ 0 then sizeReply + 1 else sizeReply
  let read := i2cReadLenghtMaster e sizeReply f
  match read.1 with
  | none => (replyFail, read.2)
  | some reply =>
    if checkCrc16 reply (BitVec.ofInt 32 sizeReply) then
      let result := getBoolRegLoop reply (List.range (8 * (reply 1).toNat)) nReg
        (message.regAddr.signExtend 32) read.2.regs
      (result.1, { read.2 with regs := result.2 })
    else (replyFail, read.2)

def getDiscreteInput (e : Exchange) (f : Firmware) : Int × Firmware := genericReadReg e f
def getNumReg (e : Exchange) (f : Firmware) : Int × Firmware := genericReadReg e f
def readInputReg (e : Exchange) (f : Firmware) : Int × Firmware := genericReadReg e f
def setBoolReg (e : Exchange) (f : Firmware) : Int × Firmware := genericSetReg e f
def setSingleReg (e : Exchange) (f : Firmware) : Int × Firmware := genericSetReg e f
def diagnostics (e : Exchange) (f : Firmware) : Int × Firmware := genericSetReg e f
def setMultBoolRegReply (e : Exchange) (f : Firmware) : Int × Firmware := genericSetReg e f
def setMultNumRegReply (e : Exchange) (f : Firmware) : Int × Firmware := genericSetReg e f

def readException (e : Exchange) (f : Firmware) : Int × Firmware :=
  fixedReply 4 (fun _ f => (replyOK, f)) e f

def getEventCounter (e : Exchange) (f : Firmware) : Int × Firmware :=
  fixedReply 5 (fun _ f => (replyOK, f)) e f

/-- The two handlers that read until the slave stops and take the length of the
reply from its second byte. -/
def openReply (sizeReply : BitVec 8 → Nat) (e : Exchange) (f : Firmware) : Int × Firmware :=
  let read := i2cReadMaster e f
  match read.1 with
  | none => (replyFail, read.2)
  | some reply =>
    if checkCrc16 reply (BitVec.ofNat 32 (sizeReply (reply 1))) then (replyOK, read.2)
    else (replyFail, read.2)

def getEventLog (e : Exchange) (f : Firmware) : Int × Firmware :=
  openReply (fun n => n.toNat * 2 + 4) e f

def readFileRecord (e : Exchange) (f : Firmware) : Int × Firmware :=
  openReply (fun n => n.toNat) e f

/-- The time a slave reports, taken over by the register and the clock chip. -/
def setTimestamp (e : Exchange) (timestampRef : BitVec 32) (f : Firmware) : Firmware :=
  if timestampRef ≠ 0 then
    { f with regs := f.regs.setInt 0 timestampRef }.record
      (.send sysI2cAddrRtcBq32000 (Rtc.rtcSetValue timestampRef e.rtcStack))
  else f

/-- `_Report_Slave_ID`: only the WiFi module reports. -/
def reportSlaveId (e : Exchange) (f : Firmware) : Int × Firmware :=
  if f.queue.head.addr = sysI2cAddrWiFi then
    fixedReply 16 (fun reply f =>
      let f := setTimestamp e (ByteMemory.load 4 reply 9) f
      (replyOK, regChage sysI2cAddrWiFi (reply 13) e.messageStack f)) e f
  else (replyFail, f)

def writeFileRecord (e : Exchange) (f : Firmware) : Int × Firmware :=
  fixedReply 10 (fun reply f => (if echoes e reply 8 f then replyOK else replyFail, f)) e f

def rwMultRegisters (e : Exchange) (f : Firmware) : Int × Firmware :=
  let message := f.queue.head
  let nBytes := (getRegBytes message.regAddr.toInt).setWidth 16
  if nBytes.toInt > 0 then
    let nBytes := nBytes * message.nReg
    let sizeReply := 4 + nBytes.toInt
    let read := i2cReadLenghtMaster e sizeReply f
    match read.1 with
    | none => (replyFail, read.2)
    | some reply =>
      if checkCrc16 reply (BitVec.ofInt 32 sizeReply) then
        let regs := regWriteVet (fun i => reply (2 + i)) (message.nReg.signExtend 32).toNat
          (message.regAddr.signExtend 32).toNat read.2.regs
        (replyOK, { read.2 with regs })
      else (replyFail, read.2)
  else (replyFail, f)

/-- The `switch` of `_message_loop_aux`.  A code without a case leaves the status
of the send. -/
def handleReply (e : Exchange) (statusAux : Int) (f : Firmware) : Int × Firmware :=
  let code := f.queue.head.code
  if code = Modbus.getBoolReg then getBoolReg e f
  else if code = Modbus.getDiscreteInput then getDiscreteInput e f
  else if code = Modbus.getNumReg then getNumReg e f
  else if code = Modbus.readInputReg then readInputReg e f
  else if code = Modbus.setBoolReg then setBoolReg e f
  else if code = Modbus.setSingleReg then setSingleReg e f
  else if code = Modbus.readException then readException e f
  else if code = Modbus.diagnostics then diagnostics e f
  else if code = Modbus.getEventCounter then getEventCounter e f
  else if code = Modbus.getEventLog then getEventLog e f
  else if code = Modbus.setMultBoolReg then setMultBoolRegReply e f
  else if code = Modbus.setMultNumReg then setMultNumRegReply e f
  else if code = Modbus.reportSlaveId then reportSlaveId e f
  else if code = Modbus.readFileRecord then readFileRecord e f
  else if code = Modbus.writeFileRecord then writeFileRecord e f
  else if code = Modbus.maskWriteRegister then (replyFail, f)
  else if code = Modbus.rwMultRegisters then rwMultRegisters e f
  else if code = Modbus.readFifoQueue then (replyFail, f)
  else if Modbus.readDeviceId ≤ code then (replyFail, f)
  else (statusAux, f)

/-- What holds of the result of every handler holds of the result of the `switch`. -/
theorem handleReply_rule {P : Int × Firmware → Prop} {e : Exchange} {f : Firmware}
    (hbool : f.queue.head.code = Modbus.getBoolReg → P (getBoolReg e f))
    (hread : P (genericReadReg e f)) (hset : P (genericSetReg e f))
    (hexception : P (readException e f)) (hcounter : P (getEventCounter e f))
    (hopen : ∀ sizeReply, P (openReply sizeReply e f)) (hreport : P (reportSlaveId e f))
    (hwrite : P (writeFileRecord e f)) (hrw : P (rwMultRegisters e f))
    (hnone : ∀ status, P (status, f)) (statusAux : Int) : P (handleReply e statusAux f) := by
  have hite : ∀ {c : Prop} [Decidable c] {r r' : Int × Firmware}, (c → P r) → P r' →
      P (if c then r else r') := by
    intro c _ r r' h h'
    split
    · rename_i hc
      exact h hc
    · exact h'
  have hread : ∀ {c : Prop}, c → P (genericReadReg e f) := fun _ => hread
  have hset : ∀ {c : Prop}, c → P (genericSetReg e f) := fun _ => hset
  have hfail : ∀ {c : Prop}, c → P (replyFail, f) := fun _ => hnone _
  unfold handleReply
  dsimp only
  refine hite hbool (hite hread (hite hread (hite hread (hite hset (hite hset ?_)))))
  refine hite (fun _ => hexception) (hite hset (hite (fun _ => hcounter) ?_))
  refine hite (fun _ => hopen _) (hite hset (hite hset (hite (fun _ => hreport) ?_)))
  refine hite (fun _ => hopen _) (hite (fun _ => hwrite) (hite hfail ?_))
  exact hite (fun _ => hrw) (hite hfail (hite hfail (hnone statusAux)))

/-- The announcement of the bool bank is at the pointer. -/
def boolFirmware : Firmware :=
  { bootFirmware with
    queue := bootQueue.setMessage bootQueue.ptrQueue
      (setMultNumReg offsetBool nregBool (nregBool / 8 + 1) (regPtrBool bootFirmware)
        sysI2cAddrWiFi messageDefault) }

/-! ## What a handler does to the queue -/

def enqueueAll (ms : List I2cModbus) (q : Queue) : Queue :=
  ms.foldl (fun q m => (messageNew m q).2) q

/-- The queue of `f'` is that of `f` after some calls of `message_New`. -/
def Enqueues (f f' : Firmware) : Prop := ∃ ms, f'.queue = enqueueAll ms f.queue

namespace Enqueues

variable {f f' f'' : Firmware}

theorem of_eq (h : f'.queue = f.queue) : Enqueues f f' := ⟨[], h⟩

theorem refl (f : Firmware) : Enqueues f f := of_eq rfl

theorem trans (h : Enqueues f f') (h' : Enqueues f' f'') : Enqueues f f'' := by
  obtain ⟨ms, hms⟩ := h
  obtain ⟨ms', hms'⟩ := h'
  exact ⟨ms ++ ms', by rw [hms', hms, enqueueAll, enqueueAll, enqueueAll, List.foldl_append]⟩

theorem messageNew (m : I2cModbus) (f : Firmware) : Enqueues f (f.messageNew m).2 := ⟨[m], rfl⟩

theorem ite {c : Prop} [Decidable c] (h : Enqueues f f') (h' : Enqueues f f'') :
    Enqueues f (if c then f' else f'') := by
  split
  · exact h
  · exact h'

theorem preserves (h : Enqueues f f') {P : Queue → Prop}
    (hnew : ∀ m q, P q → P (Recirculador.messageNew m q).2) (hf : P f.queue) : P f'.queue := by
  obtain ⟨ms, hms⟩ := h
  rw [hms]
  clear hms
  induction ms generalizing f with
  | nil => exact hf
  | cons m ms ih =>
    exact ih (f := (f.messageNew m).2) (hnew m f.queue hf)

end Enqueues

/-! ## What a handler keeps -/

/-- Kept by all a handler does: writing registers, calling the driver and calling
`message_New`. -/
structure HandlerClosed (Q : Firmware → Prop) : Prop where
  regs : ∀ f regs, Q f → Q { f with regs }
  record : ∀ f op, Q f → Q (f.record op)
  messageNew : ∀ f m, Q f → Q (f.messageNew m).2

namespace HandlerClosed

variable {Q : Firmware → Prop} {f : Firmware}

/-- The end of every handler: nothing more, or registers written. -/
theorem ite {c : Prop} [Decidable c] {r r' : Int × Firmware} (h : Q r.2) (h' : Q r'.2) :
    Q (if c then r else r').2 := by
  split
  · exact h
  · exact h'

theorem fixedReply (hQ : HandlerClosed Q) {k : (Nat → BitVec 8) → Firmware → Int × Firmware}
    (hk : ∀ reply f, Q f → Q (k reply f).2) (len : Nat) (e : Exchange) (h : Q f) :
    Q (Recirculador.fixedReply len k e f).2 := by
  have hread := hQ.record f (.readLenght f.queue.head.addr len) h
  unfold Recirculador.fixedReply
  dsimp only [i2cReadLenghtMaster]
  cases e.delivered len with
  | none => exact hread
  | some reply => exact ite (hk reply _ hread) hread

theorem genericReadReg (hQ : HandlerClosed Q) (e : Exchange) (h : Q f) :
    Q (Recirculador.genericReadReg e f).2 := by
  unfold Recirculador.genericReadReg
  dsimp only [i2cReadLenghtMaster]
  refine ite h ?_
  cases e.delivered _ with
  | none => exact hQ.record f _ h
  | some reply => exact ite (hQ.regs _ _ (hQ.record f _ h)) (hQ.record f _ h)

theorem getBoolReg (hQ : HandlerClosed Q) (e : Exchange) (h : Q f) :
    Q (Recirculador.getBoolReg e f).2 := by
  unfold Recirculador.getBoolReg
  dsimp only [i2cReadLenghtMaster]
  cases e.delivered _ with
  | none => exact hQ.record f _ h
  | some reply => exact ite (hQ.regs _ _ (hQ.record f _ h)) (hQ.record f _ h)

theorem openReply (hQ : HandlerClosed Q) (sizeReply : BitVec 8 → Nat) (e : Exchange) (h : Q f) :
    Q (Recirculador.openReply sizeReply e f).2 := by
  unfold Recirculador.openReply
  dsimp only [i2cReadMaster]
  cases e.reply with
  | none => exact hQ.record f _ h
  | some reply => exact ite (hQ.record f _ h) (hQ.record f _ h)

theorem rwMultRegisters (hQ : HandlerClosed Q) (e : Exchange) (h : Q f) :
    Q (Recirculador.rwMultRegisters e f).2 := by
  unfold Recirculador.rwMultRegisters
  dsimp only [i2cReadLenghtMaster]
  refine ite ?_ h
  cases e.delivered _ with
  | none => exact hQ.record f _ h
  | some reply => exact ite (hQ.regs _ _ (hQ.record f _ h)) (hQ.record f _ h)

theorem setTimestamp (hQ : HandlerClosed Q) (e : Exchange) (timestampRef : BitVec 32) (h : Q f) :
    Q (Recirculador.setTimestamp e timestampRef f) := by
  unfold Recirculador.setTimestamp
  split
  · exact hQ.record _ _ (hQ.regs f _ h)
  · exact h

theorem regChage (hQ : HandlerClosed Q) (addr flag : BitVec 8) (stack : I2cModbus) (h : Q f) :
    Q (Recirculador.regChage addr flag stack f) := by
  have hnew : ∀ {c : Prop} [Decidable c] (m : I2cModbus) {f : Firmware}, Q f →
      Q (if c then (f.messageNew m).2 else f) := by
    intro c _ m f h
    split
    · exact hQ.messageNew f m h
    · exact h
  unfold Recirculador.regChage
  split
  · exact h
  · exact hnew _ (hnew _ (hnew _ h))

theorem reportSlaveId (hQ : HandlerClosed Q) (e : Exchange) (h : Q f) :
    Q (Recirculador.reportSlaveId e f).2 := by
  unfold Recirculador.reportSlaveId
  refine ite (hQ.fixedReply (fun reply f h => ?_) 16 e h) h
  exact hQ.regChage _ _ _ (hQ.setTimestamp e _ h)

/-- Whatever the message and the answer, a handler does nothing else. -/
theorem handleReply (hQ : HandlerClosed Q) (e : Exchange) (statusAux : Int) (h : Q f) :
    Q (Recirculador.handleReply e statusAux f).2 :=
  handleReply_rule (P := fun r => Q r.2) (fun _ => hQ.getBoolReg e h) (hQ.genericReadReg e h)
    (hQ.fixedReply (fun _ _ h => h) _ e h) (hQ.fixedReply (fun _ _ h => h) 4 e h)
    (hQ.fixedReply (fun _ _ h => h) 5 e h) (fun _ => hQ.openReply _ e h) (hQ.reportSlaveId e h)
    (hQ.fixedReply (fun _ _ h => h) 10 e h) (hQ.rwMultRegisters e h) (fun _ => h) statusAux

end HandlerClosed

theorem Enqueues.handlerClosed (f : Firmware) : HandlerClosed (Enqueues f) where
  regs _ _ h := h
  record _ _ h := h
  messageNew g m h := h.trans (.messageNew m g)

theorem handleReply_enqueues (e : Exchange) (statusAux : Int) (f : Firmware) :
    Enqueues f (handleReply e statusAux f).2 :=
  (Enqueues.handlerClosed f).handleReply e statusAux (.refl f)

end Recirculador
