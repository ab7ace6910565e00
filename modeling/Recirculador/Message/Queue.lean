/-
The message queue of `message_manager.c`.

Fifteen slots linked in a circle, a pointer to the slot of the next message and a
counter.  `message_New` raises the counter before it walks, so it writes one slot
further than the counter it found, and the slot at the pointer after
`message_Init` holds the filler `_message_default`.

A queue carries a history the program does not keep: which messages were
accepted, which acceptance wrote each slot and what was dispatched.  The program
never reads it.
-/
import Recirculador.Board
import Recirculador.Common.Ring

namespace Recirculador

/-- `i2c_modbus_s`, with the payload pointer as a machine address. -/
structure I2cModbus where
  code : BitVec 8
  regAddr : BitVec 16
  nReg : BitVec 16
  bytes : BitVec 8
  ptrMessage : BitVec 32
  crc : BitVec 16
  addr : BitVec 8
  sizeHead : BitVec 16
  sizeMessage : BitVec 16
  deriving DecidableEq, Repr

def messageDefault : I2cModbus :=
  { code := 0, regAddr := 0, nReg := 0, bytes := 0, ptrMessage := 0, crc := 0, addr := 0,
    sizeHead := 0, sizeMessage := 0 }

/-- A message but for what sending writes into it. -/
def I2cModbus.contents (m : I2cModbus) : I2cModbus := { m with crc := 0, addr := 0 }

abbrev Slot := Fin sysModbusMessageQueueSize

structure MessageS where
  message : I2cModbus
  ptrNext : Slot

inductive MessageStatus
  | queueOverload
  | fail
  | ok
  deriving DecidableEq, Repr

/-- One call of `_message_loop_aux`: the `message_loop` call it belongs to, the
acceptance number of the message in the slot, if any, and the message. -/
structure Dispatch where
  call : Nat
  ticket : Option Nat
  message : I2cModbus

structure History where
  accepted : List I2cModbus
  holder : Slot → Option Nat
  lastWritten : Slot
  calls : Nat
  dispatched : List Dispatch

/-- `_Queue`, `_ptrQueue`, `_message_queue_lenght` and `_message_init`. -/
structure Queue where
  slots : Slot → MessageS
  ptrQueue : Slot
  lenght : Nat
  init : Bool
  history : History

namespace Queue

def setMessage (slot : Slot) (m : I2cModbus) (q : Queue) : Queue :=
  { q with slots := fun i => if i = slot then { q.slots i with message := m } else q.slots i }

def setHolder (slot : Slot) (ticket : Option Nat) (q : Queue) : Queue :=
  { q with history := { q.history with
      holder := fun i => if i = slot then ticket else q.history.holder i } }

def recordAccepted (slot : Slot) (m : I2cModbus) (q : Queue) : Queue :=
  let q := q.setHolder slot (some q.history.accepted.length)
  { q with history := { q.history with
      accepted := q.history.accepted ++ [m], lastWritten := slot } }

/-- Record that the message at the pointer is handed to `_message_loop_aux`. -/
def recordDispatch (q : Queue) : Queue :=
  { q with history := { q.history with
      dispatched := q.history.dispatched ++
        [{ call := q.history.calls, ticket := q.history.holder q.ptrQueue,
           message := (q.slots q.ptrQueue).message }] } }

def recordCall (q : Queue) : Queue :=
  { q with history := { q.history with calls := q.history.calls + 1 } }

def head (q : Queue) : I2cModbus := (q.slots q.ptrQueue).message

/-! ## The statements at the end of `message_loop` -/

/-- `_ptrQueue->message = _message_default`. -/
def resetSlot (q : Queue) : Queue :=
  (q.setMessage q.ptrQueue messageDefault).setHolder q.ptrQueue none

/-- `_ptrQueue = _ptrQueue->ptrNext`. -/
def moveHead (q : Queue) : Queue := { q with ptrQueue := (q.slots q.ptrQueue).ptrNext }

/-- `_message_queue_lenght--`. -/
def decrement (q : Queue) : Queue := { q with lenght := q.lenght - 1 }

end Queue

open Queue

def bootQueue : Queue where
  slots := fun _ => { message := messageDefault, ptrNext := 0 }
  ptrQueue := 0
  lenght := 0
  init := false
  history :=
    { accepted := [], holder := fun _ => none, lastWritten := 0, calls := 0, dispatched := [] }

def messageInit (q : Queue) : Queue :=
  { q with
    slots := fun i => { message := messageDefault, ptrNext := Ring.slot i 1 }
    ptrQueue := 0
    init := true
    history := { q.history with holder := fun _ => none } }

def messageNew (newMessage : I2cModbus) (q : Queue) : MessageStatus × Queue :=
  if q.init = false then (.fail, q)
  else
    let q := { q with lenght := q.lenght + 1 }
    if q.lenght = sysModbusMessageQueueSize then
      (.queueOverload, { q with lenght := q.lenght - 1 })
    else
      let ptrAux := Ring.walk (fun i => (q.slots i).ptrNext) q.ptrQueue q.lenght
      (.ok, (q.setMessage ptrAux newMessage).recordAccepted ptrAux newMessage)

/-! ## Taking a message or not -/

namespace Queue

def Accepts (q : Queue) : Prop := q.init = true ∧ q.lenght ≠ 14

instance (q : Queue) : Decidable q.Accepts := inferInstanceAs (Decidable (_ ∧ _))

theorem messageNew_accepts {q : Queue} (h : q.Accepts) (m : I2cModbus) :
    ∃ slot, slot = Ring.walk (fun i => (q.slots i).ptrNext) q.ptrQueue (q.lenght + 1) ∧
      messageNew m q =
        (.ok, ({ q with lenght := q.lenght + 1 }.setMessage slot m).recordAccepted slot m) := by
  have hinit : ¬ q.init = false := by simp [h.1]
  have hne : ¬ q.lenght + 1 = sysModbusMessageQueueSize := fun he => h.2 (Nat.succ.inj he)
  rw [messageNew, if_neg hinit]
  dsimp only
  rw [if_neg hne]
  exact ⟨_, rfl, rfl⟩

theorem messageNew_refuses {q : Queue} (h : ¬ q.Accepts) (m : I2cModbus) :
    (messageNew m q).1 ≠ .ok ∧ (messageNew m q).2 = q := by
  rw [messageNew]
  by_cases hinit : q.init = false
  · rw [if_pos hinit]
    exact ⟨nofun, rfl⟩
  rw [if_neg hinit]
  have hfull : q.lenght + 1 = sysModbusMessageQueueSize :=
    Decidable.byContradiction fun hne => h ⟨by simpa using hinit, fun he => hne (by rw [he])⟩
  dsimp only
  rw [if_pos hfull]
  exact ⟨nofun, rfl⟩

/-- `message_New` returns `Message_QueueOverload`. -/
def Full (q : Queue) : Prop := q.init = true ∧ q.lenght = 14

theorem Full.not_accepts {q : Queue} (h : q.Full) : ¬ q.Accepts := fun hroom => hroom.2 h.2

theorem messageNew_overload_iff {q : Queue} {m : I2cModbus} :
    (messageNew m q).1 = .queueOverload ↔ q.Full := by
  by_cases hroom : q.Accepts
  · obtain ⟨slot, -, hnew⟩ := messageNew_accepts hroom m
    rw [hnew]
    exact iff_of_false nofun fun hfull => hfull.not_accepts hroom
  · rw [messageNew]
    by_cases hinit : q.init = false
    · rw [if_pos hinit]
      exact iff_of_false nofun fun hfull => Bool.noConfusion (hfull.1.symm.trans hinit)
    have hlen : q.lenght = 14 :=
      Decidable.byContradiction fun hne => hroom ⟨by simpa using hinit, hne⟩
    rw [if_neg hinit]
    dsimp only
    rw [if_pos (by rw [hlen] : q.lenght + 1 = sysModbusMessageQueueSize)]
    exact iff_of_true rfl ⟨by simpa using hinit, hlen⟩

/-- One more message fills a queue of 13 and leaves a full one full. -/
theorem full_messageNew_iff {q : Queue} {m : I2cModbus} :
    (messageNew m q).2.Full ↔ q.init = true ∧ (q.lenght = 13 ∨ q.lenght = 14) := by
  by_cases hroom : q.Accepts
  · obtain ⟨slot, -, hnew⟩ := messageNew_accepts hroom m
    have hne := hroom.2
    rw [hnew]
    have hlen : q.lenght + 1 = 14 ↔ q.lenght = 13 ∨ q.lenght = 14 := by omega
    exact and_congr Iff.rfl hlen
  · rw [(messageNew_refuses hroom m).2, Full]
    by_cases hinit : q.init = true
    · have hlen : q.lenght = 14 := Decidable.byContradiction fun hne => hroom ⟨hinit, hne⟩
      simp [hinit, hlen]
    · simp [hinit]

end Queue

end Recirculador
