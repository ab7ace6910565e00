/-
The button's bit under preemption.

`rec_system` writes the `Button` bit with `reg_write_bool`, a read-modify-write of
the byte that also holds the `Pump` bit, and the button's interrupt may come
between any two of its accesses.  The byte is put back as it was loaded, so an
interrupt between the load and the store loses its pump bit and keeps its pin.
-/
import Recirculador.Pump.Control

namespace Recirculador

open SysRegMap Registers

/-! ## `reg_write_bool`, access by access -/

/-- The next access of `reg_write_bool` to the registers and to `change_flag`. -/
inductive BoolAccess
  | loadRegister
  | storeRegister
  | loadFlag
  | storeFlag
  | done
  deriving DecidableEq

/-- The plant and the locals of a call of `reg_write_bool`. -/
structure BoolCall where
  plant : Plant
  next : BoolAccess
  valueRegister : BitVec 8
  valueWrite : BitVec 8
  flag : BitVec 8

def BoolCall.start (p : Plant) : BoolCall :=
  { plant := p, next := .loadRegister, valueRegister := 0, valueWrite := 0, flag := 0 }

namespace BoolCall

/-- One access of the call that writes `value` to the register of that index. -/
def access (value : Bool) (index : Nat) (s : BoolCall) : BoolCall :=
  let p := s.plant
  match s.next with
  | .loadRegister =>
    let valueRegister := p.regs.regVet (boolIndexAddr index)
    let valueWrite := boolWrite value (boolIndexPos index) valueRegister
    { s with
      valueRegister
      valueWrite
      next := if valueRegister ≠ valueWrite then .storeRegister else .done }
  | .storeRegister =>
    { s with
      plant := { p with regs := p.regs.setByte (boolIndexAddr index) s.valueWrite }
      next := .loadFlag }
  | .loadFlag => { s with flag := p.regs.changeFlag, next := .storeFlag }
  | .storeFlag =>
    { s with
      plant := { p with regs := { p.regs with changeFlag := s.flag ||| Bank.bool.changeBit } }
      next := .done }
  | .done => s

def accesses (value : Bool) (index : Nat) : Nat → BoolCall → BoolCall
  | 0, s => s
  | n + 1, s => accesses value index n (s.access value index)

def interrupt (now : BitVec 64) (s : BoolCall) : BoolCall :=
  { s with plant := recIsrBotoeira now s.plant }

/-- The byte the call puts back for the byte it loaded. -/
def written (value : Bool) (index : Nat) (p : Plant) : BitVec 8 :=
  boolWrite value (boolIndexPos index) (p.regs.regVet (boolIndexAddr index))

theorem accesses_start (value : Bool) (index n : Nat) (p : Plant) :
    accesses value index (n + 1) (start p) = accesses value index n
      { start p with
        valueRegister := p.regs.regVet (boolIndexAddr index)
        valueWrite := written value index p
        next :=
          if p.regs.regVet (boolIndexAddr index) ≠ written value index p then .storeRegister
          else .done } :=
  rfl

theorem regWriteBool_written {addr index : Nat} (h : getIndex addr = some index) (value : Bool)
    (p : Plant) : regWriteBool value addr p.regs =
      if p.regs.regVet (boolIndexAddr index) ≠ written value index p then
        (p.regs.setByte (boolIndexAddr index) (written value index p)).raise .bool
      else p.regs := by
  simp only [regWriteBool, h]
  rfl

/-- Left alone, the accesses compute `reg_write_bool`. -/
theorem accesses_regWriteBool {addr index : Nat} (h : getIndex addr = some index) (value : Bool)
    (p : Plant) : (accesses value index 4 (start p)).plant =
      { p with regs := regWriteBool value addr p.regs } := by
  rw [regWriteBool_written h]
  by_cases hsame : p.regs.regVet (boolIndexAddr index) ≠ written value index p
  · rw [if_pos hsame, accesses_start, if_pos hsame]
    rfl
  · rw [if_neg hsame, accesses_start, if_neg hsame]
    rfl

theorem accesses_done {value : Bool} {index : Nat} {s : BoolCall} (h : s.next = .done) (n : Nat) :
    accesses value index n s = s := by
  induction n with
  | zero => rfl
  | succ n ih =>
    have hstay : s.access value index = s := by simp only [access, h]
    rw [accesses, hstay, ih]

/-- Four accesses complete the call. -/
theorem accesses_next (value : Bool) (index : Nat) (p : Plant) :
    (accesses value index 4 (start p)).next = .done := by
  by_cases hsame : p.regs.regVet (boolIndexAddr index) ≠ written value index p
  · rw [accesses_start, if_pos hsame]
    rfl
  · rw [accesses_start, if_neg hsame]
    rfl

/-- An interrupt after the last access is an interrupt alone. -/
theorem interrupt_done {value : Bool} {index : Nat} {s : BoolCall} (h : s.next = .done)
    (now : BitVec 64) (k n : Nat) :
    ((s.accesses value index k).interrupt now).accesses value index n = s.interrupt now := by
  rw [accesses_done h]
  exact accesses_done (show (s.interrupt now).next = .done from h) n

theorem accesses_add (value : Bool) (index m n : Nat) (s : BoolCall) :
    accesses value index (m + n) s = accesses value index n (accesses value index m s) := by
  induction m generalizing s with
  | zero => rw [Nat.zero_add, accesses]
  | succ m ih => rw [Nat.succ_add, accesses, accesses, ih]

end BoolCall

/-! ## The two bits of one byte -/

namespace Plant

theorem getIndex_button : getIndex button = some 1 := getIndex_bool (k := 1) (by decide)

theorem pump_setByte (r : Registers) (v : BitVec 8) :
    regReadBool pump (r.setByte 0 v) = v.getLsbD 7 :=
  regReadBool_eq getIndex_pump _

theorem button_setByte (r : Registers) (v : BitVec 8) :
    regReadBool button (r.setByte 0 v) = v.getLsbD 6 :=
  regReadBool_eq getIndex_button _

theorem pump_regVet (r : Registers) : regReadBool pump r = (r.regVet 0).getLsbD 7 :=
  regReadBool_eq getIndex_pump r

theorem button_regVet (r : Registers) : regReadBool button r = (r.regVet 0).getLsbD 6 :=
  regReadBool_eq getIndex_button r

theorem button_regWriteBool_pump (value : Bool) (r : Registers) :
    regReadBool button (regWriteBool value pump r) = regReadBool button r := by
  rw [regReadBool_eq getIndex_button, regReadBool_eq getIndex_button,
    regWriteBool_boolBit getIndex_pump, if_neg (by decide)]

theorem pump_regWriteBool_button (value : Bool) (r : Registers) :
    regReadBool pump (regWriteBool value button r) = regReadBool pump r := by
  rw [regReadBool_eq getIndex_pump, regReadBool_eq getIndex_pump,
    regWriteBool_boolBit getIndex_button, if_neg (by decide)]

theorem button_regWriteBool (value : Bool) (r : Registers) :
    regReadBool button (regWriteBool value button r) = value := by
  rw [regReadBool_eq getIndex_button, regWriteBool_boolBit getIndex_button, if_pos rfl]

/-- What the interrupt does to the two bits and the pin. -/
structure Interrupted (now : BitVec 64) (p q : Plant) : Prop where
  pump : regReadBool SysRegMap.pump q.regs =
    if p.Fires now then !p.botoeira.pumpOn else regReadBool SysRegMap.pump p.regs
  button : regReadBool SysRegMap.button q.regs = regReadBool SysRegMap.button p.regs
  pin : q.gpio.DrivenLow sysPinPump ↔
    if p.Fires now then p.botoeira.pumpOn = false else p.gpio.DrivenLow sysPinPump

theorem recIsrBotoeira_interrupted {p : Plant} (hout : p.gpio.IsOutput sysPinPump)
    (now : BitVec 64) : Interrupted now p (recIsrBotoeira now p) := by
  rw [recIsrBotoeira_eq]
  by_cases hfires : p.Fires now
  case neg =>
    rw [if_neg hfires]
    exact ⟨(if_neg hfires).symm, rfl, by rw [if_neg hfires]⟩
  have hclicked : (p.clicked now).gpio.IsOutput sysPinPump := hout
  rw [if_pos hfires]
  cases hflag : p.botoeira.pumpOn with
  | false =>
    refine ⟨?_, button_regWriteBool_pump true p.regs, ?_⟩
    · rw [if_pos hfires, hflag]
      exact regReadBool_pump true p.regs
    · rw [if_pos hfires]
      exact iff_of_true (pumpOn_drivenLow hclicked) hflag
  | true =>
    refine ⟨?_, button_regWriteBool_pump false p.regs, ?_⟩
    · rw [if_pos hfires, hflag]
      exact regReadBool_pump false p.regs
    · rw [if_pos hfires]
      exact iff_of_false (pumpOff_isOff hclicked).2 (by simp [hflag])

/-! ## Where the interrupt comes -/

/-- The call of `rec_system`, with the interrupt after `k` of its accesses. -/
def interleaved (value : Bool) (now : BitVec 64) (k : Nat) (p : Plant) : Plant :=
  (((BoolCall.start p).accesses value 1 k |>.interrupt now).accesses value 1 4).plant

/-- Each bit is the one its writer wrote, and the pump bit tells the pin. -/
structure Unclobbered (value : Bool) (now : BitVec 64) (p q : Plant) : Prop where
  pump : regReadBool SysRegMap.pump q.regs =
    if p.Fires now then !p.botoeira.pumpOn else regReadBool SysRegMap.pump p.regs
  pin : p.Fires now ∨ p.Agrees → q.Agrees
  button : regReadBool SysRegMap.button q.regs = value

theorem Interrupted.agrees {now : BitVec 64} {p q : Plant} (h : Interrupted now p q)
    (hp : p.Fires now ∨ p.Agrees) : q.Agrees := by
  rw [Agrees, h.pump, h.pin]
  by_cases hfires : p.Fires now
  · rw [if_pos hfires, if_pos hfires, Bool.not_eq_true']
  · rw [if_neg hfires, if_neg hfires]
    exact hp.resolve_left hfires

/-- The interrupt came before the load. -/
theorem unclobbered_before {p q : Plant} {now : BitVec 64} (h : Interrupted now p q)
    (value : Bool) : Unclobbered value now p
      { q with regs := regWriteBool value button q.regs } := by
  have hpump := pump_regWriteBool_button value q.regs
  refine ⟨hpump.trans h.pump, fun hp => ?_, button_regWriteBool value q.regs⟩
  have hagrees := h.agrees hp
  rw [Agrees, ← hpump] at hagrees
  exact hagrees

/-- The interrupt came when the byte was stored, or nothing was to store. -/
theorem unclobbered_after {p q : Plant} {r : Registers} {now : BitVec 64}
    (h : Interrupted now { p with regs := r } q) {value : Bool}
    (hpump : regReadBool pump r = regReadBool pump p.regs)
    (hbutton : regReadBool button r = value) : Unclobbered value now p q := by
  refine ⟨?_, fun hp => ?_, h.button.trans hbutton⟩
  · rw [h.pump, ← hpump]
    rfl
  · refine h.agrees (hp.imp_right fun hagrees => ?_)
    rw [Agrees, ← hpump] at hagrees
    exact hagrees

theorem written_bits (value : Bool) (p : Plant) :
    (BoolCall.written value 1 p).getLsbD 7 = regReadBool pump p.regs ∧
      (BoolCall.written value 1 p).getLsbD 6 = value := by
  have hbit := fun q hq =>
    getLsbD_boolWrite (p.regs.regVet 0) value (p := 1) (q := q) (by decide) hq
  refine ⟨?_, hbit 1 (by decide)⟩
  rw [pump_regVet]
  exact hbit 0 (by decide)

/-- The interrupt came between the load and the store: the loaded bit comes back. -/
theorem unclobbered_between {p q : Plant} {now : BitVec 64} (h : Interrupted now p q)
    (value : Bool) (flag : BitVec 8) :
    Unclobbered value now p
        { q with regs := ⟨(q.regs.setByte 0 (BoolCall.written value 1 p)).regVet, flag⟩ } ↔
      ¬ (p.Fires now ∧ regReadBool pump p.regs = p.botoeira.pumpOn) := by
  obtain ⟨hpump, hbutton⟩ := written_bits value p
  have hloaded : regReadBool pump ⟨(q.regs.setByte 0 (BoolCall.written value 1 p)).regVet, flag⟩ =
      regReadBool pump p.regs := (pump_setByte q.regs _).trans hpump
  constructor
  · intro hgood hbad
    have hpump := hgood.pump
    rw [hloaded, if_pos hbad.1, hbad.2] at hpump
    exact Bool.eq_not_self _ |>.mp hpump
  · intro hok
    have hkept : regReadBool pump p.regs = regReadBool pump q.regs := by
      rw [h.pump]
      by_cases hfires : p.Fires now
      · rw [if_pos hfires, Bool.eq_not]
        exact fun he => hok ⟨hfires, he⟩
      · rw [if_neg hfires]
    refine ⟨hloaded.trans (hkept.trans h.pump), fun hp => ?_,
      (button_setByte q.regs _).trans hbutton⟩
    have hagrees := h.agrees hp
    rw [Agrees, ← hkept, ← hloaded] at hagrees
    exact hagrees

/-- What the call stores, if it stores. -/
theorem written_eq_iff (value : Bool) (p : Plant) :
    p.regs.regVet 0 = BoolCall.written value 1 p ↔ regReadBool button p.regs = value := by
  rw [button_regVet, eq_comm]
  exact boolWrite_eq_self_iff (p.regs.regVet 0) value (show 1 < 8 by omega)

/-- The plant after all accesses but those to `change_flag`. -/
theorem interleaved_stored {p : Plant} {value : Bool}
    (hstore : regReadBool button p.regs ≠ value) (now : BitVec 64) {k : Nat} (hk : k = 2 ∨ k = 3) :
    ∃ flag, interleaved value now k p =
      let q := recIsrBotoeira now { p with regs := p.regs.setByte 0 (BoolCall.written value 1 p) }
      { q with regs := ⟨q.regs.regVet, flag⟩ } := by
  have hne : p.regs.regVet (boolIndexAddr 1) ≠ BoolCall.written value 1 p := fun he =>
    hstore ((written_eq_iff value p).mp he)
  rcases hk with rfl | rfl
  · rw [interleaved, BoolCall.accesses_start, if_pos hne]
    exact ⟨_, rfl⟩
  · rw [interleaved, BoolCall.accesses_start, if_pos hne]
    exact ⟨_, rfl⟩

theorem interleaved_between {p : Plant} {value : Bool}
    (hstore : regReadBool button p.regs ≠ value) (now : BitVec 64) :
    ∃ flag, interleaved value now 1 p =
      let q := recIsrBotoeira now p
      { q with regs := ⟨(q.regs.setByte 0 (BoolCall.written value 1 p)).regVet, flag⟩ } := by
  have hne : p.regs.regVet (boolIndexAddr 1) ≠ BoolCall.written value 1 p := fun he =>
    hstore ((written_eq_iff value p).mp he)
  rw [interleaved, BoolCall.accesses_start, if_pos hne]
  exact ⟨_, rfl⟩

/-- With nothing to store the call is over after its load. -/
theorem interleaved_idle {p : Plant} {value : Bool} (hsame : regReadBool button p.regs = value)
    (now : BitVec 64) (k : Nat) : interleaved value now (k + 1) p = recIsrBotoeira now p := by
  have heq : ¬ p.regs.regVet (boolIndexAddr 1) ≠ BoolCall.written value 1 p :=
    not_not_intro ((written_eq_iff value p).mpr hsame)
  rw [interleaved, BoolCall.accesses_start, if_neg heq, BoolCall.interrupt_done rfl]
  rfl

theorem interleaved_late (value : Bool) (now : BitVec 64) (k : Nat) (p : Plant) :
    interleaved value now (4 + k) p =
      recIsrBotoeira now { p with regs := regWriteBool value button p.regs } := by
  have hdone := BoolCall.accesses_next value 1 p
  rw [interleaved, BoolCall.accesses_add, BoolCall.interrupt_done hdone,
    ← BoolCall.accesses_regWriteBool getIndex_button]
  rfl

/-- Neither bit is clobbered unless the interrupt comes between the load and the
store of a byte in which both change. -/
theorem interleaved_unclobbered_iff {p : Plant} (hout : p.gpio.IsOutput sysPinPump)
    (value : Bool) (now : BitVec 64) (k : Nat) :
    Unclobbered value now p (interleaved value now k p) ↔
      ¬ (k = 1 ∧ regReadBool button p.regs ≠ value ∧ p.Fires now ∧
        regReadBool pump p.regs = p.botoeira.pumpOn) := by
  have hisr : ∀ r, Interrupted now { p with regs := r } (recIsrBotoeira now { p with regs := r }) :=
    fun r => recIsrBotoeira_interrupted (p := { p with regs := r }) hout now
  cases k with
  | zero =>
    have hstart : interleaved value now 0 p = { recIsrBotoeira now p with
        regs := regWriteBool value button (recIsrBotoeira now p).regs } :=
      BoolCall.accesses_regWriteBool getIndex_button value (recIsrBotoeira now p)
    rw [hstart]
    exact iff_of_true (unclobbered_before (hisr p.regs) value) fun hbad => Nat.noConfusion hbad.1
  | succ k =>
    by_cases hstore : regReadBool button p.regs = value
    · rw [interleaved_idle hstore]
      exact iff_of_true (unclobbered_after (hisr p.regs) rfl hstore) fun hbad => hbad.2.1 hstore
    have hlate : 1 ≤ k → ¬ (k + 1 = 1 ∧ regReadBool button p.regs ≠ value ∧ p.Fires now ∧
        regReadBool pump p.regs = p.botoeira.pumpOn) := by omega
    by_cases hbetween : k = 0
    · subst hbetween
      obtain ⟨flag, hflag⟩ := interleaved_between hstore now
      rw [hflag]
      refine (unclobbered_between (hisr p.regs) value flag).trans (not_congr ?_)
      exact ⟨fun h => ⟨rfl, hstore, h⟩, fun h => h.2.2⟩
    refine iff_of_true ?_ (hlate (by omega))
    by_cases hflags : k = 1 ∨ k = 2
    · obtain ⟨flag, hflag⟩ := interleaved_stored hstore now (k := k + 1) (by omega)
      obtain ⟨hpump, hbutton⟩ := written_bits value p
      have hafter := unclobbered_after (hisr (p.regs.setByte 0 (BoolCall.written value 1 p)))
        ((pump_setByte p.regs _).trans hpump) ((button_setByte p.regs _).trans hbutton)
      rw [hflag]
      exact ⟨hafter.pump, hafter.pin, hafter.button⟩
    · obtain ⟨j, rfl⟩ : ∃ j, k = 3 + j := ⟨k - 3, by omega⟩
      rw [show 3 + j + 1 = 4 + j by omega, interleaved_late]
      exact unclobbered_after (hisr _) (pump_regWriteBool_button value p.regs)
        (button_regWriteBool value p.regs)

/-- The button goes down on a stopped pump: the interrupt starts the pump between
the load and the store of the byte, and its register is back at 0. -/
theorem interleaved_clobbers :
    ¬ ∀ (p : Plant) (value : Bool) (now : BitVec 64) (k : Nat), p.gpio.IsOutput sysPinPump →
      Unclobbered value now p (interleaved value now k p) := by
  intro hall
  have hbits := hall (afterSetup 0 0) true 200 1 (Gpio.setupPins_pump _)
  exact absurd hbits.pump (by decide)

/-- One access later the same interrupt clobbers nothing. -/
theorem interleaved_unclobbered_stored :
    Unclobbered true 200 (afterSetup 0 0) (interleaved true 200 2 (afterSetup 0 0)) :=
  (interleaved_unclobbered_iff (Gpio.setupPins_pump _) true 200 2).mpr
    fun hbad => absurd hbad.1 (by decide)

end Plant

end Recirculador
