/-
Which changes of a register reach the slaves.

Every bank has one message, and `rec_create_messages` has one for the measured
ints.  The first covers the ints from `Flux_Calib` on and the second those up to
`Current`: `Errors` stands between them and in neither.
-/
import Recirculador.Change.Pending

namespace Recirculador

open SysRegMap Registers

/-! ## Ranges -/

/-- The block of registers the message sets contains the address. -/
def I2cModbus.Covers (addr : Nat) (m : I2cModbus) : Prop :=
  m.code = Modbus.setMultNumReg ∧ m.regAddr.toNat ≤ addr ∧
    addr < m.regAddr.toNat + m.nReg.toNat

instance (addr : Nat) (m : I2cModbus) : Decidable (m.Covers addr) :=
  inferInstanceAs (Decidable (_ ∧ _))

theorem covers_setMultNumReg {regAddr nReg : Nat} (hreg : regAddr < 65536) (hn : nReg < 65536)
    (bytes : Nat) (ptr : BitVec 32) (slave : BitVec 8) (stack : I2cModbus) (addr : Nat) :
    (setMultNumReg regAddr nReg bytes ptr slave stack).Covers addr ↔
      regAddr ≤ addr ∧ addr < regAddr + nReg := by
  simp [I2cModbus.Covers, setMultNumReg, BitVec.toNat_ofNat, Nat.mod_eq_of_lt hreg,
    Nat.mod_eq_of_lt hn]

def Bank.Maps (addr : Nat) : Bank → Prop
  | .bool => pump ≤ addr ∧ addr ≤ resetButton
  | .short => model ≤ addr ∧ addr ≤ gtm
  | .int => timestamp ≤ addr ∧ addr ≤ schedules9

instance (addr : Nat) (b : Bank) : Decidable (b.Maps addr) := by
  cases b <;> exact inferInstanceAs (Decidable (_ ∧ _))

theorem Bank.Maps.eq_int {b : Bank} {addr : Nat} (hmap : b.Maps addr) (h : timestamp ≤ addr) :
    b = .int := by
  cases b with
  | int => rfl
  | bool => exact absurd (Nat.le_trans h hmap.2) (by decide)
  | short => exact absurd (Nat.le_trans h hmap.2) (by decide)

/-- A bank's message covers the registers of that bank in the map, but for the ints
up to `Errors`. -/
theorem covers_bankMessage {b : Bank} {addr : Nat} (hmap : b.Maps addr) (c : Bank)
    (stack : I2cModbus) (f : Firmware) :
    (bankMessage c stack f).Covers addr ↔ c = b ∧ ¬ (b = .int ∧ addr ≤ errors) := by
  have hrange : (bankMessage c stack f).Covers addr ↔
      match c with
      | .bool => pump ≤ addr ∧ addr ≤ resetButton
      | .short => model ≤ addr ∧ addr ≤ gtm
      | .int => fluxCalib ≤ addr ∧ addr ≤ schedules9 := by
    cases c <;>
      exact (covers_setMultNumReg (by decide) (by decide) _ _ _ stack addr).trans (by simp; omega)
  rw [hrange]
  cases b <;> cases c <;> simp [Bank.Maps] at hmap ⊢ <;> omega

theorem covers_measuredMessage (stack : I2cModbus) (f : Firmware) (addr : Nat) :
    (measuredMessage stack f).Covers addr ↔ timestamp ≤ addr ∧ addr ≤ current := by
  exact (covers_setMultNumReg (by decide) (by decide) _ _ _ stack addr).trans (by simp; omega)

/-! ## Calling until nothing is pending -/

structure VerifyCall where
  now : BitVec 64
  stack : I2cModbus

/-- The next call of `rec_change_verify`, unless `change_flag` is 0. -/
def verifyStep (f : Firmware) (c : VerifyCall) : Firmware :=
  if f.regs.changeFlag = 0 then f else recChangeVerify c.now c.stack f

def stepMessages (f : Firmware) (c : VerifyCall) : List I2cModbus :=
  if f.regs.changeFlag = 0 then []
  else (f.tries c.now).toList.map fun b => bankMessage b c.stack f

def runMessages (f : Firmware) : List VerifyCall → List I2cModbus
  | [] => []
  | c :: cs => stepMessages f c ++ runMessages (verifyStep f c) cs

theorem changeFlag_ne_zero {r : Registers} {b : Bank} (h : r.Pending b) : r.changeFlag ≠ 0 := by
  intro hzero
  rw [Pending, hzero] at h
  simp at h

/-- A call whose refresh forces a bank leaves nothing pending at all. -/
theorem changeFlag_of_fires {now : BitVec 64} {f : Firmware} {b : Bank}
    (h : f.recChange.fires now = some b) (stack : I2cModbus) :
    (recChangeVerify now stack f).regs.changeFlag = 0 := by
  have htries : f.tries now = some b := by rw [Firmware.tries, h]
  have hrefresh : (f.refresh now).regs = regSetChangeFlag b.changeBit f.regs := by
    rw [Firmware.refresh, recChange_regs, h]
  have hannounced : (recChangeVerify now stack f).regs =
      regClearChangeFlag b.changeBit (f.refresh now).regs := by
    rw [recChangeVerify_eq, htries]
    rfl
  rw [hannounced, hrefresh]
  cases b <;> simp [regClearChangeFlag, regSetChangeFlag, Bank.changeBit]

theorem runMessages_of_zero {f : Firmware} (h : f.regs.changeFlag = 0) (cs : List VerifyCall) :
    runMessages f cs = [] := by
  induction cs with
  | nil => rfl
  | cons c cs ih => rw [runMessages, stepMessages, verifyStep, if_pos h, if_pos h, ih]; rfl

/-! ## Which calls lose the bank -/

/-- A call that finds the bank pending is not one whose refresh forces another. -/
def Spares (b : Bank) (f : Firmware) (c : VerifyCall) : Prop :=
  f.regs.Pending b → ∀ x, f.recChange.fires c.now = some x → x = b

theorem not_pending_verifyStep {b : Bank} {f : Firmware} (h : ¬ f.regs.Pending b)
    (c : VerifyCall) : ¬ (verifyStep f c).regs.Pending b := by
  unfold verifyStep
  split
  · exact h
  · exact fun hb => h ((pending_recChangeVerify c.now c.stack f b).mp hb).2.1

theorem spares_of_not_pending {b : Bank} {f : Firmware} (h : ¬ f.regs.Pending b)
    (cs : List VerifyCall) : Run.Each verifyStep (Spares b) f cs := by
  induction cs generalizing f with
  | nil => trivial
  | cons c cs ih => exact ⟨fun hb => absurd hb h, ih (not_pending_verifyStep h c)⟩

/-! One call on a pending bank sends its message, loses it or leaves it for later. -/

section

variable {b x : Bank} {addr : Nat} {f : Firmware} {c : VerifyCall}

theorem verifyStep_eq (hpend : f.regs.Pending b) :
    verifyStep f c = recChangeVerify c.now c.stack f :=
  if_neg (changeFlag_ne_zero hpend)

theorem stepMessages_eq (hpend : f.regs.Pending b) (htries : f.tries c.now = some x) :
    stepMessages f c = [bankMessage x c.stack f] := by
  rw [stepMessages, if_neg (changeFlag_ne_zero hpend), htries]
  rfl

theorem exists_covers_of_sent
    (hcovers : ∀ c stack f, (bankMessage c stack f).Covers addr ↔ c = b)
    (hpend : f.regs.Pending b) (htries : f.tries c.now = some b) (cs : List VerifyCall) :
    (∃ m ∈ runMessages f (c :: cs), m.Covers addr) ∧
      Run.Each verifyStep (Spares b) f (c :: cs) := by
  have hgone : ¬ (verifyStep f c).regs.Pending b := by
    rw [verifyStep_eq hpend, pending_recChangeVerify]
    exact fun h => h.2.2 htries
  refine ⟨⟨bankMessage b c.stack f, ?_, (hcovers b _ _).mpr rfl⟩, fun _ y hy => ?_,
    spares_of_not_pending hgone cs⟩
  · rw [runMessages, stepMessages_eq hpend htries]
    exact List.mem_cons_self ..
  · rw [Firmware.tries, hy] at htries
    exact Option.some.inj htries

theorem not_exists_covers_of_forced
    (hcovers : ∀ c stack f, (bankMessage c stack f).Covers addr ↔ c = b)
    (hpend : f.regs.Pending b) (hfires : f.recChange.fires c.now = some x) (hx : x ≠ b)
    (cs : List VerifyCall) : ¬ ∃ m ∈ runMessages f (c :: cs), m.Covers addr := by
  have htries : f.tries c.now = some x := by rw [Firmware.tries, hfires]
  have hzero : (verifyStep f c).regs.changeFlag = 0 := by
    rw [verifyStep_eq hpend]
    exact changeFlag_of_fires hfires c.stack
  intro h
  rcases h with ⟨m, hm, hcov⟩
  rw [runMessages, stepMessages_eq hpend htries, runMessages_of_zero hzero, List.append_nil] at hm
  rw [List.mem_singleton.mp hm, hcovers] at hcov
  exact hx hcov

/-- Another pending bank goes first and the bank waits for the next call. -/
theorem exists_covers_of_waiting
    (hcovers : ∀ c stack f, (bankMessage c stack f).Covers addr ↔ c = b)
    (hpend : f.regs.Pending b) (hfires : f.recChange.fires c.now = none)
    (htries : f.tries c.now = some x) (hx : x ≠ b) (cs : List VerifyCall) :
    (verifyStep f c).regs.Pending b ∧
    ((∃ m ∈ runMessages f (c :: cs), m.Covers addr) ↔
      ∃ m ∈ runMessages (verifyStep f c) cs, m.Covers addr) := by
  constructor
  · rw [verifyStep_eq hpend, pending_recChangeVerify, htries]
    exact ⟨hfires, hpend, fun h => hx (Option.some.inj h)⟩
  · have hhead : ¬ (bankMessage x c.stack f).Covers addr := by
      rw [hcovers]
      exact hx
    rw [runMessages, stepMessages_eq hpend htries]
    simp only [List.cons_append, List.nil_append, List.mem_cons, exists_eq_or_imp, hhead, false_or]

end

/-- Of the calls made until nothing is pending one sends the message of a pending
bank exactly when none of them forces another bank over it. -/
theorem exists_covers_iff {b : Bank} {addr : Nat}
    (hcovers : ∀ c stack f, (bankMessage c stack f).Covers addr ↔ c = b) {f : Firmware}
    (hpend : f.regs.Pending b) {cs : List VerifyCall}
    (hzero : (Run.final verifyStep f cs).regs.changeFlag = 0) :
    (∃ m ∈ runMessages f cs, m.Covers addr) ↔ Run.Each verifyStep (Spares b) f cs := by
  induction cs generalizing f with
  | nil => exact absurd hzero (changeFlag_ne_zero hpend)
  | cons c cs ih =>
    cases hfires : f.recChange.fires c.now with
    | some x =>
      by_cases hx : x = b
      · have htries : f.tries c.now = some b := by rw [Firmware.tries, hfires, hx]
        have hboth := exists_covers_of_sent hcovers hpend htries cs
        exact iff_of_true hboth.1 hboth.2
      · exact iff_of_false (not_exists_covers_of_forced hcovers hpend hfires hx cs)
          fun h => hx (h.1 hpend x hfires)
    | none =>
      obtain ⟨x, htries⟩ : ∃ x, f.tries c.now = some x := by
        refine Option.ne_none_iff_exists'.mp fun hnone => ?_
        exact (tries_eq_none_iff.mp hnone).2 b hpend
      by_cases hx : x = b
      · have hboth := exists_covers_of_sent hcovers hpend (hx ▸ htries) cs
        exact iff_of_true hboth.1 hboth.2
      · obtain ⟨hstill, hrest⟩ :=
          exists_covers_of_waiting hcovers hpend hfires htries hx cs
        have hspares : Spares b f c := by
          intro _ y hy
          rw [hfires] at hy
          cases hy
        exact (hrest.trans (ih hstill hzero)).trans (and_iff_right hspares).symm

theorem not_covers_runMessages {addr : Nat}
    (hcovers : ∀ c stack f, ¬ (bankMessage c stack f).Covers addr) (f : Firmware)
    (cs : List VerifyCall) : ¬ ∃ m ∈ runMessages f cs, m.Covers addr := by
  induction cs generalizing f with
  | nil => rintro ⟨m, hm, -⟩; exact nomatch hm
  | cons c cs ih =>
    intro h
    rcases h with ⟨m, hm, hcov⟩
    rcases List.mem_append.mp hm with hhead | htail
    · unfold stepMessages at hhead
      split at hhead
      · exact nomatch hhead
      · obtain ⟨b, -, rfl⟩ := List.mem_map.mp hhead
        exact hcovers b _ _ hcov
    · exact ih (verifyStep f c) ⟨m, htail, hcov⟩

/-! ## What the queue takes -/

theorem grows_of_enqueues {f g : Firmware} (h : Enqueues f g) :
    g.queue.init = f.queue.init ∧ f.queue.lenght ≤ g.queue.lenght := by
  refine h.preserves (P := fun q => q.init = f.queue.init ∧ f.queue.lenght ≤ q.lenght)
    (fun m q hq => ?_) ⟨rfl, Nat.le_refl _⟩
  by_cases hroom : q.Accepts
  · obtain ⟨slot, -, hnew⟩ := Queue.messageNew_accepts hroom m
    rw [hnew]
    exact ⟨hq.1, Nat.le_succ_of_le hq.2⟩
  · rw [(Queue.messageNew_refuses hroom m).2]
    exact hq

theorem verifyStep_enqueues (f : Firmware) (c : VerifyCall) : Enqueues f (verifyStep f c) :=
  .ite (.refl f) (recChangeVerify_enqueues c.now c.stack f)

theorem final_enqueues (f : Firmware) (cs : List VerifyCall) :
    Enqueues f (Run.final verifyStep f cs) :=
  Run.final_of_invariant (Enqueues f) (fun g c h => h.trans (verifyStep_enqueues g c)) (.refl f) cs

theorem recCreate_verifyStep (f : Firmware) (c : VerifyCall) :
    (verifyStep f c).recCreate = f.recCreate := by
  unfold verifyStep
  split
  · rfl
  rw [recChangeVerify_eq]
  split <;> rfl

theorem recCreate_final (f : Firmware) (cs : List VerifyCall) :
    (Run.final verifyStep f cs).recCreate = f.recCreate :=
  Run.final_of_invariant (fun g => g.recCreate = f.recCreate)
    (fun g c h => (recCreate_verifyStep g c).trans h) rfl cs

theorem accepted_verifyStep {f : Firmware} (hroom : f.queue.Accepts) (c : VerifyCall) :
    (verifyStep f c).queue.history.accepted = f.queue.history.accepted ++ stepMessages f c := by
  unfold verifyStep stepMessages
  by_cases hzero : f.regs.changeFlag = 0
  · rw [if_pos hzero, if_pos hzero, List.append_nil]
  rw [if_neg hzero, if_neg hzero]
  cases ht : f.tries c.now with
  | none => simp [recChangeVerify_eq, ht, Firmware.refresh]
  | some b => exact announces_iff.mpr ⟨ht, hroom⟩

/-- With room left at the end every message of the calls was accepted. -/
theorem accepted_final {f : Firmware} (hready : f.queue.init = true) {cs : List VerifyCall}
    (hroom : (Run.final verifyStep f cs).queue.lenght < 14) :
    (Run.final verifyStep f cs).queue.history.accepted =
      f.queue.history.accepted ++ runMessages f cs := by
  induction cs generalizing f with
  | nil => exact (List.append_nil _).symm
  | cons c cs ih =>
    have hfirst : f.queue.lenght < 14 :=
      Nat.lt_of_le_of_lt (grows_of_enqueues (final_enqueues f (c :: cs))).2 hroom
    have hnext := accepted_verifyStep ⟨hready, Nat.ne_of_lt hfirst⟩ c
    have hrest := ih ((grows_of_enqueues (verifyStep_enqueues f c)).1.trans hready) hroom
    rw [runMessages, ← List.append_assoc, ← hnext]
    exact hrest

theorem messageFlag_of_timestamp {now sent : RecCreateMessages}
    (h : now.timestamp ≠ sent.timestamp) : messageFlag now sent ≠ 0 := by
  intro hzero
  rw [messageFlag, if_pos h] at hzero
  have hbit := congrArg (fun v => v.getLsbD 3) hzero
  simp at hbit

/-- With room for two messages the status request goes out and, the Timestamp having
moved, so do the measured values. -/
theorem accepted_recCreateMessages {f : Firmware} (hready : f.queue.init = true)
    (hroom : f.queue.lenght + 2 ≤ 14)
    (hmoved : regReadInt timestamp f.regs ≠ f.recCreate.timestamp)
    (statusStack stack : I2cModbus) :
    ∃ g, (recCreateMessages statusStack stack f).queue.history.accepted =
      f.queue.history.accepted ++ [statusMessage statusStack, measuredMessage stack g] := by
  obtain ⟨first, -, hstatus⟩ :=
    Queue.messageNew_accepts ⟨hready, by omega⟩ (statusMessage statusStack)
  have hqueue : (recGetStatus statusStack f).queue = _ := congrArg Prod.snd hstatus
  have hnext : (recGetStatus statusStack f).queue.Accepts := by
    rw [hqueue]
    exact ⟨hready, show f.queue.lenght + 1 ≠ 14 by omega⟩
  have hflag : messageFlag (measured (recGetStatus statusStack f).regs)
      (recGetStatus statusStack f).recCreate ≠ 0 := messageFlag_of_timestamp hmoved
  let sent : Firmware :=
    { recGetStatus statusStack f with recCreate := measured (recGetStatus statusStack f).regs }
  obtain ⟨second, -, hmeasured⟩ := Queue.messageNew_accepts hnext (measuredMessage stack sent)
  refine ⟨sent, ?_⟩
  have hsend : (recCreateMessages statusStack stack f).queue =
      (messageNew (measuredMessage stack sent) (recGetStatus statusStack f).queue).2 :=
    congrArg Firmware.queue (if_neg hflag)
  rw [hsend, hmeasured, hqueue]
  exact List.append_assoc _ _ _

/-! ## Which changes are announced -/

namespace Firmware

/-- What the queue accepted from the write on has a message for the register: the
calls run until nothing is pending, then the registers are `moved` and
`rec_create_messages` runs. -/
def Reaches (w : RegWrite) (calls : List VerifyCall) (moved : Registers)
    (statusStack stack : I2cModbus) (f : Firmware) : Prop :=
  let g := Run.final verifyStep (f.write w) calls
  let h := recCreateMessages statusStack stack { g with regs := moved }
  ∃ m ∈ h.queue.history.accepted.drop f.queue.history.accepted.length, m.Covers w.addr

/-- With room in the queue the messages accepted are those of the calls, the status
request and the measured values. -/
theorem reaches_iff_covers {w : RegWrite} {f : Firmware} (hready : f.queue.init = true)
    {calls : List VerifyCall}
    (hroom : (Run.final verifyStep (f.write w) calls).queue.lenght + 2 ≤ 14) {moved : Registers}
    (hmoved : regReadInt timestamp moved ≠ f.recCreate.timestamp)
    (statusStack stack : I2cModbus) :
    f.Reaches w calls moved statusStack stack ↔
      (∃ m ∈ runMessages (f.write w) calls, m.Covers w.addr) ∨
        timestamp ≤ w.addr ∧ w.addr ≤ current := by
  have hlt : (Run.final verifyStep (f.write w) calls).queue.lenght < 14 := by omega
  have hcalls : (Run.final verifyStep (f.write w) calls).queue.history.accepted =
      f.queue.history.accepted ++ runMessages (f.write w) calls :=
    accepted_final (f := f.write w) hready hlt
  have hinit := (grows_of_enqueues (final_enqueues (f.write w) calls)).1.trans hready
  have hmoved' : regReadInt timestamp moved ≠
      (Run.final verifyStep (f.write w) calls).recCreate.timestamp := by
    rw [recCreate_final]
    exact hmoved
  obtain ⟨g, hcreate⟩ := accepted_recCreateMessages
    (f := { Run.final verifyStep (f.write w) calls with regs := moved }) hinit hroom hmoved'
    statusStack stack
  have hcode : (statusMessage statusStack).code ≠ Modbus.setMultNumReg := by
    simp [statusMessage]
  have hstatus : ¬ (statusMessage statusStack).Covers w.addr := fun h => hcode h.1
  simp only [Reaches, hcreate, hcalls, List.append_assoc, List.drop_left, List.mem_append,
    List.mem_cons, List.not_mem_nil, or_false, or_and_right, exists_or, exists_eq_left, hstatus,
    false_or, covers_measuredMessage]

/-- A change reaches the slaves exactly when the register is not `Errors` and is
either a measured one or not refreshed over while its bank is pending. -/
theorem reaches_iff {w : RegWrite} (hmap : w.bank.Maps w.addr) {f : Firmware}
    (hready : f.queue.init = true) (hchanges : w.changes f.regs = true) {calls : List VerifyCall}
    (hzero : (Run.final verifyStep (f.write w) calls).regs.changeFlag = 0)
    (hroom : (Run.final verifyStep (f.write w) calls).queue.lenght + 2 ≤ 14) {moved : Registers}
    (hmoved : regReadInt timestamp moved ≠ f.recCreate.timestamp)
    (statusStack stack : I2cModbus) :
    f.Reaches w calls moved statusStack stack ↔
      w.addr ≠ errors ∧ (w.bank = .int ∧ w.addr ≤ current ∨
        Run.Each verifyStep (Spares w.bank) (f.write w) calls) := by
  have hpend : (f.write w).regs.Pending w.bank :=
    (w.pending_run f.regs w.bank).mpr (Or.inr ⟨rfl, hchanges⟩)
  rw [reaches_iff_covers hready hroom hmoved statusStack stack]
  -- No bank's message covers the ints up to `Errors`; any other register has one.
  by_cases hlow : w.bank = .int ∧ w.addr ≤ errors
  · have hnone := not_covers_runMessages
      (fun c stack f h => ((covers_bankMessage hmap c stack f).mp h).2 hlow) (f.write w) calls
    have hmap' : timestamp ≤ w.addr := by
      rw [hlow.1] at hmap
      exact hmap.1
    have hedge : w.addr ≤ current ↔ w.addr ≠ errors := by
      have := hlow.2
      simp only [errors, current] at this ⊢
      omega
    simp only [hnone, false_or, hmap', true_and, hlow.1, hedge]
    exact ⟨fun h => ⟨h, Or.inl h⟩, fun h => h.1⟩
  · have hown := exists_covers_iff (fun c stack f => (covers_bankMessage hmap c stack f).trans
      (and_iff_left hlow)) hpend hzero
    have hrange : ¬ (timestamp ≤ w.addr ∧ w.addr ≤ errors) := fun h =>
      hlow ⟨hmap.eq_int h.1, h.2⟩
    have hmeasured : ¬ (timestamp ≤ w.addr ∧ w.addr ≤ current) := fun h =>
      hrange ⟨h.1, Nat.le_succ_of_le h.2⟩
    have hint : ¬ (w.bank = .int ∧ w.addr ≤ current) := fun h =>
      hlow ⟨h.1, Nat.le_succ_of_le h.2⟩
    have hne : w.addr ≠ errors := fun h => hrange (by rw [h]; decide)
    rw [hown, or_iff_left hmeasured, or_iff_right hint, and_iff_right hne]

/-- An error is written, announced at once with the ints, and the time moves on. -/
theorem errors_unreached :
    ¬ ∀ (w : RegWrite) (f : Firmware) (calls : List VerifyCall) (moved : Registers)
      (statusStack stack : I2cModbus), w.bank.Maps w.addr → f.queue.init = true →
      w.changes f.regs = true →
      (Run.final verifyStep (f.write w) calls).regs.changeFlag = 0 →
      (Run.final verifyStep (f.write w) calls).queue.lenght + 2 ≤ 14 →
      regReadInt timestamp moved ≠ f.recCreate.timestamp →
      f.Reaches w calls moved statusStack stack := by
  intro hall
  have hreach := hall (.int 1 errors) Watch.readyFirmware [⟨0, messageDefault⟩]
    (regWriteInt 1 timestamp bootFirmware.regs) messageDefault messageDefault (by decide)
    (by decide) (by decide) (by decide) (by decide) (by decide)
  unfold Reaches at hreach
  exact absurd hreach (by decide)

/-- The pump is written, announced at once, and the time moves on. -/
theorem reaches_pump : Watch.readyFirmware.Reaches (.bool true pump) [⟨0, messageDefault⟩]
    (regWriteInt 1 timestamp bootFirmware.regs) messageDefault messageDefault := by
  refine (reaches_iff (by decide) (by decide) (by decide) (by decide) (by decide) (by decide)
    _ _).mpr ⟨by decide, Or.inr ⟨fun _ x hx => ?_, trivial⟩⟩
  have hnone : Watch.readyFirmware.recChange.fires 0 = none := by decide
  exact nomatch hnone.symm.trans hx

end Firmware

end Recirculador
