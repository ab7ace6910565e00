/-
The periodic refresh of the slaves.

The flag of `_rec_change` is one bit on its way up: every ten seconds it moves over the place
of the next bank, whose registers are then announced whether they changed or not.  What a
slave missed it is told again, bank by bank, in turn.
-/
import Recirculador.Change.Pending

namespace Recirculador

open SysRegMap Registers

/-! ## The turns of the flag -/

/-- The bank that was forced last, as the flag remembers it between two calls. -/
def Bank.restFlag : Bank → BitVec 8
  | .bool => 0b100
  | .short => 0b10000
  | .int => 0b1

/-- The bank whose turn it is next. -/
def Bank.next : Bank → Bank
  | .bool => .short
  | .short => .int
  | .int => .bool

namespace RecChange

/-- Ten seconds have passed since a bank was forced. -/
def Due (now : BitVec 64) (v : RecChange) : Prop := now - v.lastUpdate > 10000

variable {now : BitVec 64} {v : RecChange} {b : Bank}

theorem fires_of_due (hflag : v.flag = b.restFlag) (hdue : v.Due now) :
    v.fires now = some b.next := by
  have hlate : now - v.lastUpdate > 10000 := hdue
  simp only [fires, if_pos hlate, hflag]
  cases b <;> rfl

theorem recChange_of_due (hflag : v.flag = b.restFlag) (hdue : v.Due now) (r : Registers) :
    (recChange now v r).1.flag = b.next.restFlag ∧ (recChange now v r).1.lastUpdate = now := by
  have hlate : now - v.lastUpdate > 10000 := hdue
  simp only [recChange, if_pos hlate, hflag]
  cases b
  · exact ⟨rfl, rfl⟩
  · exact ⟨rfl, rfl⟩
  · exact ⟨rfl, rfl⟩

theorem recChange_of_not_due (hflag : v.flag = b.restFlag) (hdue : ¬ v.Due now)
    (r : Registers) :
    (recChange now v r).1.flag = b.restFlag ∧
      (recChange now v r).1.lastUpdate = v.lastUpdate := by
  have hlate : ¬ now - v.lastUpdate > 10000 := hdue
  simp only [recChange, if_neg hlate, hflag]
  cases b
  · exact ⟨rfl, rfl⟩
  · exact ⟨rfl, rfl⟩
  · exact ⟨rfl, rfl⟩

end RecChange

/-! ## Runs -/

/-- The firmware, the time, when the task was last called and when each bank was last
announced. -/
structure Beat where
  firmware : Firmware
  now : Nat
  called : Nat
  announced : Bank → Nat

/-- What happens to them.  Time passes between the calls as well. -/
inductive BeatAction
  | pass (ms : Nat)
  | write (w : RegWrite)
  | verify (stack : I2cModbus)
  | queue (q : Queue)

namespace Beat

/-- The clock starts at 0 and so does the account of the calls and announcements. -/
def start (f : Firmware) : Beat where
  firmware := { f with recChange := recChangeVar }
  now := 0
  called := 0
  announced := fun _ => 0

/-- The clock as `_rec_change` reads it. -/
def clock (s : Beat) : BitVec 64 := BitVec.ofNat 64 s.now

def step (s : Beat) : BeatAction → Beat
  | .pass ms => { s with now := s.now + ms }
  | .write w => { s with firmware := s.firmware.write w }
  | .verify stack =>
    { firmware := recChangeVerify s.clock stack s.firmware
      now := s.now
      called := s.now
      announced := fun b =>
        if s.firmware.Announces s.clock stack b then s.now else s.announced b }
  | .queue q => { s with firmware := { s.firmware with queue := q } }

/-- No more than `gap` milliseconds pass after a call without another, none of them past the
64 bits of the clock, and a call finds room in the queue if a bank is due. -/
def OnTime (gap : Nat) (s : Beat) : BeatAction → Prop
  | .pass ms => s.now + ms ≤ s.called + gap ∧ s.now + ms < 0x10000000000000000
  | .verify _ => s.firmware.recChange.Due s.clock → s.firmware.queue.Accepts
  | _ => True

/-- At the last call the bank forced last was announced at its time, and the others in the two
periods before. -/
structure InTurn (gap : Nat) (s : Beat) (b : Bank) : Prop where
  flag : s.firmware.recChange.flag = b.restFlag
  since : s.called ≤ s.now
  soon : s.now ≤ s.called + gap
  fits : s.now < 0x10000000000000000
  past : s.firmware.recChange.lastUpdate.toNat ≤ s.called
  recent : s.called ≤ s.firmware.recChange.lastUpdate.toNat + 10000
  last : s.firmware.recChange.lastUpdate.toNat ≤ s.announced b
  before : s.firmware.recChange.lastUpdate.toNat ≤ s.announced b.next.next + (10000 + gap)
  first : s.firmware.recChange.lastUpdate.toNat ≤ s.announced b.next + 2 * (10000 + gap)

variable {gap : Nat} {s : Beat} {b : Bank}

theorem step_recChange (stack : I2cModbus) :
    (s.step (.verify stack)).firmware.recChange =
      (recChange s.clock s.firmware.recChange s.firmware.regs).1 := by
  show (recChangeVerify s.clock stack s.firmware).recChange = _
  rw [recChangeVerify_eq]
  split
  · rfl
  · rfl

theorem InTurn.toNat_clock (h : s.InTurn gap b) : s.clock.toNat = s.now := by
  rw [clock, BitVec.toNat_ofNat]
  exact Nat.mod_eq_of_lt h.fits

theorem InTurn.due_iff (h : s.InTurn gap b) :
    s.firmware.recChange.Due s.clock ↔
      s.firmware.recChange.lastUpdate.toNat + 10000 < s.now := by
  have hclock := h.toNat_clock
  have hpast := Nat.le_trans h.past h.since
  have hsub : (s.clock - s.firmware.recChange.lastUpdate).toNat =
      s.now - s.firmware.recChange.lastUpdate.toNat := by
    rw [← hclock, BitVec.toNat_sub_of_le]
    exact BitVec.le_def.mpr (by rw [hclock]; exact hpast)
  have hten : (10000 : BitVec 64).toNat = 10000 := rfl
  rw [RecChange.Due, gt_iff_lt, BitVec.lt_def, hsub, hten]
  omega

/-- A call that is not due leaves the turns alone and may announce any bank. -/
theorem InTurn.verify_not_due (h : s.InTurn gap b) {stack : I2cModbus}
    (hdue : ¬ s.firmware.recChange.Due s.clock) : (s.step (.verify stack)).InTurn gap b := by
  have hkeep := RecChange.recChange_of_not_due h.flag hdue s.firmware.regs
  have hnear := mt h.due_iff.mpr hdue
  have hpast := Nat.le_trans h.past h.since
  have hlater : ∀ c n, s.firmware.recChange.lastUpdate.toNat ≤ s.announced c + n →
      s.firmware.recChange.lastUpdate.toNat ≤ (s.step (.verify stack)).announced c + n := by
    intro c n hc
    show _ ≤ (if _ then _ else _) + n
    split
    · omega
    · exact hc
  constructor
  · rw [step_recChange, hkeep.1]
  · exact Nat.le_refl _
  · exact Nat.le_add_right _ gap
  · exact h.fits
  · rw [step_recChange, hkeep.2]
    exact hpast
  · rw [step_recChange, hkeep.2]
    exact Nat.le_of_not_lt hnear
  · rw [step_recChange, hkeep.2]
    exact hlater b 0 h.last
  · rw [step_recChange, hkeep.2]
    exact hlater b.next.next _ h.before
  · rw [step_recChange, hkeep.2]
    exact hlater b.next _ h.first

/-- The bank whose turn it is is announced and becomes the one forced last. -/
theorem InTurn.verify_due (h : s.InTurn gap b) {stack : I2cModbus}
    (hok : s.OnTime gap (.verify stack)) (hdue : s.firmware.recChange.Due s.clock) :
    (s.step (.verify stack)).InTurn gap b.next := by
  have hnext := RecChange.recChange_of_due h.flag hdue s.firmware.regs
  have hclock := h.toNat_clock
  have htries : s.firmware.tries s.clock = some b.next := by
    rw [Firmware.tries, RecChange.fires_of_due h.flag hdue]
  have hann : ∀ c, s.firmware.Announces s.clock stack c ↔ c = b.next := by
    intro c
    rw [announces_iff, htries]
    exact ⟨fun hc => (Option.some.inj hc.1).symm, fun hc => ⟨congrArg some hc.symm, hok hdue⟩⟩
  have hthis : (s.step (.verify stack)).announced b.next = s.now :=
    if_pos ((hann b.next).mpr rfl)
  have hkept : ∀ c, c ≠ b.next → (s.step (.verify stack)).announced c = s.announced c :=
    fun c hc => if_neg fun hc' => hc ((hann c).mp hc')
  have hsoon := h.soon
  have hrecent := h.recent
  constructor
  · rw [step_recChange, hnext.1]
  · exact Nat.le_refl _
  · exact Nat.le_add_right _ gap
  · exact h.fits
  · exact Nat.le_of_eq (by rw [step_recChange, hnext.2, hclock]; rfl)
  · rw [step_recChange, hnext.2, hclock]
    exact Nat.le_add_right _ _
  · exact Nat.le_of_eq (by rw [step_recChange, hnext.2, hthis, hclock])
  · -- Two turns on from the next bank is the bank forced before this call.
    have hsame : b.next.next.next = b := by cases b <;> rfl
    have hlast := h.last
    rw [step_recChange, hnext.2, hclock, hsame, hkept b (by cases b <;> decide)]
    omega
  · have hbefore := h.before
    rw [step_recChange, hnext.2, hclock, hkept b.next.next (by cases b <;> decide)]
    omega

theorem InTurn.step (h : s.InTurn gap b) {a : BeatAction} (hok : s.OnTime gap a) :
    ∃ b', (s.step a).InTurn gap b' := by
  cases a with
  | pass ms =>
    obtain ⟨hsoon, hfits⟩ := hok
    exact ⟨b, h.flag, Nat.le_trans h.since (Nat.le_add_right _ ms), hsoon, hfits, h.past, h.recent,
      h.last, h.before, h.first⟩
  | write w =>
    exact ⟨b, h.flag, h.since, h.soon, h.fits, h.past, h.recent, h.last, h.before, h.first⟩
  | queue q =>
    exact ⟨b, h.flag, h.since, h.soon, h.fits, h.past, h.recent, h.last, h.before, h.first⟩
  | verify stack =>
    by_cases hdue : s.firmware.recChange.Due s.clock
    · exact ⟨b.next, h.verify_due hok hdue⟩
    · exact ⟨b, h.verify_not_due hdue⟩

theorem start_inTurn (gap : Nat) (f : Firmware) : (start f).InTurn gap .int where
  flag := rfl
  since := Nat.le_refl _
  soon := Nat.zero_le _
  fits := show 0 < 0x10000000000000000 by decide
  past := Nat.le_refl _
  recent := Nat.zero_le _
  last := Nat.le_refl _
  before := Nat.zero_le _
  first := Nat.zero_le _

/-- The last call was a gap ago at most, the bank forced last ten seconds before that, and
every bank two periods before. -/
theorem InTurn.announced_ge (h : s.InTurn gap b) (c : Bank) :
    s.now ≤ s.announced c + (30000 + 3 * gap) := by
  have hsoon := h.soon
  have hrecent := h.recent
  have hlast := h.last
  have hbefore := h.before
  have hfirst := h.first
  have hturn : c = b ∨ c = b.next ∨ c = b.next.next := by
    cases b <;> cases c <;> decide
  rcases hturn with rfl | rfl | rfl <;> omega

/-- In a run of writes, calls, queue traffic and time passing where the calls come on time and
a bank that is due finds room, no bank has at any time gone unannounced for more than thirty
seconds and three times the time between two calls. -/
theorem run_refreshes (gap : Nat) (f : Firmware) {as : List BeatAction}
    (hok : Run.Each step (OnTime gap) (start f) as) :
    Run.Always step (fun s => ∀ b, s.now ≤ s.announced b + (30000 + 3 * gap)) (start f) as := by
  have hturns : Run.Always step (fun s => ∃ b, s.InTurn gap b) (start f) as :=
    Run.Always.of_step (fun s a h hok => h.elim fun b hb => hb.step hok)
      ⟨.int, start_inTurn gap f⟩ hok
  refine hturns.mono fun s h c => ?_
  obtain ⟨b, hb⟩ := h
  exact hb.announced_ge c

/-- Ten seconds from call to call: only every second call finds that more than ten have
passed, so the bools of the second are not announced again before the eighth. -/
def lateCalls : List BeatAction :=
  [.pass 10000, .verify messageDefault, .pass 10000, .verify messageDefault, .pass 10000,
    .verify messageDefault, .pass 10000, .verify messageDefault, .pass 9999]

theorem run_refreshes_lateCalls :
    Run.Always step (fun s => ∀ b, s.now ≤ s.announced b + (30000 + 3 * 10000))
      (start Watch.readyFirmware) lateCalls :=
  run_refreshes 10000 Watch.readyFirmware
    ⟨⟨by decide, by decide⟩, fun _ => by decide, ⟨by decide, by decide⟩, fun _ => by decide,
      ⟨by decide, by decide⟩, fun _ => by decide, ⟨by decide, by decide⟩, fun _ => by decide,
      ⟨by decide, by decide⟩, trivial⟩

end Beat

end Recirculador
