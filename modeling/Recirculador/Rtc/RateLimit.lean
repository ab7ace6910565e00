/-
The rate limit of `RTC_loop`.

A pass compares the time since the last resynchronisation with the limit.  The time
of the last one is kept in 32 bits and the clock has 64.  Once the clock is past
32 bits the difference is never below a limit of 32 bits, so every pass resynchronises.
-/
import Recirculador.Rtc.Epoch

namespace Recirculador
namespace Rtc

/-- A resynchronisation made by `RTC_loop`: the time of the pass, and the time noted
at its end. -/
structure Resynced where
  started : Nat
  ended : Nat

/-- The state of the task with its resynchronisations, the last one first, and the
last time read. -/
structure Uptime where
  var : RtcVar
  firmware : Firmware
  clock : Nat
  resyncs : List Resynced

namespace Uptime

/-- `RTC_begin` at the start of the clock. -/
def begin (chip : ChipRead) (v : RtcVar) (f : Firmware) : Uptime where
  var := (rtcBegin chip v f).1
  firmware := (rtcBegin chip v f).2
  clock := 0
  resyncs := []

/-- One pass.  A resynchronisation shows on the bus: it is the only thing the task
does there. -/
def pass (s : Uptime) (call : RtcCall) : Uptime :=
  let next := rtcLoop call s.var s.firmware
  if next.2.bus.length = s.firmware.bus.length then
    { var := next.1, firmware := next.2, clock := call.now.toNat, resyncs := s.resyncs }
  else
    { var := next.1
      firmware := next.2
      clock := call.later.toNat
      resyncs := ⟨call.now.toNat, call.later.toNat⟩ :: s.resyncs }

def limit (s : Uptime) : Nat := s.var.timeResynchronization.toNat

/-- Any two resynchronisations are as far apart as they should be. -/
def Limited (s : Uptime) : Prop :=
  s.resyncs.Pairwise fun b a => a.started + s.limit ≤ b.started

/-- The clock never runs backwards. -/
def Monotone (s : Uptime) (call : RtcCall) : Prop :=
  s.clock ≤ call.now.toNat ∧ call.now.toNat ≤ call.later.toNat

/-- The pass comes late enough, or the end of the last resynchronisation was noted
in full. -/
def Noted (s : Uptime) (call : RtcCall) : Prop :=
  ∀ r ∈ s.resyncs.head?, r.ended < 0x100000000 ∨ r.started + s.limit ≤ call.now.toNat

instance (s : Uptime) : Decidable s.Limited := inferInstanceAs (Decidable (List.Pairwise _ _))
instance (s : Uptime) (call : RtcCall) : Decidable (s.Monotone call) :=
  inferInstanceAs (Decidable (_ ∧ _))
instance (s : Uptime) (call : RtcCall) : Decidable (s.Noted call) :=
  inferInstanceAs (Decidable (∀ r ∈ s.resyncs.head?, _ ∨ _))

/-! ## One pass -/

/-- Less than the limit has passed since the time noted. -/
def Early (s : Uptime) (call : RtcCall) : Prop :=
  call.now - s.var.lastTimeResynchronization.setWidth 64 < s.var.timeResynchronization.setWidth 64

instance (s : Uptime) (call : RtcCall) : Decidable (s.Early call) :=
  inferInstanceAs (Decidable (_ < _))

theorem resync_calls_length (resync : Resync) : 0 < resync.calls.length := by
  rw [Resync.calls, List.length_append, List.length_cons]
  omega

theorem pass_early {s : Uptime} {call : RtcCall} (hbegin : s.var.flagBegin = true)
    (h : s.Early call) : s.pass call = { s with clock := call.now.toNat } := by
  have hflag : ¬ s.var.flagBegin = false := by rw [hbegin]; decide
  have hloop : rtcLoop call s.var s.firmware = (s.var, s.firmware) := by
    rw [rtcLoop, if_neg hflag]
    exact if_pos h
  rw [pass, hloop]
  exact if_pos rfl

theorem pass_late {s : Uptime} {call : RtcCall} (hbegin : s.var.flagBegin = true)
    (h : ¬ s.Early call) :
    (s.pass call).var =
        { s.var with lastTimeResynchronization := call.later.setWidth 32 } ∧
      (s.pass call).clock = call.later.toNat ∧
      (s.pass call).resyncs = ⟨call.now.toNat, call.later.toNat⟩ :: s.resyncs := by
  have hflag : ¬ s.var.flagBegin = false := by rw [hbegin]; decide
  obtain ⟨f, hbus, hloop⟩ : ∃ f : Firmware, f.bus.length ≠ s.firmware.bus.length ∧
      rtcLoop call s.var s.firmware =
        ({ s.var with lastTimeResynchronization := call.later.setWidth 32 }, f) := by
    rw [rtcLoop, if_neg hflag]
    refine ⟨_, ?_, if_neg h⟩
    have hcalls := resync_calls_length (rtcResynchronization call.behind call.stack call.received
      (s.firmware.regs.intRegVet 0))
    simp only [List.length_append]
    omega
  rw [pass, hloop]
  dsimp only
  rw [if_neg hbus]
  exact ⟨rfl, rfl, rfl⟩

/-- Of the end of a resynchronisation only the low 32 bits are known. -/
theorem early_iff {s : Uptime} {call : RtcCall} {ended : Nat}
    (hlast : s.var.lastTimeResynchronization = BitVec.ofNat 32 ended)
    (hended : ended ≤ call.now.toNat) :
    s.Early call ↔ call.now.toNat - ended % 0x100000000 < s.limit := by
  have hword : ((BitVec.ofNat 32 ended).setWidth 64).toNat = ended % 0x100000000 := by
    rw [BitVec.toNat_setWidth_of_le (by decide), BitVec.toNat_ofNat]
  have hle : (BitVec.ofNat 32 ended).setWidth 64 ≤ call.now := by
    rw [BitVec.le_def, hword]
    omega
  rw [Early, hlast, BitVec.lt_def, BitVec.toNat_sub_of_le hle, hword,
    BitVec.toNat_setWidth_of_le (by decide), limit]

/-! ## Runs -/

/-- What a run keeps: the note is the end of the last resynchronisation, as far as it
fits. -/
structure Inv (s : Uptime) : Prop where
  begun : s.var.flagBegin = true
  limited : s.Limited
  ordered : ∀ r ∈ s.resyncs.head?, r.started ≤ r.ended ∧ r.ended ≤ s.clock
  noted : ∀ r ∈ s.resyncs.head?, s.var.lastTimeResynchronization = BitVec.ofNat 32 r.ended

theorem inv_begin (chip : ChipRead) (v : RtcVar) (f : Firmware) : Inv (begin chip v f) where
  begun := rfl
  limited := List.Pairwise.nil
  ordered := fun _ h => nomatch h
  noted := fun _ h => nomatch h

/-- A pass that comes late enough adds a resynchronisation far enough from all. -/
theorem limited_cons {s : Uptime} {call : RtcCall} (hinv : Inv s)
    (hlate : ∀ r ∈ s.resyncs.head?, r.started + s.limit ≤ call.now.toNat) :
    (⟨call.now.toNat, call.later.toNat⟩ :: s.resyncs).Pairwise
      fun b a : Resynced => a.started + s.limit ≤ b.started := by
  rw [List.pairwise_cons]
  refine ⟨?_, hinv.limited⟩
  intro r hr
  have hlimited := hinv.limited
  rw [Limited] at hlimited
  cases hlist : s.resyncs with
  | nil =>
    rw [hlist] at hr
    cases hr
  | cons last rest =>
    rw [hlist] at hr hlate hlimited
    have hlast := hlate last rfl
    rcases List.mem_cons.mp hr with rfl | hrest
    · exact hlast
    · have hbefore := (List.pairwise_cons.mp hlimited).1 r hrest
      show r.started + s.limit ≤ call.now.toNat
      omega

/-- A noted end that fits makes the pass wait for the limit. -/
theorem late_of_noted {s : Uptime} {call : RtcCall} (hinv : Inv s) (hmono : s.Monotone call)
    (hnoted : s.Noted call) (hlate : ¬ s.Early call) :
    ∀ r ∈ s.resyncs.head?, r.started + s.limit ≤ call.now.toNat := by
  intro r hr
  have hordered := hinv.ordered r hr
  have hclock := hmono.1
  rw [early_iff (hinv.noted r hr) (by omega)] at hlate
  rcases hnoted r hr with hfits | hfar
  · rw [Nat.mod_eq_of_lt hfits] at hlate
    omega
  · exact hfar

theorem inv_pass {s : Uptime} {call : RtcCall} (hinv : Inv s) (hmono : s.Monotone call)
    (hnoted : s.Noted call) : Inv (s.pass call) := by
  by_cases hearly : s.Early call
  · rw [pass_early hinv.begun hearly]
    refine ⟨hinv.begun, hinv.limited, ?_, hinv.noted⟩
    intro r hr
    exact ⟨(hinv.ordered r hr).1, Nat.le_trans (hinv.ordered r hr).2 hmono.1⟩
  · have hfar := limited_cons hinv (late_of_noted hinv hmono hnoted hearly)
    obtain ⟨hvar, hclock, hresyncs⟩ := pass_late hinv.begun hearly
    constructor
    · rw [hvar]
      exact hinv.begun
    · rw [Limited, limit, hresyncs, hvar]
      exact hfar
    · rw [hresyncs, hclock]
      intro r hr
      cases hr
      exact ⟨hmono.2, Nat.le_refl _⟩
    · rw [hresyncs, hvar]
      intro r hr
      cases hr
      exact (BitVec.ofNat_toNat 32 call.later).symm

/-- A pass too soon after an end noted in part resynchronises all the same. -/
theorem not_limited_pass {s : Uptime} {call : RtcCall} (hinv : Inv s) (hmono : s.Monotone call)
    (hnoted : ¬ s.Noted call) : ¬ (s.pass call).Limited := by
  simp only [Noted, Classical.not_forall] at hnoted
  obtain ⟨r, hr, hpast⟩ := hnoted
  have hordered := hinv.ordered r hr
  have hclock := hmono.1
  have hword : s.limit < 0x100000000 := s.var.timeResynchronization.isLt
  have hlate : ¬ s.Early call := by
    rw [early_iff (hinv.noted r hr) (by omega)]
    omega
  obtain ⟨hvar, -, hresyncs⟩ := pass_late hinv.begun hlate
  rw [Limited, limit, hresyncs, hvar]
  intro hlimited
  have hfar := (List.pairwise_cons.mp hlimited).1 r (List.mem_of_mem_head? hr)
  exact hpast (Or.inr hfar)

/-- Resynchronisations keep their distance in a run exactly if each pass comes late
enough, or finds an end that was noted in full. -/
theorem limited_iff (chip : ChipRead) (v : RtcVar) (f : Firmware) {calls : List RtcCall}
    (hmono : Run.Each pass Monotone (begin chip v f) calls) :
    Run.Always pass Limited (begin chip v f) calls ↔
      Run.Each pass Noted (begin chip v f) calls :=
  Run.always_iff_each_of Inv Monotone Noted (fun _ h => h.limited)
    (fun _ _ hinv hm hn => inv_pass hinv hm hn)
    (fun _ _ hinv hm hn => not_limited_pass hinv hm hn) (inv_begin chip v f) hmono

/-- A pass in which the chip answers with zeros and the clock stands still. -/
def passAt (now : BitVec 64) : RtcCall where
  now := now
  later := now
  received := []
  stack := blankRtc
  behind := fun _ => 0

/-- Two passes a minute apart, past 32 bits of milliseconds. -/
theorem run_unlimited :
    Run.Each pass Monotone (begin blankChip ⟨false, 0, 3600000⟩ bootFirmware)
        [passAt 0x100000000, passAt 0x10000EA60] ∧
      ¬ Run.Always pass Limited (begin blankChip ⟨false, 0, 3600000⟩ bootFirmware)
        [passAt 0x100000000, passAt 0x10000EA60] := by
  refine ⟨⟨by decide +kernel, by decide +kernel, trivial⟩, fun h => ?_⟩
  exact absurd h.last (by decide +kernel)

/-- The same two passes in the first two hours. -/
theorem run_limited :
    Run.Always pass Limited (begin blankChip ⟨false, 0, 3600000⟩ bootFirmware)
      [passAt 3600000, passAt 3660000] := by
  have hmono : Run.Each pass Monotone (begin blankChip ⟨false, 0, 3600000⟩ bootFirmware)
      [passAt 3600000, passAt 3660000] := ⟨by decide +kernel, by decide +kernel, trivial⟩
  exact (limited_iff blankChip ⟨false, 0, 3600000⟩ bootFirmware hmono).mpr
    ⟨by decide +kernel, by decide +kernel, trivial⟩

end Uptime
end Rtc
end Recirculador
