/-
The accesses to the controller together with what they read.

`Appends b b' evs` says that the driver made the accesses `evs` between `b` and `b'`.
Each wait reads `STAT` until it shows what is waited for, and if it gives up it ends
the transfer with a `STOP`.
-/
import Recirculador.Bus.Reader

namespace Recirculador

/-- An access, and the status at that point. -/
abbrev BusEvent := BusAccess × Stat

def readEvent (s : Stat) : BusEvent := (.readStat, s)

namespace I2c

/-- The trace with what the controller shows at each access. -/
def events (b : I2c) : List BusEvent := b.trace.mapIdx fun n access => (access, b.stat n)

structure Appends (b b' : I2c) (evs : List BusEvent) : Prop where
  stat : b'.stat = b.stat
  events : b'.events = b.events ++ evs

theorem events_length (b : I2c) : b.events.length = b.trace.length := List.length_mapIdx

/-- What the driver did after `b`. -/
def eventsSince (b b' : I2c) : List BusEvent := b'.events.drop b.trace.length

namespace Appends

variable {b b₁ b₂ : I2c} {evs evs' : List BusEvent}

theorem refl (b : I2c) : Appends b b [] := ⟨rfl, (List.append_nil b.events).symm⟩

theorem trans (h : Appends b b₁ evs) (h' : Appends b₁ b₂ evs') : Appends b b₂ (evs ++ evs') :=
  ⟨h'.stat.trans h.stat, by rw [h'.events, h.events, List.append_assoc]⟩

theorem record (access : BusAccess) (b : I2c) :
    Appends b (b.record access) [(access, b.stat b.trace.length)] := by
  refine ⟨rfl, ?_⟩
  show (b.trace ++ [access]).mapIdx _ = _
  rw [List.mapIdx_append]
  simp [I2c.events, I2c.record]

theorem eventsSince (h : Appends b b₁ evs) : I2c.eventsSince b b₁ = evs := by
  rw [I2c.eventsSince, h.events, ← events_length, List.drop_left]

end Appends

/-! ## Waits -/

theorem poll_appends (test : Stat → Bool) (n : Nat) (b : I2c) :
    ∃ reads : List Stat, Appends b (b.poll test n).2 (reads.map readEvent) ∧
      ((b.poll test n).1 = true → ∃ l s, reads = l ++ [s] ∧ test s = true) := by
  induction n generalizing b with
  | zero => exact ⟨[], .refl b, fun h => nomatch h⟩
  | succ n ih =>
    have hread : Appends b b.readStat.2 [readEvent b.readStat.1] := .record .readStat b
    rw [poll]
    split
    · rename_i htest
      exact ⟨[b.readStat.1], hread, fun _ => ⟨[], b.readStat.1, rfl, htest⟩⟩
    · obtain ⟨reads, happends, hlast⟩ := ih b.readStat.2
      refine ⟨b.readStat.1 :: reads, hread.trans happends, fun h => ?_⟩
      obtain ⟨l, s, rfl, hs⟩ := hlast h
      exact ⟨b.readStat.1 :: l, s, rfl, hs⟩

/-- The reads of a wait that succeeds. -/
def Reached (state : BitVec 3) (reads : List Stat) : Prop :=
  ∃ l s l' s', reads = l ++ s :: (l' ++ [s']) ∧ s.pending = true ∧ s'.state = state

/-- What a wait does when it gives up, after its reads. -/
def gaveUp (s s' : Stat) : List BusEvent := [(.mstdat 0, s), (.mstctl .mstctlStop, s')]

theorem giveUp_appends (b : I2c) : ∃ s s', Appends b b.giveUp (gaveUp s s') := by
  have h := (Appends.record (.mstdat 0) b).trans (.record (.mstctl .mstctlStop) _)
  exact ⟨_, _, h.stat, h.events⟩

theorem waitI2cMasterState_appends (state : BitVec 3) (b : I2c) : ∃ reads : List Stat,
    ((b.waitI2cMasterState state).1 = .ok ∧ Reached state reads ∧
      Appends b (b.waitI2cMasterState state).2 (reads.map readEvent)) ∨
    ((b.waitI2cMasterState state).1 = .timeOut ∧ ∃ s s',
      Appends b (b.waitI2cMasterState state).2 (reads.map readEvent ++ gaveUp s s')) := by
  obtain ⟨reads, hpending, hpend⟩ := poll_appends (fun s => s.pending) (loopWaitReceive + 2) b
  obtain ⟨reads', hreached, hreach⟩ := poll_appends (fun s => s.state == state)
    (loopWaitReceive + 1) (b.poll (fun s => s.pending) (loopWaitReceive + 2)).2
  rw [waitI2cMasterState]
  split
  · obtain ⟨s, s', hup⟩ := giveUp_appends (b.poll (fun s => s.pending) (loopWaitReceive + 2)).2
    exact ⟨reads, Or.inr ⟨rfl, s, s', hpending.trans hup⟩⟩
  rename_i hp
  obtain ⟨l, s, rfl, hs⟩ := hpend ((Bool.not_eq_false _).mp hp)
  have hboth := hpending.trans hreached
  rw [← List.map_append] at hboth
  dsimp only
  split
  · obtain ⟨t, t', hup⟩ := giveUp_appends ((b.poll (fun s => s.pending)
      (loopWaitReceive + 2)).2.poll (fun s => s.state == state) (loopWaitReceive + 1)).2
    exact ⟨l ++ [s] ++ reads', Or.inr ⟨rfl, t, t', hboth.trans hup⟩⟩
  · rename_i hr
    obtain ⟨l', s', rfl, hs'⟩ := hreach ((Bool.not_eq_false _).mp hr)
    refine ⟨l ++ [s] ++ (l' ++ [s']), Or.inl ⟨rfl, ⟨l, s, l', s', ?_, hs, ?_⟩, hboth⟩⟩
    · rw [List.append_assoc, List.singleton_append]
    · exact beq_iff_eq.mp hs'

end I2c
end Recirculador
