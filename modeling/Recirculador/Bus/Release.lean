/-
The bus is always released.

After the `START` of a transfer every way out leads through a `STOP`: a wait that
gives up writes it itself, and a transfer that gets to its end writes it there.
`Quiet` is the specification of a part of a transfer, `Stopped` that of its rest.
-/
import Recirculador.Bus.Endless
import Recirculador.Bus.Events
import Recirculador.Bus.Frame

namespace Recirculador
namespace I2c

/-- Each `START` is followed by a `STOP`. -/
def Released : List BusAccess → Prop
  | [] => True
  | access :: rest =>
    (access = .mstctl .mstctlStart → .mstctl .mstctlStop ∈ rest) ∧ Released rest

/-- The accesses made after `b`. -/
def accessesSince (b b' : I2c) : List BusAccess := (eventsSince b b').map Prod.fst

def NoStart (evs : List BusEvent) : Prop := ∀ ev ∈ evs, ev.1 ≠ .mstctl .mstctlStart

def HasStop (evs : List BusEvent) : Prop := ∃ ev ∈ evs, ev.1 = .mstctl .mstctlStop

theorem NoStart.append {evs evs' : List BusEvent} (h : NoStart evs) (h' : NoStart evs') :
    NoStart (evs ++ evs') :=
  List.forall_mem_append.mpr ⟨h, h'⟩

theorem HasStop.append_left {evs : List BusEvent} (h : HasStop evs) (evs' : List BusEvent) :
    HasStop (evs ++ evs') := by
  obtain ⟨ev, hmem, hstop⟩ := h
  exact ⟨ev, List.mem_append_left evs' hmem, hstop⟩

theorem HasStop.append_right {evs' : List BusEvent} (h : HasStop evs') (evs : List BusEvent) :
    HasStop (evs ++ evs') := by
  obtain ⟨ev, hmem, hstop⟩ := h
  exact ⟨ev, List.mem_append_right evs hmem, hstop⟩

theorem noStart_reads (reads : List Stat) : NoStart (reads.map readEvent) := by
  intro ev hev
  obtain ⟨s, -, rfl⟩ := List.mem_map.mp hev
  exact fun h => nomatch h

theorem noStart_gaveUp (s s' : Stat) : NoStart (gaveUp s s') := by
  intro ev hev
  rcases List.mem_cons.mp hev with rfl | hev
  · exact fun h => nomatch h
  · rw [List.mem_singleton.mp hev]
    exact fun h => nomatch h

theorem released_of_noStart {evs : List BusEvent} (h : NoStart evs) :
    Released (evs.map Prod.fst) := by
  induction evs with
  | nil => exact trivial
  | cons ev evs ih =>
    rw [NoStart, List.forall_mem_cons] at h
    exact ⟨fun hstart => absurd hstart h.1, ih h.2⟩

theorem released_append {evs evs' : List BusEvent} (h : NoStart evs)
    (h' : Released (evs'.map Prod.fst)) : Released ((evs ++ evs').map Prod.fst) := by
  induction evs with
  | nil => exact h'
  | cons ev evs ih =>
    rw [NoStart, List.forall_mem_cons] at h
    exact ⟨fun hstart => absurd hstart h.1, ih h.2⟩

/-! ## Parts of a transfer -/

/-- A part starts no transfer, and ends it unless its status is `i2cStat_OK`. -/
def Quiet (b b' : I2c) (status : I2cStat) : Prop :=
  ∃ evs, Appends b b' evs ∧ NoStart evs ∧ (status ≠ .ok → HasStop evs)

/-- The rest of a transfer starts no other one and ends this one. -/
def Stopped (b b' : I2c) : Prop := ∃ evs, Appends b b' evs ∧ NoStart evs ∧ HasStop evs

variable {b b₁ b₂ : I2c} {status : I2cStat}

theorem Quiet.refl (b : I2c) : Quiet b b .ok :=
  ⟨[], .refl b, fun _ h => (nomatch h), fun h => absurd rfl h⟩

theorem Quiet.ok (h : Quiet b b₁ status) : Quiet b b₁ .ok := by
  obtain ⟨evs, hevs, hstart, -⟩ := h
  exact ⟨evs, hevs, hstart, fun h => absurd rfl h⟩

theorem Quiet.stopped (h : Quiet b b₁ status) (hfail : status ≠ .ok) : Stopped b b₁ := by
  obtain ⟨evs, hevs, hstart, hstop⟩ := h
  exact ⟨evs, hevs, hstart, hstop hfail⟩

theorem Quiet.trans (h : Quiet b b₁ .ok) (h' : Quiet b₁ b₂ status) : Quiet b b₂ status := by
  obtain ⟨evs, hevs, hstart, -⟩ := h
  obtain ⟨evs', hevs', hstart', hstop'⟩ := h'
  exact ⟨_, hevs.trans hevs', hstart.append hstart', fun hfail => (hstop' hfail).append_right evs⟩

theorem Quiet.trans_stopped (h : Quiet b b₁ .ok) (h' : Stopped b₁ b₂) : Stopped b b₂ := by
  obtain ⟨evs, hevs, hstart, -⟩ := h
  obtain ⟨evs', hevs', hstart', hstop'⟩ := h'
  exact ⟨_, hevs.trans hevs', hstart.append hstart', hstop'.append_right evs⟩

theorem Stopped.trans_quiet (h : Stopped b b₁) (h' : Quiet b₁ b₂ status) : Stopped b b₂ := by
  obtain ⟨evs, hevs, hstart, hstop⟩ := h
  obtain ⟨evs', hevs', hstart', -⟩ := h'
  exact ⟨_, hevs.trans hevs', hstart.append hstart', hstop.append_left evs'⟩

theorem quiet_record {access : BusAccess} (h : access ≠ .mstctl .mstctlStart) (b : I2c) :
    Quiet b (b.record access) .ok := by
  refine ⟨_, .record access b, ?_, fun h => absurd rfl h⟩
  intro ev hev
  rw [List.mem_singleton.mp hev]
  exact h

theorem stopped_writeMstctl (b : I2c) : Stopped b (b.writeMstctl .mstctlStop) := by
  refine ⟨_, .record (.mstctl .mstctlStop) b, ?_, ⟨_, List.mem_singleton_self _, rfl⟩⟩
  intro ev hev
  rw [List.mem_singleton.mp hev]
  exact fun h => nomatch h

/-- A byte sent. -/
theorem quiet_continue (value : BitVec 32) (b : I2c) :
    Quiet b ((b.writeMstdat value).writeMstctl .mstctlContinue) .ok := by
  have hword : Quiet b (b.writeMstdat value) .ok := quiet_record (by simp) b
  exact hword.trans (quiet_record (by decide) _)

/-- A byte taken. -/
theorem quiet_take (b : I2c) : Quiet b (b.readMstdat.2.writeMstctl .mstctlContinue) .ok := by
  have hread : Quiet b b.readMstdat.2 .ok := quiet_record (by simp) b
  exact hread.trans (quiet_record (by decide) _)

/-- Counting a wait that gave up is no access. -/
theorem Stopped.counted (h : Stopped b b₁) (timeOuts : Nat) :
    Stopped b { b₁ with timeOuts := timeOuts } := by
  obtain ⟨evs, hevs, hstart, hstop⟩ := h
  exact ⟨evs, ⟨hevs.stat, hevs.events⟩, hstart, hstop⟩

/-- The early returns of the transfer functions. -/
theorem Quiet.ifOk {r : I2cStat × I2c} {k : I2c → I2cStat × I2c} (h : Quiet b r.2 r.1)
    (hk : ∀ b, Quiet b (k b).2 (k b).1) : Quiet b (I2c.ifOk r k).2 (I2c.ifOk r k).1 := by
  rw [I2c.ifOk]
  by_cases hok : r.1 = .ok
  · rw [if_pos hok]
    exact h.ok.trans (hk r.2)
  · rw [if_neg hok]
    exact h

theorem Stopped.ifOk {r : I2cStat × I2c} {k : I2c → I2cStat × I2c} (h : Quiet b r.2 r.1)
    (hk : ∀ b, Stopped b (k b).2) : Stopped b (I2c.ifOk r k).2 := by
  rw [I2c.ifOk]
  by_cases hok : r.1 = .ok
  · rw [if_pos hok]
    exact h.ok.trans_stopped (hk r.2)
  · rw [if_neg hok]
    exact h.stopped hok

/-! ## Waits and loops -/

theorem poll_quiet (test : Stat → Bool) (n : Nat) (b : I2c) : Quiet b (b.poll test n).2 .ok := by
  obtain ⟨reads, hreads, -⟩ := poll_appends test n b
  exact ⟨_, hreads, noStart_reads reads, fun h => absurd rfl h⟩

theorem giveUp_stopped (b : I2c) : Stopped b b.giveUp := by
  obtain ⟨s, s', hup⟩ := giveUp_appends b
  exact ⟨_, hup, noStart_gaveUp s s', (.mstctl .mstctlStop, s'),
    List.mem_cons_of_mem _ (List.mem_singleton_self _), rfl⟩

theorem waitI2cMasterState_quiet (state : BitVec 3) (b : I2c) :
    Quiet b (b.waitI2cMasterState state).2 (b.waitI2cMasterState state).1 := by
  obtain ⟨reads, hwait | hwait⟩ := waitI2cMasterState_appends state b
  · obtain ⟨hok, -, hreads⟩ := hwait
    exact ⟨_, hreads, noStart_reads reads, fun h => absurd hok h⟩
  · obtain ⟨-, s, s', hevs⟩ := hwait
    refine ⟨_, hevs, (noStart_reads reads).append (noStart_gaveUp s s'), fun _ => ?_⟩
    exact HasStop.append_right ⟨(.mstctl .mstctlStop, s'),
      List.mem_cons_of_mem _ (List.mem_singleton_self _), rfl⟩ _

/-- A wait for a byte that gives up ends the transfer before it waits for the bus. -/
theorem waitI2cMasterRxrdy_quiet (b : I2c) :
    Quiet b b.waitI2cMasterRxrdy.2 b.waitI2cMasterRxrdy.1 := by
  have hpoll := poll_quiet (fun s => s.state == i2cStatMststRxrdy) (loopWaitReceive + 2) b
  rw [waitI2cMasterRxrdy]
  dsimp only
  split
  · have hstop := (hpoll.trans_stopped (stopped_writeMstctl _)).counted
      ((b.poll (fun s => s.state == i2cStatMststRxrdy) (loopWaitReceive + 2)).2.timeOuts + 1)
    obtain ⟨evs, hevs, hstart, hstops⟩ :=
      hstop.trans_quiet (waitI2cMasterState_quiet i2cStatMststIdle _)
    exact ⟨evs, hevs, hstart, fun _ => hstops⟩
  · exact hpoll

theorem sendLoop_quiet (bytes : List (BitVec 8)) (b : I2c) :
    Quiet b (sendLoop bytes b).2 (sendLoop bytes b).1 := by
  induction bytes generalizing b with
  | nil => exact .refl b
  | cons byte bytes ih =>
    exact (waitI2cMasterState_quiet i2cStatMststTxrdy b).ifOk fun b =>
      (quiet_continue (byte.setWidth 32) b).trans (ih _)

theorem clearLoop_quiet (n : Nat) (b : I2c) : Quiet b (clearLoop n b).2 (clearLoop n b).1 := by
  induction n generalizing b with
  | zero => exact .refl b
  | succ n ih =>
    exact (waitI2cMasterState_quiet i2cStatMststRxrdy b).ifOk fun b => (quiet_take b).trans (ih _)

theorem readLoop_quiet (n i : Nat) (b : I2c) (r : Buffer) :
    Quiet b (readLoop n i b r).2.1 (readLoop n i b r).1 := by
  induction n generalizing i b r with
  | zero => exact .refl b
  | succ n ih =>
    have hwait := waitI2cMasterState_quiet i2cStatMststRxrdy b
    rw [readLoop]
    dsimp only
    split
    · exact hwait
    · exact (hwait.ok.trans (quiet_take _)).trans (ih _ _ _)

theorem readLenghtLoop_quiet {len : Int} {fuel : Nat} {i : BitVec 8} {b : I2c} {r : Buffer}
    {stat : I2cStat} (hstat : (readLenghtLoop len fuel i b r).1 = some stat) :
    Quiet b (readLenghtLoop len fuel i b r).2.1 stat := by
  induction fuel generalizing i b r with
  | zero => exact nomatch hstat
  | succ fuel ih =>
    have hwait := waitI2cMasterRxrdy_quiet b
    rw [readLenghtLoop] at hstat ⊢
    dsimp only at hstat ⊢
    by_cases hi : (i.toNat : Int) < len
    · rw [if_pos hi] at hstat ⊢
      by_cases hok : b.waitI2cMasterRxrdy.1 = .ok
      · rw [if_neg (not_not_intro hok)] at hstat ⊢
        exact (hwait.ok.trans (quiet_take _)).trans (ih hstat)
      · rw [if_pos hok] at hstat ⊢
        rw [Option.some.inj hstat] at hwait
        exact hwait
    · rw [if_neg hi] at hstat ⊢
      rw [← Option.some.inj hstat]
      exact .refl b

/-! ## Ends -/

/-- A `STOP` and a wait for the bus. -/
theorem stopIdle_stopped (b : I2c) :
    Stopped b ((b.writeMstctl .mstctlStop).waitI2cMasterState i2cStatMststIdle).2 :=
  (stopped_writeMstctl b).trans_quiet (waitI2cMasterState_quiet i2cStatMststIdle _)

theorem dummyStop_stopped (b : I2c) :
    Stopped b (((b.writeMstdat 0).writeMstctl .mstctlStop).waitI2cMasterState
      i2cStatMststIdle).2 := by
  have hdummy : Quiet b (b.writeMstdat 0) .ok := quiet_record (by simp) b
  exact hdummy.trans_stopped (stopIdle_stopped _)

theorem endSend_stopped (b : I2c) : Stopped b b.endSend :=
  (waitI2cMasterState_quiet i2cStatMststTxrdy b).ok.trans_stopped (dummyStop_stopped _)

theorem endRead_stopped (b : I2c) : Stopped b b.endRead :=
  (waitI2cMasterRxrdy_quiet b).ok.trans_stopped (dummyStop_stopped _)

/-! ## Whole transfers -/

theorem released_of_quiet (h : Quiet b b₁ status) : Released (accessesSince b b₁) := by
  obtain ⟨evs, hevs, hstart, -⟩ := h
  rw [accessesSince, hevs.eventsSince]
  exact released_of_noStart hstart

/-- A transfer that is ended after its start. -/
theorem released_of_stopped {addr : BitVec 8} {read : BitVec 32} (h : Quiet b b₁ .ok)
    (h' : Stopped (b₁.startTransfer addr read) b₂) : Released (accessesSince b b₂) := by
  obtain ⟨evs, hevs, hstart, -⟩ := h
  obtain ⟨evs', hevs', hstart', hstop'⟩ := h'
  have hword := Appends.record (.mstdat ((addr.setWidth 32 <<< 1) ||| read)) b₁
  have hctl := Appends.record (.mstctl .mstctlStart)
    (b₁.writeMstdat ((addr.setWidth 32 <<< 1) ||| read))
  rw [accessesSince, (hevs.trans (hword.trans (hctl.trans hevs'))).eventsSince]
  refine released_append hstart ⟨(fun h => nomatch h), fun _ => ?_, released_of_noStart hstart'⟩
  obtain ⟨ev, hmem, hev⟩ := hstop'
  rw [← hev]
  exact List.mem_map_of_mem hmem

/-- The functions that return at once if the bus does not become free. -/
theorem released_ifOk {r : I2cStat × I2c} {k : I2c → I2cStat × I2c} {addr : BitVec 8}
    {read : BitVec 32} (h : Quiet b r.2 r.1)
    (hk : ∀ b, Stopped (b.startTransfer addr read) (k b).2) :
    Released (accessesSince b (ifOk r k).2) := by
  rw [ifOk]
  by_cases hok : r.1 = .ok
  · rw [if_pos hok]
    exact released_of_stopped h.ok (hk r.2)
  · rw [if_neg hok]
    exact released_of_quiet h

theorem sendMaster_released (addr : BitVec 8) (message : List (BitVec 8)) (b : I2c) :
    Released (accessesSince b (b.sendMaster addr message).2) :=
  released_ifOk (waitI2cMasterState_quiet i2cStatMststIdle b) fun _ =>
    Stopped.ifOk (waitI2cMasterState_quiet i2cStatMststTxrdy _) fun b =>
    Stopped.ifOk (sendLoop_quiet message b) fun b => endSend_stopped b

theorem sendFrame_stopped (payload : Nat → BitVec 8) (m : I2cModbus) (b : I2c) :
    Stopped (b.startTransfer m.addr 0) (sendFrame payload m b).2 :=
  Stopped.ifOk (waitI2cMasterState_quiet i2cStatMststTxrdy _) fun b =>
  Stopped.ifOk (sendLoop_quiet m.headBytes b) fun b =>
  Stopped.ifOk (sendLoop_quiet (m.payloadBytes payload) b) fun b =>
  Stopped.ifOk (sendLoop_quiet (crcBytes m.crc) b) fun b => endSend_stopped b

theorem sendMasterModbus_released (payload : Nat → BitVec 8) (m : I2cModbus) (b : I2c) :
    Released (accessesSince b (b.sendMasterModbus payload m).2.2) := by
  have hwait := waitI2cMasterState_quiet i2cStatMststIdle b
  rw [sendMasterModbus]
  dsimp only
  split
  · exact released_of_quiet hwait
  · exact released_of_stopped hwait.ok (sendFrame_stopped payload _ _)

theorem readMaster_released (addr : BitVec 8) (b : I2c) (r : Buffer) :
    Released (accessesSince b (b.readMaster addr r).2.1) := by
  have hwait := waitI2cMasterState_quiet i2cStatMststIdle b
  have hloop := readLoop_quiet 0x1FF 0
    ((b.waitI2cMasterState i2cStatMststIdle).2.startTransfer addr 1) r
  rw [readMaster]
  dsimp only
  split
  · exact released_of_quiet hwait
  split
  · rename_i hfail
    exact released_of_stopped hwait.ok (hloop.stopped hfail)
  · exact released_of_stopped hwait.ok (hloop.ok.trans_stopped (stopIdle_stopped _))

theorem readClearBufferMaster_released (addr : BitVec 8) (b : I2c) :
    Released (accessesSince b (b.readClearBufferMaster addr).2) :=
  released_ifOk (waitI2cMasterState_quiet i2cStatMststIdle b) fun _ =>
    Stopped.ifOk (clearLoop_quiet 0x1FF _) fun b => stopIdle_stopped b

theorem readLenghtMaster_released {fuel : Nat} {addr : BitVec 8} {len : Int} {b : I2c}
    {r : Buffer} {stat : I2cStat} (hstat : (b.readLenghtMaster fuel addr len r).1 = some stat) :
    Released (accessesSince b (b.readLenghtMaster fuel addr len r).2.1) := by
  have hwait := waitI2cMasterState_quiet i2cStatMststIdle b
  have hpoll := poll_quiet (fun s => s.pending) (100 * loopWaitReceive + 2)
    ((b.waitI2cMasterState i2cStatMststIdle).2.startTransfer addr 1)
  rw [readLenghtMaster_status] at hstat
  rw [readLenghtMaster]
  dsimp only
  split
  · exact released_of_quiet hwait
  rename_i hidle
  split
  · exact released_of_stopped hwait.ok (hpoll.trans_stopped (giveUp_stopped _))
  rename_i hpending
  rw [if_neg hidle, if_neg hpending] at hstat
  have hloop := hpoll.trans (readLenghtLoop_quiet hstat)
  split
  · rename_i hfail
    rw [hstat] at hfail
    exact released_of_stopped hwait.ok (hloop.stopped fun h => hfail (congrArg some h))
  · exact released_of_stopped hwait.ok (hloop.ok.trans_stopped (endRead_stopped _))

/-- Every transfer function returns, and each `START` it wrote is followed by a
`STOP`.  All loops but one are bounded by their definition; that of
`i2cReadLenght_master` ends within 256 turns up to a length of 255. -/
theorem bus_released (addr : BitVec 8) (message : List (BitVec 8)) (payload : Nat → BitVec 8)
    (m : I2cModbus) (b : I2c) (r : Buffer) :
    Released (accessesSince b (b.sendMaster addr message).2) ∧
      Released (accessesSince b (b.sendMasterModbus payload m).2.2) ∧
      Released (accessesSince b (b.readMaster addr r).2.1) ∧
      Released (accessesSince b (b.readClearBufferMaster addr).2) ∧
      ∀ len : Int, len ≤ 255 → ∀ fuel, 256 ≤ fuel →
        (∃ stat, (b.readLenghtMaster fuel addr len r).1 = some stat) ∧
          Released (accessesSince b (b.readLenghtMaster fuel addr len r).2.1) := by
  refine ⟨sendMaster_released addr message b, sendMasterModbus_released payload m b,
    readMaster_released addr b r, readClearBufferMaster_released addr b, ?_⟩
  intro len hlen fuel hfuel
  obtain ⟨stat, hstat⟩ := readLenghtMaster_ends hlen hfuel addr b r
  exact ⟨⟨stat, hstat⟩, readLenghtMaster_released hstat⟩

/-- Four bytes from a slave that always has another one. -/
theorem bus_released_endless :
    (∃ stat, (endlessBus.readLenghtMaster 256 sysI2cAddrWiFi 4 (.fresh fun _ => 0)).1 =
        some stat) ∧
      Released (accessesSince endlessBus
        (endlessBus.readLenghtMaster 256 sysI2cAddrWiFi 4 (.fresh fun _ => 0)).2.1) :=
  (bus_released sysI2cAddrWiFi [] (fun _ => 0) writeMessage endlessBus
    (.fresh fun _ => 0)).2.2.2.2 4 (by decide) 256 (by decide)

end I2c
end Recirculador
