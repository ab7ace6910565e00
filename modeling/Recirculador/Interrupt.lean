/-
The pin interrupts of `interrupt.c`.

A registration fills slot `intCount` of the tables, and handler `k` reads slot `k` back.
There are three tables: the pins, the functions and the arguments.  Nothing ever writes
the last one, so every function is called with `NULL`.
-/
import Recirculador.Common.Run
import Recirculador.Gpio

namespace Recirculador

inductive InterruptTrigger
  | falling
  | rising
  | edge
  | lowLevel
  | highLevel

def InterruptTrigger.code : InterruptTrigger → BitVec 32
  | .falling => 0b01
  | .rising => 0b10
  | .edge => 0b011
  | .lowLevel => 0b101
  | .highLevel => 0b110

/-- The arguments of `newExternInterrupt`.  `F` is what a function pointer may point to. -/
structure ExternCall (F : Type) where
  pin : BitVec 8
  isrFunc : Option F
  trigger : InterruptTrigger
  arg : BitVec 32

structure ExternInterrupts (F : Type) where
  intCount : Nat
  vetArg : Nat → BitVec 32
  ptrIsrFunc : Nat → Option F
  /-- `SYSCON->PINTSEL`. -/
  pintsel : Nat → BitVec 8
  isel : BitVec 32
  ienr : BitVec 32
  ienf : BitVec 32
  ist : BitVec 32
  /-- The channels the interrupt controller lets through. -/
  nvic : Nat → Bool
  /-- The functions called so far, with their arguments. -/
  calls : List (F × BitVec 32)

namespace ExternInterrupts

variable {F : Type}

/-- A one written to `IST` ends the request of its channel; where the channel is
level-sensitive it does so by switching the active level. -/
def writeIst (value : BitVec 32) (s : ExternInterrupts F) : ExternInterrupts F :=
  { s with ist := s.ist &&& ~~~value, ienf := s.ienf ^^^ (value &&& s.isel) }

/-- The block's registers go back to 0. -/
def resetPint (s : ExternInterrupts F) : ExternInterrupts F :=
  { s with isel := 0, ienr := 0, ienf := 0, ist := 0 }

def disableIrqs (n : Nat) (s : ExternInterrupts F) : ExternInterrupts F :=
  { s with nvic := fun i => if i < n then false else s.nvic i }

def enableIrqs (n : Nat) (s : ExternInterrupts F) : ExternInterrupts F :=
  { s with nvic := fun i => if i < n then true else s.nvic i }

/-- The bits of a trigger in the registers of the block.  `SIENF` and its like are
write-only and read as 0. -/
def configTrigger (trigger : BitVec 32) (n : Nat) (s : ExternInterrupts F) : ExternInterrupts F :=
  let s := { s with isel := s.isel ||| (((trigger &&& 0b100) >>> 2) <<< n) }
  let s := { s with ienf := s.ienf ||| ((trigger &&& 0b01) <<< n) }
  let s := { s with ienf := s.ienf &&& ~~~(((~~~trigger) &&& 0b01) <<< n) }
  let s := { s with ienr := s.ienr ||| (((trigger &&& 0b10) >>> 1) <<< n) }
  { s with ienr := s.ienr &&& ~~~((((~~~trigger) &&& 0b10) >>> 1) <<< n) }

def setPintsel (n : Nat) (pin : BitVec 8) (s : ExternInterrupts F) : ExternInterrupts F :=
  { s with pintsel := fun i => if i = n then pin else s.pintsel i }

def setPtrIsrFunc (n : Nat) (isrFunc : Option F) (s : ExternInterrupts F) : ExternInterrupts F :=
  { s with ptrIsrFunc := fun i => if i = n then isrFunc else s.ptrIsrFunc i }

/-- Interrupts are off from its first statement to its last. -/
def newExternInterrupt (c : ExternCall F) (s : ExternInterrupts F) : ExternInterrupts F :=
  if c.isrFunc.isNone then s
  else if s.intCount ≥ 8 then s
  else
    let s := if s.intCount = 0 then (s.disableIrqs 1).resetPint else s
    let s := s.disableIrqs s.intCount
    let s := s.setPintsel s.intCount c.pin
    let s := s.configTrigger c.trigger.code s.intCount
    let s := s.writeIst 0xFF
    let s := s.setPtrIsrFunc s.intCount c.isrFunc
    let s := { s with intCount := s.intCount + 1 }
    s.enableIrqs s.intCount

/-! ## The handlers

Each is a copy with its own four indices. -/

def irqHandler (flag clear func arg : Nat) (s : ExternInterrupts F) : ExternInterrupts F :=
  if s.ist &&& (1#32 <<< flag) ≠ 0 then
    let s := s.writeIst (1#32 <<< clear)
    match s.ptrIsrFunc func with
    | some isrFunc => { s with calls := s.calls ++ [(isrFunc, s.vetArg arg)] }
    | none => s
  else s

def pinInt0IrqHandler : ExternInterrupts F → ExternInterrupts F := irqHandler 0 0 0 0
def pinInt1IrqHandler : ExternInterrupts F → ExternInterrupts F := irqHandler 1 1 1 1
def pinInt2IrqHandler : ExternInterrupts F → ExternInterrupts F := irqHandler 2 2 2 2
def pinInt3IrqHandler : ExternInterrupts F → ExternInterrupts F := irqHandler 3 3 3 3
def pinInt4IrqHandler : ExternInterrupts F → ExternInterrupts F := irqHandler 4 4 4 4
def pinInt5IrqHandler : ExternInterrupts F → ExternInterrupts F := irqHandler 5 5 5 5
def pinInt6IrqHandler : ExternInterrupts F → ExternInterrupts F := irqHandler 6 6 6 6
def pinInt7IrqHandler : ExternInterrupts F → ExternInterrupts F := irqHandler 7 7 7 7

/-- The vector table. -/
def pinIntIrqHandler : Fin 8 → ExternInterrupts F → ExternInterrupts F
  | 0 => pinInt0IrqHandler
  | 1 => pinInt1IrqHandler
  | 2 => pinInt2IrqHandler
  | 3 => pinInt3IrqHandler
  | 4 => pinInt4IrqHandler
  | 5 => pinInt5IrqHandler
  | 6 => pinInt6IrqHandler
  | 7 => pinInt7IrqHandler

theorem pinIntIrqHandler_eq (k : Fin 8) :
    pinIntIrqHandler (F := F) k = irqHandler k.val k.val k.val k.val := by
  match k with
  | 0 | 1 | 2 | 3 | 4 | 5 | 6 | 7 => rfl

/-! ## Runs -/

inductive Action (F : Type)
  | register (c : ExternCall F)
  /-- The pins move. -/
  | pins (ist : BitVec 32)
  | handler (k : Fin 8)

def step (s : ExternInterrupts F) : Action F → ExternInterrupts F
  | .register c => newExternInterrupt c s
  | .pins ist => { s with ist }
  | .handler k => pinIntIrqHandler k s

/-- What the loader leaves. -/
def boot : ExternInterrupts F :=
  { intCount := 0, vetArg := fun _ => 0, ptrIsrFunc := fun _ => none, pintsel := fun _ => 0,
    isel := 0, ienr := 0, ienf := 0, ist := 0, nvic := fun _ => false, calls := [] }

/-- The first eight registrations with a function. -/
def accept (accepted : List (ExternCall F)) : Action F → List (ExternCall F)
  | .register c =>
    if c.isrFunc.isNone ∨ 8 ≤ accepted.length then accepted else accepted ++ [c]
  | .pins _ => accepted
  | .handler _ => accepted

/-- With its flag set, the handler of a channel clears the flag and makes one call. -/
def Delivers (s : ExternInterrupts F) (k : Fin 8) (isrFunc : F) (arg : BitVec 32) : Prop :=
  ∀ ist : BitVec 32, ist.getLsbD k.val = true →
    let s' := pinIntIrqHandler k { s with ist }
    s'.ist = ist &&& ~~~(1#32 <<< k.val) ∧ s'.calls = s.calls ++ [(isrFunc, arg)]

/-- Channel `k` is that of registration `k`, and the others are refused. -/
structure Served (s : ExternInterrupts F) (accepted : List (ExternCall F)) : Prop where
  bound : ∀ (k : Fin 8) (c : ExternCall F), accepted[k.val]? = some c →
    s.pintsel k.val = c.pin ∧ ∃ isrFunc, c.isrFunc = some isrFunc ∧ s.Delivers k isrFunc c.arg
  refused : ∀ c : ExternCall F, c.isrFunc.isNone ∨ 8 ≤ accepted.length →
    newExternInterrupt c s = s

/-- What the tables hold of the registrations. -/
structure Registered (s : ExternInterrupts F) (accepted : List (ExternCall F)) : Prop where
  count : s.intCount = accepted.length
  bounded : accepted.length ≤ 8
  pin : ∀ k c, accepted[k]? = some c → s.pintsel k = c.pin
  func : ∀ k c, accepted[k]? = some c → s.ptrIsrFunc k = c.isrFunc
  some : ∀ c ∈ accepted, c.isrFunc.isSome
  arg : ∀ k, s.vetArg k = 0

variable {s : ExternInterrupts F} {accepted : List (ExternCall F)}

/-! ## What the calls do to the tables -/

theorem newExternInterrupt_refused {c : ExternCall F} (h : c.isrFunc.isNone ∨ 8 ≤ s.intCount) :
    newExternInterrupt c s = s := by
  rw [newExternInterrupt]
  by_cases hnone : c.isrFunc.isNone
  · rw [if_pos hnone]
  · rw [if_neg hnone, if_pos (h.resolve_left hnone)]

/-- The part of the state the handlers look up. -/
structure SameTables (s s' : ExternInterrupts F) : Prop where
  intCount : s'.intCount = s.intCount
  pintsel : s'.pintsel = s.pintsel
  ptrIsrFunc : s'.ptrIsrFunc = s.ptrIsrFunc
  vetArg : s'.vetArg = s.vetArg

theorem sameTables_writeIst (value : BitVec 32) (s : ExternInterrupts F) :
    SameTables s (s.writeIst value) :=
  ⟨rfl, rfl, rfl, rfl⟩

theorem sameTables_configTrigger (trigger : BitVec 32) (n : Nat) (s : ExternInterrupts F) :
    SameTables s (s.configTrigger trigger n) :=
  ⟨rfl, rfl, rfl, rfl⟩

theorem sameTables_prepared (s : ExternInterrupts F) :
    let s' := if s.intCount = 0 then (s.disableIrqs 1).resetPint else s
    SameTables s (s'.disableIrqs s'.intCount) := by
  dsimp only
  split <;> exact ⟨rfl, rfl, rfl, rfl⟩

/-- The next slot holds the call. -/
structure Filled (c : ExternCall F) (s s' : ExternInterrupts F) : Prop where
  intCount : s'.intCount = s.intCount + 1
  pintsel : ∀ i, s'.pintsel i = if i = s.intCount then c.pin else s.pintsel i
  ptrIsrFunc : ∀ i, s'.ptrIsrFunc i = if i = s.intCount then c.isrFunc else s.ptrIsrFunc i
  vetArg : s'.vetArg = s.vetArg

theorem newExternInterrupt_filled {c : ExternCall F}
    (h : ¬ (c.isrFunc.isNone ∨ 8 ≤ s.intCount)) : Filled c s (newExternInterrupt c s) := by
  obtain ⟨hsome, hfree⟩ := not_or.mp h
  rw [newExternInterrupt, if_neg hsome, if_neg hfree]
  have hprepared := sameTables_prepared s
  dsimp only at hprepared ⊢
  generalize disableIrqs _ (if s.intCount = 0 then _ else s) = t at hprepared ⊢
  have hconfig := sameTables_configTrigger c.trigger.code t.intCount (t.setPintsel t.intCount c.pin)
  have hpin : (t.setPintsel t.intCount c.pin).intCount = t.intCount := rfl
  rw [hpin]
  generalize (t.setPintsel t.intCount c.pin).configTrigger _ _ = u at hconfig ⊢
  have hflags := sameTables_writeIst 0xFF u
  generalize u.writeIst 0xFF = w at hflags ⊢
  have hcount : w.intCount = s.intCount :=
    hflags.intCount.trans (hconfig.intCount.trans hprepared.intCount)
  refine ⟨congrArg (· + 1) hcount, fun i => ?_, fun i => ?_, ?_⟩
  · show w.pintsel i = _
    rw [hflags.pintsel, hconfig.pintsel, setPintsel, hprepared.intCount, hprepared.pintsel]
  · show (if i = w.intCount then c.isrFunc else w.ptrIsrFunc i) = _
    rw [hcount, hflags.ptrIsrFunc, hconfig.ptrIsrFunc]
    show (if _ then _ else t.ptrIsrFunc i) = _
    rw [hprepared.ptrIsrFunc]
  · show w.vetArg = _
    rw [hflags.vetArg, hconfig.vetArg]
    exact hprepared.vetArg

/-- A handler moves flags and calls, and no table. -/
theorem sameTables_irqHandler (flag clear func arg : Nat) (s : ExternInterrupts F) :
    SameTables s (irqHandler flag clear func arg s) := by
  dsimp only [irqHandler]
  split
  · split <;> exact ⟨rfl, rfl, rfl, rfl⟩
  · exact ⟨rfl, rfl, rfl, rfl⟩

theorem irqHandler_delivers {k : Nat} (hk : k < 32) {isrFunc : F} {ist : BitVec 32}
    (hfunc : s.ptrIsrFunc k = some isrFunc) (hflag : ist.getLsbD k = true) :
    let s' := irqHandler k k k k { s with ist }
    s'.ist = ist &&& ~~~(1#32 <<< k) ∧ s'.calls = s.calls ++ [(isrFunc, s.vetArg k)] := by
  have hset : ist &&& (1#32 <<< k) ≠ 0 := by
    rw [BitVec.and_comm]
    exact (Gpio.testPin_iff ist hk).mpr hflag
  dsimp only [irqHandler]
  rw [if_pos hset]
  simp only [writeIst, hfunc, and_self]

/-! ## The tables over a run -/

theorem Registered.fill {c : ExternCall F} {s' : ExternInterrupts F} (h : Registered s accepted)
    (hsome : ¬ c.isrFunc.isNone) (hfree : ¬ 8 ≤ accepted.length) (hfilled : Filled c s s') :
    Registered s' (accepted ++ [c]) := by
  have hlast : ∀ k d, (accepted ++ [c])[k]? = .some d →
      k = accepted.length ∧ d = c ∨ k ≠ accepted.length ∧ accepted[k]? = .some d := by
    intro k d hk
    rw [List.getElem?_append] at hk
    by_cases hlt : k < accepted.length
    · rw [if_pos hlt] at hk
      exact Or.inr ⟨by omega, hk⟩
    · rw [if_neg hlt, List.getElem?_singleton] at hk
      split at hk
      · exact Or.inl ⟨by omega, (Option.some.inj hk).symm⟩
      · exact absurd hk (by simp)
  refine ⟨?_, ?_, fun k d hk => ?_, fun k d hk => ?_, fun d hd => ?_, fun k => ?_⟩
  · rw [hfilled.intCount, h.count, List.length_append, List.length_singleton]
  · rw [List.length_append, List.length_singleton]
    omega
  · rw [hfilled.pintsel, h.count]
    rcases hlast k d hk with ⟨he, rfl⟩ | ⟨hne, hk⟩
    · rw [if_pos he]
    · rw [if_neg hne, h.pin k d hk]
  · rw [hfilled.ptrIsrFunc, h.count]
    rcases hlast k d hk with ⟨he, rfl⟩ | ⟨hne, hk⟩
    · rw [if_pos he]
    · rw [if_neg hne, h.func k d hk]
  · rcases List.mem_append.mp hd with hd | hd
    · exact h.some d hd
    · rw [List.mem_singleton.mp hd]
      cases hfunc : c.isrFunc with
      | none => exact absurd (show c.isrFunc.isNone by rw [hfunc]; rfl) hsome
      | some isrFunc => rfl
  · rw [hfilled.vetArg]
    exact h.arg k

theorem Registered.step (h : Registered s accepted) (a : Action F) :
    Registered (step s a) (accept accepted a) := by
  cases a with
  | register c =>
    show Registered (newExternInterrupt c s) _
    rw [accept]
    by_cases hrefused : c.isrFunc.isNone ∨ 8 ≤ accepted.length
    · rw [if_pos hrefused, newExternInterrupt_refused (h.count ▸ hrefused)]
      exact h
    · rw [if_neg hrefused]
      obtain ⟨hsome, hfree⟩ := not_or.mp hrefused
      exact h.fill hsome hfree (newExternInterrupt_filled (h.count ▸ hrefused))
  | pins ist => exact ⟨h.count, h.bounded, h.pin, h.func, h.some, h.arg⟩
  | handler k =>
    show Registered (pinIntIrqHandler k s) accepted
    rw [pinIntIrqHandler_eq]
    have hsame := sameTables_irqHandler k.val k.val k.val k.val s
    exact ⟨hsame.intCount.trans h.count, h.bounded, hsame.pintsel ▸ h.pin,
      hsame.ptrIsrFunc ▸ h.func, h.some, hsame.vetArg ▸ h.arg⟩

theorem Registered.run (h : Registered s accepted) (as : List (Action F)) :
    Registered (Run.final ExternInterrupts.step s as) (Run.final accept accepted as) := by
  induction as generalizing s accepted with
  | nil => exact h
  | cons a as ih => exact ih (h.step a)

/-- The call gets `NULL` for its argument. -/
theorem Registered.delivers {k : Fin 8} {c : ExternCall F} (h : Registered s accepted)
    (hk : accepted[k.val]? = .some c) :
    ∃ isrFunc, c.isrFunc = .some isrFunc ∧ s.Delivers k isrFunc 0 := by
  obtain ⟨isrFunc, hfunc⟩ := Option.isSome_iff_exists.mp (h.some c (List.mem_of_getElem? hk))
  have hslot : s.ptrIsrFunc k.val = .some isrFunc := (h.func k.val c hk).trans hfunc
  refine ⟨isrFunc, hfunc, fun ist hflag => ?_⟩
  have hdelivers := irqHandler_delivers (show k.val < 32 by omega) hslot hflag
  rw [h.arg] at hdelivers
  rw [pinIntIrqHandler_eq]
  exact hdelivers

theorem Delivers.arg_unique {k : Fin 8} {f g : F} {a b : BitVec 32} (h : s.Delivers k f a)
    (h' : s.Delivers k g b) : a = b := by
  have hflag : (BitVec.allOnes 32).getLsbD k.val = true := by
    rw [BitVec.getLsbD_allOnes, decide_eq_true (show k.val < 32 by omega)]
  have hcalls := (h _ hflag).2.symm.trans (h' _ hflag).2
  exact congrArg Prod.snd (List.singleton_inj.mp (List.append_cancel_left hcalls))

/-- After any run of registrations, pins and handlers each channel serves its own
registration exactly if all of them were registered with a `NULL` argument. -/
theorem run_served_iff (as : List (Action F)) :
    let accepted := Run.final accept [] as
    Served (Run.final step boot as) accepted ↔ ∀ c ∈ accepted, c.arg = 0 := by
  have hboot : Registered (boot (F := F)) [] :=
    ⟨rfl, Nat.zero_le 8, fun _ _ hk => absurd hk (by simp), fun _ _ hk => absurd hk (by simp),
      fun _ hc => absurd hc (by simp), fun _ => rfl⟩
  have h := hboot.run as
  generalize Run.final step boot as = s at h
  generalize Run.final accept [] as = accepted at h
  dsimp only
  constructor
  · intro hserved c hc
    obtain ⟨k, hk⟩ := List.mem_iff_getElem?.mp hc
    obtain ⟨hlt, -⟩ := List.getElem?_eq_some_iff.mp hk
    let channel : Fin 8 := ⟨k, Nat.lt_of_lt_of_le hlt h.bounded⟩
    obtain ⟨-, f, -, hown⟩ := hserved.bound channel c hk
    obtain ⟨g, -, hnull⟩ := h.delivers (k := channel) hk
    exact hown.arg_unique hnull
  · intro hargs
    refine ⟨fun k c hk => ⟨h.pin k.val c hk, ?_⟩, fun c hc => ?_⟩
    · rw [hargs c (List.mem_of_getElem? hk)]
      exact h.delivers hk
    · exact newExternInterrupt_refused (h.count ▸ hc)

/-- One handler registered with the argument 1. -/
theorem run_argumentLost :
    ¬ ∀ as : List (Action Unit),
      Served (Run.final step boot as) (Run.final accept [] as) := by
  intro hall
  obtain ⟨-, f, -, hown⟩ := (hall [.register ⟨9, some (), .falling, 1⟩]).bound 0 _ rfl
  have hargs : [0#32] = [1#32] := congrArg (fun calls => calls.map Prod.snd) (hown 1 rfl).2
  exact absurd hargs (by decide)

end ExternInterrupts

end Recirculador
