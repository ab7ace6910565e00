/-
The emulated EEPROM of `flash_memory.c`.

Writes go to a staging vector in RAM; `eeprom_Commit` compares it with the flash and,
if they differ, erases the pages and programs them one by one.  It looks at no status
on the way.
-/
import Recirculador.Common.Run
import Recirculador.Flash.Iap

namespace Recirculador

@[simp] abbrev eepromFlashSize : Nat := 0x380
@[simp] abbrev sysEepromAddr : Nat := 0x7800

@[simp] abbrev eepromFlashSector : Nat := sysEepromAddr / flashSectorSizeBytes
@[simp] abbrev eepromFlashPage : Nat := sysEepromAddr / flashPageSizeBytes
@[simp] abbrev eepromFlashEndSector : Nat := flashPageSizeBytes / flashSectorSizeBytes
@[simp] abbrev eepromFlashEndPage : Nat := flashPageSizeBytes / flashPageSizeBytes
@[simp] abbrev eepromFlashPageNum : Nat := eepromFlashSize / flashPageSizeBytes
@[simp] abbrev eepromFlashFirstAddr : Nat := eepromFlashPage * flashPageSizeBytes

inductive FlashStatus
  | flashFail
  | flashOK
  deriving DecidableEq

structure Eeprom where
  /-- `eeprom_flash_Vet`. -/
  vet : Nat → BitVec 8
  flash : Flash

namespace Eeprom

def readChar (addr : Nat) (s : Eeprom) : BitVec 8 := s.flash.bytes (addr + eepromFlashFirstAddr)

/-- The test at the start of `eeprom_Commit`. -/
def unchanged (s : Eeprom) : Bool :=
  (List.range eepromFlashSize).all fun i => s.vet i == s.readChar i

/-- One turn of the loop of `eeprom_Commit`. -/
def commitPage (rom : Rom) (endSector : Nat) (vet : Nat → BitVec 8) (f : Flash)
    (i : Nat) : Flash :=
  let f := (iapPrepareSectorForWrite rom (BitVec.ofNat 32 eepromFlashSector)
    (BitVec.ofNat 32 endSector) f).2
  (iapCopyRamToFlash rom (BitVec.ofNat 32 (eepromFlashFirstAddr + flashPageSizeBytes * i))
    (fun j => vet (flashPageSizeBytes * i + j)) (BitVec.ofNat 32 flashPageSizeBytes) f).2

/-- The calls of `eeprom_Commit`, for an end of the sectors and of the pages. -/
def program (rom : Rom) (endSector endPage : Nat) (vet : Nat → BitVec 8)
    (f : Flash) : Flash :=
  let f := (iapPrepareSectorForWrite rom (BitVec.ofNat 32 eepromFlashSector)
    (BitVec.ofNat 32 endSector) f).2
  let f := (iapErasePage rom (BitVec.ofNat 32 eepromFlashPage) (BitVec.ofNat 32 endPage) f).2
  (List.range eepromFlashPageNum).foldl (commitPage rom endSector vet) f

def commit (rom : Rom) (s : Eeprom) : FlashStatus × Eeprom :=
  if s.unchanged then (.flashOK, s)
  else
    (.flashOK, { s with
      flash := program rom eepromFlashEndSector eepromFlashEndPage s.vet s.flash })

def reset (rom : Rom) (s : Eeprom) : FlashStatus × Eeprom :=
  let s := { s with vet := fun i => if i < eepromFlashSize then 0xFF else s.vet i }
  (.flashOK, (commit rom s).2)

/-! ## Runs -/

/-- `stage` is whatever the write functions make of the vector. -/
inductive Action
  | stage (vet : Nat → BitVec 8)
  | commit
  | reset

def step (rom : Rom) (s : Eeprom) : Action → Eeprom
  | .stage vet => { s with vet }
  | .commit => (s.commit rom).2
  | .reset => (s.reset rom).2

/-- The ROM starts with no sector prepared. -/
def powerUp (bytes : ByteMemory) (vet : Nat → BitVec 8) : Eeprom :=
  { vet, flash := { bytes, prepared := fun _ => false } }

/-- The flash holds the vector and is otherwise as before. -/
structure Persistent (s s' : Eeprom) : Prop where
  stored : ∀ i, i < eepromFlashSize → s'.flash.bytes (eepromFlashFirstAddr + i) = s.vet i
  kept : ∀ a, a < eepromFlashFirstAddr ∨ eepromFlashFirstAddr + eepromFlashSize ≤ a →
    s'.flash.bytes a = s.flash.bytes a

def Unprepared (s : Eeprom) : Prop := ∀ k, s.flash.prepared k = false

variable {rom : Rom} {s : Eeprom}

/-! ## What the calls do -/

theorem commitPage_rejected (hrom : rom.Documented) (vet : Nat → BitVec 8)
    {f : Flash} (hf : ∀ k, f.prepared k = false) (i : Nat) :
    commitPage rom eepromFlashEndSector vet f i = f := by
  have hprepare := (hrom.prepare_rejects (BitVec.ofNat 32 eepromFlashSector)
    (BitVec.ofNat 32 eepromFlashEndSector) f (by decide)).2
  rw [commitPage, iapPrepareSectorForWrite, hprepare]
  exact (hrom.copy_rejects _ _ _ f (hf _)).2

/-- The end of the sectors and that of the pages lie before their starts, so that no
call is accepted. -/
theorem program_rejected (hrom : rom.Documented) (vet : Nat → BitVec 8)
    {f : Flash} (hf : ∀ k, f.prepared k = false) :
    program rom eepromFlashEndSector eepromFlashEndPage vet f = f := by
  have hprepare := (hrom.prepare_rejects (BitVec.ofNat 32 eepromFlashSector)
    (BitVec.ofNat 32 eepromFlashEndSector) f (by decide)).2
  have herase := (hrom.erase_rejects (BitVec.ofNat 32 eepromFlashPage)
    (BitVec.ofNat 32 eepromFlashEndPage) f (Or.inl (by decide))).2
  rw [program, iapPrepareSectorForWrite, hprepare, iapErasePage, herase]
  induction List.range eepromFlashPageNum with
  | nil => rfl
  | cons i is ih => rw [List.foldl_cons, commitPage_rejected hrom vet hf, ih]

theorem commit_eq (hrom : rom.Documented) (hs : s.Unprepared) :
    s.commit rom = (.flashOK, s) := by
  rw [commit, program_rejected hrom s.vet hs]
  split <;> rfl

theorem step_unprepared (hrom : rom.Documented) (s : Eeprom) (a : Action)
    (hs : s.Unprepared) : (step rom s a).Unprepared := by
  cases a with
  | stage vet => exact hs
  | commit =>
    rw [step, commit_eq hrom hs]
    exact hs
  | reset =>
    have hcommit := commit_eq (s := { s with
      vet := fun i => if i < eepromFlashSize then 0xFF else s.vet i }) hrom hs
    rw [step, reset]
    dsimp only
    rw [hcommit]
    exact hs

/-- At any time a commit that returns `FlashOK` is persistent exactly if there was
nothing to commit. -/
theorem commit_persistent_iff (hrom : rom.Documented) (bytes : ByteMemory)
    (vet : Nat → BitVec 8) (as : List Action) :
    let s := Run.final (step rom) (powerUp bytes vet) as
    ((s.commit rom).1 = .flashOK → Persistent s (s.commit rom).2) ↔
      ∀ i, i < eepromFlashSize → s.vet i = s.readChar i := by
  have hs := Run.final_of_invariant Unprepared (step_unprepared hrom)
    (show (powerUp bytes vet).Unprepared from fun _ => rfl) as
  generalize Run.final (step rom) (powerUp bytes vet) as = s at hs
  dsimp only
  rw [commit_eq hrom hs]
  constructor
  · intro h i hi
    rw [readChar, Nat.add_comm]
    exact ((h rfl).stored i hi).symm
  · intro h _
    refine ⟨fun i hi => ?_, fun _ _ => rfl⟩
    rw [Nat.add_comm]
    exact (h i hi).symm

/-- A vector of zeros over an erased flash. -/
theorem commit_lost :
    ¬ ∀ (rom : Rom) (bytes : ByteMemory) (vet : Nat → BitVec 8) (as : List Action),
      rom.Documented →
      let s := Run.final (step rom) (powerUp bytes vet) as
      (s.commit rom).1 = .flashOK → Persistent s (s.commit rom).2 := by
  intro hall
  have hcommit := commit_eq (s := powerUp (fun _ => 0xFF) (fun _ => 0)) Rom.reference_documented
    (fun _ => rfl)
  have hpersistent : Persistent (powerUp (fun _ => 0xFF) (fun _ => 0))
      ((powerUp (fun _ => 0xFF) (fun _ => 0)).commit Rom.reference).2 :=
    hall Rom.reference (fun _ => 0xFF) (fun _ => 0) [] Rom.reference_documented
      (congrArg Prod.fst hcommit)
  rw [hcommit] at hpersistent
  have hstored : (0xFF : BitVec 8) = 0 := hpersistent.stored 0 (by decide)
  exact absurd hstored (by decide)

/-- A flash that counts its bytes. -/
def countedFlash : ByteMemory := fun a => BitVec.ofNat 8 a

/-- After a refused commit of zeros the vector is staged that the flash holds. -/
theorem commit_persistent_restaged :
    let s := Run.final (step Rom.reference) (powerUp countedFlash fun _ => 0)
      [.commit, .stage fun i => countedFlash (i + eepromFlashFirstAddr)]
    (s.commit Rom.reference).1 = .flashOK → Persistent s (s.commit Rom.reference).2 := by
  refine (commit_persistent_iff Rom.reference_documented countedFlash (fun _ => 0)
    [.commit, .stage fun i => countedFlash (i + eepromFlashFirstAddr)]).mpr fun i _ => ?_
  -- The commit has left the flash alone.
  have hcommit := commit_eq (s := powerUp countedFlash fun _ => 0) Rom.reference_documented
    (fun _ => rfl)
  rw [Run.final, step, hcommit]
  rfl

/-! ## The calls with ends behind their starts

What `eeprom_Commit` would write if its two ends were those of the last sector and
page: the protocol of its calls is right. -/

@[simp] abbrev eepromLastSector : Nat :=
  (sysEepromAddr + eepromFlashSize - 1) / flashSectorSizeBytes
@[simp] abbrev eepromLastPage : Nat := (sysEepromAddr + eepromFlashSize - 1) / flashPageSizeBytes

/-- `n` pages of the vector are in the erased area, the rest of the flash is that of `f`. -/
def Programmed (vet : Nat → BitVec 8) (f : Flash) (n : Nat) (f' : Flash) : Prop :=
  ∀ a, f'.bytes a =
    if eepromFlashFirstAddr ≤ a ∧ a < eepromFlashFirstAddr + flashPageSizeBytes * n then
      vet (a - eepromFlashFirstAddr)
    else if eepromFlashFirstAddr ≤ a ∧ a < eepromFlashFirstAddr + eepromFlashSize then 0xFF
    else f.bytes a

/-- The addresses in numbers. -/
theorem programmed_iff (vet : Nat → BitVec 8) (f : Flash) (n : Nat) (f' : Flash) :
    Programmed vet f n f' ↔ ∀ a, f'.bytes a =
      if 30720 ≤ a ∧ a < 30720 + 64 * n then vet (a - 30720)
      else if 30720 ≤ a ∧ a < 31616 then 0xFF else f.bytes a :=
  Iff.rfl

theorem commitPage_programmed (hrom : rom.Documented) {vet : Nat → BitVec 8} {f f' : Flash}
    {n : Nat} (hn : n < eepromFlashPageNum) (h : Programmed vet f n f') :
    Programmed vet f (n + 1) (commitPage rom eepromLastSector vet f' n) := by
  have hn : n < 14 := hn
  rw [programmed_iff] at h ⊢
  obtain ⟨-, hbytes, hprepared⟩ := hrom.prepare_accepts (BitVec.ofNat 32 eepromFlashSector)
    (BitVec.ofNat 32 eepromLastSector) f' (by decide) (by decide)
  have hdst : (BitVec.ofNat 32 (30720 + 64 * n)).toNat = 30720 + 64 * n := by
    rw [BitVec.toNat_ofNat]
    omega
  have herased : ∀ i, i < 64 → f'.bytes (30720 + 64 * n + i) = 0xFF := by
    intro i hi
    rw [h, if_neg (by omega), if_pos (by omega)]
  have hsector : (30720 + 64 * n) / 1024 = 30 := by omega
  obtain ⟨-, hcopy⟩ := hrom.copy_accepts (BitVec.ofNat 32 (30720 + 64 * n))
    (fun j => vet (64 * n + j))
    (rom (.prepareSectorForWrite (BitVec.ofNat 32 eepromFlashSector)
      (BitVec.ofNat 32 eepromLastSector)) f').2
    (by rw [hdst]; show (30720 + 64 * n) % 64 = 0; omega)
    (by rw [hdst]; show 30720 + 64 * n + 64 ≤ 32640; omega)
    (by rw [hdst]; exact hsector ▸ hprepared 30 (by decide) (by decide))
    (by rw [hdst, hbytes]; exact herased)
  intro a
  refine (hcopy a).trans ?_
  rw [hdst, hbytes, h a]
  by_cases hin : 30720 + 64 * n ≤ a ∧ a < 30720 + 64 * n + 64
  · have hoffset : 64 * n + (a - (30720 + 64 * n)) = a - 30720 := by omega
    have hnow : 30720 ≤ a ∧ a < 30720 + 64 * (n + 1) := by omega
    rw [if_pos hnow, ← hoffset]
    exact if_pos hin
  · have hsame : (30720 ≤ a ∧ a < 30720 + 64 * (n + 1)) ↔ 30720 ≤ a ∧ a < 30720 + 64 * n := by
      omega
    simp only [hsame]
    exact if_neg hin

/-- With these ends the flash holds the vector and is otherwise as before. -/
theorem program_programmed (hrom : rom.Documented) (vet : Nat → BitVec 8) (f : Flash) :
    Programmed vet f eepromFlashPageNum (program rom eepromLastSector eepromLastPage vet f) := by
  obtain ⟨-, hbytes, hprepared⟩ := hrom.prepare_accepts (BitVec.ofNat 32 eepromFlashSector)
    (BitVec.ofNat 32 eepromLastSector) f (by decide) (by decide)
  have hpages : ∀ page, 480 ≤ page → page ≤ 493 →
      (rom (.prepareSectorForWrite (BitVec.ofNat 32 eepromFlashSector)
        (BitVec.ofNat 32 eepromLastSector)) f).2.prepared (Rom.pageSector page) = true := by
    intro page hlow hhigh
    have hsector : Rom.pageSector page = 30 := by
      show page * 64 / 1024 = 30
      omega
    rw [hsector]
    exact hprepared 30 (by decide) (by decide)
  obtain ⟨-, herase⟩ := hrom.erase_accepts (BitVec.ofNat 32 eepromFlashPage)
    (BitVec.ofNat 32 eepromLastPage) _ (by decide) (by decide) hpages
  have hloop : ∀ n, n ≤ eepromFlashPageNum → Programmed vet f n
      ((List.range n).foldl (commitPage rom eepromLastSector vet)
        (rom (.erasePage (BitVec.ofNat 32 eepromFlashPage) (BitVec.ofNat 32 eepromLastPage))
          (rom (.prepareSectorForWrite (BitVec.ofNat 32 eepromFlashSector)
            (BitVec.ofNat 32 eepromLastSector)) f).2).2) := by
    intro n
    induction n with
    | zero =>
      intro _ a
      have hnone : ¬ (30720 ≤ a ∧ a < 30720 + 64 * 0) := by omega
      refine (herase a).trans ?_
      rw [hbytes]
      exact (if_neg hnone).symm
    | succ n ih =>
      intro hn
      rw [List.range_succ, List.foldl_append]
      exact commitPage_programmed hrom hn (ih (Nat.le_of_succ_le hn))
  exact hloop eepromFlashPageNum (Nat.le_refl _)

end Eeprom

end Recirculador
