/-
The in-application programming calls of `fsl_iap.c`.

Each call hands a command to the ROM and returns its status.  The ROM is a parameter
here: `Documented` is what the comments of `fsl_iap.c` say of it.  Erasing and
programming need the sectors prepared, a range must not end before it starts, and a
call that fails leaves everything as it was.  The clock the callers pass is dropped,
the flash of the device having its own.
-/
import Recirculador.Common.ByteMemory

namespace Recirculador

@[simp] abbrev flashPageSizeBytes : Nat := 64
@[simp] abbrev flashSectorSizeBytes : Nat := 1024
@[simp] abbrev flashSizeBytes : Nat := 32640

inductive IapStatus
  | success
  | srcAddrError
  | dstAddrError
  | srcAddrNotMapped
  | dstAddrNotMapped
  | countError
  | invalidSector
  | notPrepared
  | busy
  | noPower
  | noClock
  deriving DecidableEq

/-- The flash and the sectors prepared for writing. -/
structure Flash where
  bytes : ByteMemory
  prepared : Nat → Bool

inductive IapCommand
  | prepareSectorForWrite (startSector endSector : BitVec 32)
  | copyRamToFlash (dstAddr : BitVec 32) (src : Nat → BitVec 8) (numOfBytes : BitVec 32)
  | erasePage (startPage endPage : BitVec 32)

/-- What is behind `iap_entry`. -/
abbrev Rom := IapCommand → Flash → IapStatus × Flash

def iapPrepareSectorForWrite (rom : Rom) (startSector endSector : BitVec 32) (f : Flash) :
    IapStatus × Flash :=
  rom (.prepareSectorForWrite startSector endSector) f

def iapCopyRamToFlash (rom : Rom) (dstAddr : BitVec 32) (src : Nat → BitVec 8)
    (numOfBytes : BitVec 32) (f : Flash) : IapStatus × Flash :=
  rom (.copyRamToFlash dstAddr src numOfBytes) f

def iapErasePage (rom : Rom) (startPage endPage : BitVec 32) (f : Flash) : IapStatus × Flash :=
  rom (.erasePage startPage endPage) f

namespace Rom

/-- A command fails and changes nothing. -/
def Rejects (rom : Rom) (command : IapCommand) (f : Flash) : Prop :=
  (rom command f).1 ≠ .success ∧ (rom command f).2 = f

def pageSector (page : Nat) : Nat := page * flashPageSizeBytes / flashSectorSizeBytes

structure Documented (rom : Rom) : Prop where
  prepare_rejects : ∀ startSector endSector f, endSector < startSector →
    rom.Rejects (.prepareSectorForWrite startSector endSector) f
  prepare_accepts : ∀ startSector endSector f, startSector ≤ endSector →
    endSector.toNat * flashSectorSizeBytes < flashSizeBytes →
    let result := rom (.prepareSectorForWrite startSector endSector) f
    result.1 = .success ∧ result.2.bytes = f.bytes ∧
      ∀ k, startSector.toNat ≤ k → k ≤ endSector.toNat → result.2.prepared k = true
  erase_rejects : ∀ startPage endPage f,
    endPage < startPage ∨ (∃ page, startPage.toNat ≤ page ∧ page ≤ endPage.toNat ∧
      f.prepared (pageSector page) = false) →
    rom.Rejects (.erasePage startPage endPage) f
  erase_accepts : ∀ startPage endPage f, startPage ≤ endPage →
    endPage.toNat * flashPageSizeBytes < flashSizeBytes →
    (∀ page, startPage.toNat ≤ page → page ≤ endPage.toNat →
      f.prepared (pageSector page) = true) →
    let result := rom (.erasePage startPage endPage) f
    result.1 = .success ∧ ∀ a, result.2.bytes a =
      if startPage.toNat * flashPageSizeBytes ≤ a ∧
        a < (endPage.toNat + 1) * flashPageSizeBytes then 0xFF else f.bytes a
  copy_rejects : ∀ dstAddr src numOfBytes f,
    f.prepared (dstAddr.toNat / flashSectorSizeBytes) = false →
    rom.Rejects (.copyRamToFlash dstAddr src numOfBytes) f
  /-- One page, erased before. -/
  copy_accepts : ∀ dstAddr src f, dstAddr.toNat % flashPageSizeBytes = 0 →
    dstAddr.toNat + flashPageSizeBytes ≤ flashSizeBytes →
    f.prepared (dstAddr.toNat / flashSectorSizeBytes) = true →
    (∀ i, i < flashPageSizeBytes → f.bytes (dstAddr.toNat + i) = 0xFF) →
    let result := rom (.copyRamToFlash dstAddr src (BitVec.ofNat 32 flashPageSizeBytes)) f
    result.1 = .success ∧ ∀ a, result.2.bytes a =
      if dstAddr.toNat ≤ a ∧ a < dstAddr.toNat + flashPageSizeBytes then src (a - dstAddr.toNat)
      else f.bytes a

/-! ## A ROM that does so -/

def pagesPrepared (startPage endPage : BitVec 32) (f : Flash) : Bool :=
  (List.range' startPage.toNat (endPage.toNat + 1 - startPage.toNat)).all
    fun page => f.prepared (pageSector page)

theorem pagesPrepared_iff (startPage endPage : BitVec 32) (f : Flash) :
    pagesPrepared startPage endPage f = true ↔ ∀ page, startPage.toNat ≤ page →
      page ≤ endPage.toNat → f.prepared (pageSector page) = true := by
  rw [pagesPrepared, List.all_eq_true]
  refine forall_congr' fun page => ?_
  rw [List.mem_range'_1]
  constructor
  · intro h hlow hhigh
    exact h ⟨hlow, by omega⟩
  · intro h hpage
    exact h hpage.1 (by omega)

/-- The pages erased, and all sectors protected again. -/
def erased (startPage endPage : BitVec 32) (f : Flash) : Flash where
  bytes := fun a =>
    if startPage.toNat * flashPageSizeBytes ≤ a ∧ a < (endPage.toNat + 1) * flashPageSizeBytes
    then 0xFF else f.bytes a
  prepared := fun _ => false

/-- The bytes programmed, which only clears bits, and all sectors protected again. -/
def programmed (dstAddr : BitVec 32) (src : Nat → BitVec 8) (numOfBytes : BitVec 32) (f : Flash) :
    Flash where
  bytes := fun a =>
    if dstAddr.toNat ≤ a ∧ a < dstAddr.toNat + numOfBytes.toNat then
      f.bytes a &&& src (a - dstAddr.toNat)
    else f.bytes a
  prepared := fun _ => false

def reference : Rom
  | .prepareSectorForWrite startSector endSector, f =>
    if endSector < startSector ∨ flashSizeBytes ≤ endSector.toNat * flashSectorSizeBytes then
      (.invalidSector, f)
    else
      (.success, { f with
        prepared := fun k => f.prepared k ||
          decide (startSector.toNat ≤ k ∧ k ≤ endSector.toNat) })
  | .erasePage startPage endPage, f =>
    if endPage < startPage ∨ flashSizeBytes ≤ endPage.toNat * flashPageSizeBytes then
      (.invalidSector, f)
    else if pagesPrepared startPage endPage f then (.success, erased startPage endPage f)
    else (.notPrepared, f)
  | .copyRamToFlash dstAddr src numOfBytes, f =>
    if dstAddr.toNat % flashPageSizeBytes ≠ 0 then (.dstAddrError, f)
    else if flashSizeBytes < dstAddr.toNat + numOfBytes.toNat then (.dstAddrNotMapped, f)
    else if numOfBytes.toNat = 0 ∨ numOfBytes.toNat % flashPageSizeBytes ≠ 0 ∨
        flashSectorSizeBytes < numOfBytes.toNat then (.countError, f)
    else if f.prepared (dstAddr.toNat / flashSectorSizeBytes) &&
        f.prepared ((dstAddr.toNat + numOfBytes.toNat - 1) / flashSectorSizeBytes) then
      (.success, programmed dstAddr src numOfBytes f)
    else (.notPrepared, f)

/-- A test in front of the rest of a command that rejects. -/
theorem rejects_ite {c : Prop} [Decidable c] {status : IapStatus} {r : IapStatus × Flash}
    {f : Flash} (hstatus : status ≠ .success) (hr : r.1 ≠ .success ∧ r.2 = f) :
    (if c then (status, f) else r).1 ≠ .success ∧ (if c then (status, f) else r).2 = f := by
  split
  · exact ⟨hstatus, rfl⟩
  · exact hr

theorem reference_documented : reference.Documented where
  prepare_rejects startSector endSector f h := by
    have hresult : reference (.prepareSectorForWrite startSector endSector) f =
        (.invalidSector, f) := if_pos (Or.inl h)
    rw [Rejects, hresult]
    exact ⟨IapStatus.noConfusion, rfl⟩
  prepare_accepts startSector endSector f hle hsize := by
    have hvalid : ¬ (endSector < startSector ∨
        flashSizeBytes ≤ endSector.toNat * flashSectorSizeBytes) := by
      rw [BitVec.lt_def]
      rw [BitVec.le_def] at hle
      omega
    have hresult : reference (.prepareSectorForWrite startSector endSector) f = (.success, { f with
        prepared := fun k => f.prepared k ||
          decide (startSector.toNat ≤ k ∧ k ≤ endSector.toNat) }) := if_neg hvalid
    rw [hresult]
    refine ⟨rfl, rfl, fun k hlow hhigh => ?_⟩
    dsimp only
    rw [decide_eq_true ⟨hlow, hhigh⟩, Bool.or_true]
  erase_rejects startPage endPage f h := by
    rw [Rejects, reference]
    obtain hend | ⟨page, hlow, hhigh, hpage⟩ := h
    · rw [if_pos (Or.inl hend)]
      exact ⟨IapStatus.noConfusion, rfl⟩
    · have hnone : ¬ pagesPrepared startPage endPage f = true := by
        rw [pagesPrepared_iff]
        exact fun hall => absurd (hall page hlow hhigh) (by rw [hpage]; exact Bool.noConfusion)
      rw [if_neg hnone]
      exact rejects_ite IapStatus.noConfusion ⟨IapStatus.noConfusion, rfl⟩
  erase_accepts startPage endPage f hle hsize hprepared := by
    have hvalid : ¬ (endPage < startPage ∨
        flashSizeBytes ≤ endPage.toNat * flashPageSizeBytes) := by
      rw [BitVec.lt_def]
      rw [BitVec.le_def] at hle
      omega
    have hall := (pagesPrepared_iff startPage endPage f).mpr hprepared
    have hresult : reference (.erasePage startPage endPage) f =
        (.success, erased startPage endPage f) := by
      rw [reference, if_neg hvalid, if_pos hall]
    rw [hresult]
    exact ⟨rfl, fun _ => rfl⟩
  copy_rejects dstAddr src numOfBytes f h := by
    rw [Rejects, reference, h, Bool.false_and]
    exact rejects_ite IapStatus.noConfusion (rejects_ite IapStatus.noConfusion
      (rejects_ite IapStatus.noConfusion ⟨IapStatus.noConfusion, rfl⟩))
  copy_accepts dstAddr src f halign hsize hprepared herased := by
    have hcount : (BitVec.ofNat 32 flashPageSizeBytes).toNat = 64 := rfl
    have hsector : (dstAddr.toNat + 64 - 1) / flashSectorSizeBytes =
        dstAddr.toNat / flashSectorSizeBytes := by
      simp only [flashPageSizeBytes, flashSectorSizeBytes] at halign ⊢
      omega
    have hresult : reference (.copyRamToFlash dstAddr src (BitVec.ofNat 32 flashPageSizeBytes)) f =
        (.success, programmed dstAddr src (BitVec.ofNat 32 flashPageSizeBytes) f) := by
      rw [reference, hcount, hsector, hprepared, if_neg (not_not_intro halign),
        if_neg (Nat.not_lt.mpr hsize), if_neg (by decide)]
      rfl
    rw [hresult]
    refine ⟨rfl, fun a => ?_⟩
    dsimp only [programmed]
    rw [hcount]
    by_cases hin : dstAddr.toNat ≤ a ∧ a < dstAddr.toNat + 64
    · have hbyte := herased (a - dstAddr.toNat) (by simp only [flashPageSizeBytes]; omega)
      rw [Nat.add_sub_cancel' hin.1] at hbyte
      have hones : (0xFF : BitVec 8) = BitVec.allOnes 8 := rfl
      rw [if_pos hin, if_pos hin, hbyte, hones, BitVec.allOnes_and]
    · rw [if_neg hin, if_neg hin]

end Rom

end Recirculador
