/-
The bit rate of the I2C master.

`_I2C_PrimarySetBaudRate` looks for a divider of the clock and a length of the SCL phases.  It
leaves out most pairs: for each length it tries one divider, and it stops at the first exact
pair and at the first divider that had to be cut down.  Nothing is lost by that.  The bus is
never slower than asked for, and of the settings with two equal phases that are fast enough none
comes closer.
-/
import Recirculador.Board

namespace Recirculador

/-! ## The registers -/

/-- `I2C_CLKDIV_DIVVAL`. -/
def i2cClkdivDivval (x : BitVec 32) : BitVec 32 := x &&& 0xFFFF#32

/-- `I2C_MSTTIME_MSTSCLLOW`. -/
def i2cMsttimeMstscllow (x : BitVec 32) : BitVec 32 := x &&& 0x7#32

/-- `I2C_MSTTIME_MSTSCLHIGH`. -/
def i2cMsttimeMstsclhigh (x : BitVec 32) : BitVec 32 := (x <<< 4) &&& 0x70#32

/-- `I2C0->CLKDIV` and `I2C0->MSTTIME`. -/
structure I2cTiming where
  clkdiv : BitVec 32
  msttime : BitVec 32

/-- The cycles of the source clock in one cycle of SCL, as the controller reads the registers:
the divider is one more than its field, each phase two more than its own. -/
def I2cTiming.sclCycles (t : I2cTiming) : Nat :=
  ((t.clkdiv &&& 0xFFFF#32).toNat + 1) *
    (((t.msttime &&& 0x7#32).toNat + 2) + (((t.msttime >>> 4) &&& 0x7#32).toNat + 2))

/-! ## The search -/

/-- `best_scl`, `best_div` and `best_err`; a `best_err` of 0 says that there is none yet. -/
structure BestRate where
  scl : BitVec 32
  div : BitVec 32
  err : BitVec 32

/-- The divider a turn of the loop tries. -/
def dividerFor (baudRateBps srcClockHz scl : BitVec 32) : BitVec 32 :=
  let divider := srcClockHz / (baudRateBps * scl * 2)
  if divider > 0x10000 then 0x10000 else divider

def rateErr (baudRateBps srcClockHz scl divider : BitVec 32) : BitVec 32 :=
  srcClockHz - baudRateBps * scl * 2 * divider

/-- The loop over the lengths still to try. -/
def rateLoop (baudRateBps srcClockHz : BitVec 32) : List (BitVec 32) → BestRate → BestRate
  | [], best => best
  | scl :: scls, best =>
    let divider := dividerFor baudRateBps srcClockHz scl
    let err := rateErr baudRateBps srcClockHz scl divider
    let best := if err < best.err ∨ best.err = 0 then { scl, div := divider, err } else best
    if err = 0 ∨ divider ≥ 0x10000 then best else rateLoop baudRateBps srcClockHz scls best

/-- `_I2C_PrimarySetBaudRate`; `best_scl` and `best_div` hold anything at first. -/
def i2cPrimarySetBaudRate (scl div : BitVec 32) (baudRateBps srcClockHz : BitVec 32) : I2cTiming :=
  let best := rateLoop baudRateBps srcClockHz [9, 8, 7, 6, 5, 4, 3, 2] { scl, div, err := 0 }
  { clkdiv := i2cClkdivDivval (best.div - 1)
    msttime := i2cMsttimeMstscllow (best.scl - 2) ||| i2cMsttimeMstsclhigh (best.scl - 2) }

namespace BestRate

/-! ## One turn -/

variable {baud src scl : BitVec 32}

/-- The divisor of a turn does not wrap. -/
theorem toNat_divisor (hbaud : 18 * baud.toNat < 4294967296) (hscl : scl.toNat ≤ 9) :
    (baud * scl * 2).toNat = baud.toNat * scl.toNat * 2 := by
  have hmul : baud.toNat * scl.toNat ≤ baud.toNat * 9 := Nat.mul_le_mul_left _ hscl
  have hfirst : (baud * scl).toNat = baud.toNat * scl.toNat := by
    rw [BitVec.toNat_mul]
    exact Nat.mod_eq_of_lt (by omega)
  rw [BitVec.toNat_mul, hfirst]
  exact Nat.mod_eq_of_lt (by simp; omega)

theorem toNat_dividerFor (hbaud : 18 * baud.toNat < 4294967296) (hscl : scl.toNat ≤ 9) :
    (dividerFor baud src scl).toNat =
      min (src.toNat / (baud.toNat * scl.toNat * 2)) 65536 := by
  have hdiv : (src / (baud * scl * 2)).toNat = src.toNat / (baud.toNat * scl.toNat * 2) := by
    rw [BitVec.toNat_udiv, toNat_divisor hbaud hscl]
  unfold dividerFor
  dsimp only
  split
  · rename_i hbig
    have hlt : 65536 < (src / (baud * scl * 2)).toNat := BitVec.lt_def.mp hbig
    rw [hdiv] at hlt
    show 65536 = _
    omega
  · rename_i hsmall
    have hle : ¬ 65536 < (src / (baud * scl * 2)).toNat := fun h => hsmall (BitVec.lt_def.mpr h)
    rw [hdiv] at hle ⊢
    omega

/-- The divider never asks for more cycles than the clock has. -/
theorem cycles_le (hbaud : 18 * baud.toNat < 4294967296) (hscl : scl.toNat ≤ 9) :
    baud.toNat * scl.toNat * 2 * (dividerFor baud src scl).toNat ≤ src.toNat := by
  rw [toNat_dividerFor hbaud hscl]
  exact Nat.le_trans (Nat.mul_le_mul_left _ (Nat.min_le_left _ _)) (Nat.mul_div_le _ _)

theorem toNat_rateErr (hbaud : 18 * baud.toNat < 4294967296) (hscl : scl.toNat ≤ 9) :
    (rateErr baud src scl (dividerFor baud src scl)).toNat =
      src.toNat - baud.toNat * scl.toNat * 2 * (dividerFor baud src scl).toNat := by
  have hle : baud.toNat * scl.toNat * 2 * (dividerFor baud src scl).toNat ≤ src.toNat :=
    cycles_le hbaud hscl
  have hsrc := src.isLt
  have hprod : (baud * scl * 2 * dividerFor baud src scl).toNat =
      baud.toNat * scl.toNat * 2 * (dividerFor baud src scl).toNat := by
    rw [BitVec.toNat_mul, toNat_divisor hbaud hscl]
    exact Nat.mod_eq_of_lt (by omega)
  rw [rateErr, BitVec.toNat_sub_of_le (BitVec.le_def.mpr (hprod ▸ hle)), hprod]

/-- No other divider of this length takes up more of the clock. -/
theorem dividerFor_best (hbaud : 18 * baud.toNat < 4294967296) (hpos : 0 < baud.toNat)
    (hscl : scl.toNat ≤ 9) (hscl' : 0 < scl.toNat) {div : Nat} (hdiv : div ≤ 65536)
    (hfit : baud.toNat * scl.toNat * 2 * div ≤ src.toNat) :
    baud.toNat * scl.toNat * 2 * div ≤
      baud.toNat * scl.toNat * 2 * (dividerFor baud src scl).toNat := by
  refine Nat.mul_le_mul_left _ ?_
  rw [toNat_dividerFor hbaud hscl]
  have hdivisor : 0 < baud.toNat * scl.toNat * 2 :=
    Nat.mul_pos (Nat.mul_pos hpos hscl') (by omega)
  have hquot : div ≤ src.toNat / (baud.toNat * scl.toNat * 2) := by
    rw [Nat.le_div_iff_mul_le hdivisor, Nat.mul_comm]
    exact hfit
  exact Nat.le_min.mpr ⟨hquot, hdiv⟩

/-! ## The loop -/

/-- The clock cycles a pair takes for a second of bits. -/
def cycles (baud : BitVec 32) (best : BestRate) : Nat :=
  baud.toNat * best.scl.toNat * 2 * best.div.toNat

/-- The best pair is one of those seen, and none of the lengths seen has a better one. -/
structure Leads (baud src : BitVec 32) (seen : List (BitVec 32)) (best : BestRate) : Prop where
  scl : best.scl ∈ seen
  div : best.div.toNat ≤ 65536
  err : best.err.toNat + best.cycles baud = src.toNat
  least : ∀ scl ∈ seen, ∀ div, div ≤ 65536 → baud.toNat * scl.toNat * 2 * div ≤ src.toNat →
    baud.toNat * scl.toNat * 2 * div ≤ best.cycles baud

/-- The pair a turn tries. -/
def tried (baud src scl : BitVec 32) : BestRate where
  scl := scl
  div := dividerFor baud src scl
  err := rateErr baud src scl (dividerFor baud src scl)

variable {seen : List (BitVec 32)} {best : BestRate}

theorem tried_leads (hbaud : 18 * baud.toNat < 4294967296) (hpos : 0 < baud.toNat)
    (hscl : 0 < scl.toNat ∧ scl.toNat ≤ 9) : Leads baud src [scl] (tried baud src scl) where
  scl := List.mem_singleton_self scl
  div := by
    show (dividerFor baud src scl).toNat ≤ 65536
    rw [toNat_dividerFor hbaud hscl.2]
    exact Nat.min_le_right _ _
  err := by
    show (rateErr baud src scl (dividerFor baud src scl)).toNat + _ = _
    rw [toNat_rateErr hbaud hscl.2]
    exact Nat.sub_add_cancel (cycles_le hbaud hscl.2)
  least := by
    intro scl' hmem div hdiv hfit
    obtain rfl := List.mem_singleton.mp hmem
    exact dividerFor_best hbaud hpos hscl.2 hscl.1 hdiv hfit

/-- What a turn keeps is the better of the two pairs. -/
theorem turn_leads (hbest : best.err = 0 ∧ seen = [] ∨ best.err ≠ 0 ∧ Leads baud src seen best)
    {new : BestRate} (hnew : Leads baud src [scl] new) :
    Leads baud src (seen ++ [scl]) (if new.err < best.err ∨ best.err = 0 then new else best) := by
  rcases hbest with ⟨hnone, rfl⟩ | ⟨hsome, hleads⟩
  · rw [if_pos (Or.inr hnone)]
    exact hnew
  have hbalance := hleads.err
  have hbalance' := hnew.err
  split
  · rename_i htake
    have hlt : new.err.toNat < best.err.toNat := BitVec.lt_def.mp (htake.resolve_right hsome)
    refine ⟨List.mem_append_right _ hnew.scl, hnew.div, hnew.err, ?_⟩
    intro scl' hmem div hdiv hfit
    rcases List.mem_append.mp hmem with hold | hthis
    · have hle := hleads.least scl' hold div hdiv hfit
      omega
    · exact hnew.least scl' hthis div hdiv hfit
  · rename_i hkeep
    have hge : ¬ new.err.toNat < best.err.toNat := fun h => hkeep (Or.inl (BitVec.lt_def.mpr h))
    refine ⟨List.mem_append_left _ hleads.scl, hleads.div, hleads.err, ?_⟩
    intro scl' hmem div hdiv hfit
    rcases List.mem_append.mp hmem with hold | hthis
    · exact hleads.least scl' hold div hdiv hfit
    · have hle := hnew.least scl' hthis div hdiv hfit
      omega

/-- An exact pair, or a divider at its end, leaves nothing for the shorter lengths. -/
theorem Leads.stop (h : Leads baud src seen best) {new : BestRate}
    (hnew : Leads baud src [scl] new) (hle : new.cycles baud ≤ best.cycles baud)
    (hstop : new.err = 0 ∨ new.div ≥ 0x10000) {scls : List (BitVec 32)}
    (hshorter : ∀ scl' ∈ scls, scl'.toNat ≤ scl.toNat) : Leads baud src (seen ++ scls) best := by
  refine ⟨List.mem_append_left _ h.scl, h.div, h.err, ?_⟩
  intro scl' hmem div hdiv hfit
  rcases List.mem_append.mp hmem with hold | hrest
  · exact h.least scl' hold div hdiv hfit
  have hbalance := hnew.err
  rcases hstop with hexact | hend
  · have hzero : new.err.toNat = 0 := by rw [hexact]; rfl
    omega
  · have hdivs : 65536 ≤ new.div.toNat := BitVec.le_def.mp hend
    have hscl : new.scl = scl := List.mem_singleton.mp hnew.scl
    have hlen := hshorter scl' hrest
    calc baud.toNat * scl'.toNat * 2 * div
      _ ≤ baud.toNat * scl.toNat * 2 * div :=
        Nat.mul_le_mul_right _ (Nat.mul_le_mul_right _ (Nat.mul_le_mul_left _ hlen))
      _ ≤ baud.toNat * scl.toNat * 2 * new.div.toNat :=
        Nat.mul_le_mul_left _ (Nat.le_trans hdiv hdivs)
      _ = new.cycles baud := by rw [cycles, hscl]
      _ ≤ best.cycles baud := hle

theorem rateLoop_leads (hbaud : 18 * baud.toNat < 4294967296) (hpos : 0 < baud.toNat)
    (scls : List (BitVec 32)) :
    ∀ (scl : BitVec 32) (seen : List (BitVec 32)) (best : BestRate),
      (best.err = 0 ∧ seen = [] ∨ best.err ≠ 0 ∧ Leads baud src seen best) →
      (∀ s ∈ scl :: scls, 0 < s.toNat ∧ s.toNat ≤ 9) →
      (scl :: scls).Pairwise (fun a b => b.toNat ≤ a.toNat) →
      Leads baud src (seen ++ scl :: scls) (rateLoop baud src (scl :: scls) best) := by
  induction scls with
  | nil =>
    intro scl seen best hbest hrange _
    have hnew : Leads baud src [scl] (tried baud src scl) :=
      tried_leads hbaud hpos (hrange scl List.mem_cons_self)
    have hturn := turn_leads hbest hnew
    rw [rateLoop, rateLoop, ite_self]
    exact hturn
  | cons next scls ih =>
    intro scl seen best hbest hrange hsorted
    have hnew : Leads baud src [scl] (tried baud src scl) :=
      tried_leads hbaud hpos (hrange scl List.mem_cons_self)
    have hturn := turn_leads hbest hnew
    have hshorter : ∀ s ∈ next :: scls, s.toNat ≤ scl.toNat :=
      fun s hs => List.rel_of_pairwise_cons hsorted hs
    rw [List.append_cons, rateLoop]
    show Leads baud src _ (if (tried baud src scl).err = 0 ∨ (tried baud src scl).div ≥ 0x10000 then
      (if (tried baud src scl).err < best.err ∨ best.err = 0 then tried baud src scl else best)
      else rateLoop baud src (next :: scls)
        (if (tried baud src scl).err < best.err ∨ best.err = 0 then tried baud src scl else best))
    split
    · rename_i hstop
      have hle := hturn.least scl (List.mem_append_right _ (List.mem_singleton_self scl))
        (tried baud src scl).div.toNat hnew.div (cycles_le hbaud (hrange scl List.mem_cons_self).2)
      exact hturn.stop hnew hle hstop hshorter
    · rename_i hgo
      refine ih next _ _ (Or.inr ⟨?_, hturn⟩) (fun s hs => hrange s (List.mem_cons_of_mem _ hs))
        hsorted.tail
      split
      · exact fun h => hgo (Or.inl h)
      · rename_i hkeep
        exact fun h => hkeep (Or.inr h)

/-! ## The registers it leaves -/

/-- `best_scl` from 9 to 2. -/
def lengths : List (BitVec 32) := [9, 8, 7, 6, 5, 4, 3, 2]

/-- To look at the lengths one by one. -/
theorem length_cases {P : BitVec 32 → Prop}
    (h : P 9 ∧ P 8 ∧ P 7 ∧ P 6 ∧ P 5 ∧ P 4 ∧ P 3 ∧ P 2) : ∀ scl ∈ lengths, P scl := by
  intro scl hscl
  obtain ⟨h9, h8, h7, h6, h5, h4, h3, h2⟩ := h
  simp only [lengths, List.mem_cons, List.not_mem_nil, or_false] at hscl
  rcases hscl with rfl | rfl | rfl | rfl | rfl | rfl | rfl | rfl <;> assumption

theorem lengths_range : ∀ scl ∈ lengths, 2 ≤ scl.toNat ∧ scl.toNat ≤ 9 :=
  length_cases (by decide)

theorem length_mem {n : Nat} (hlo : 2 ≤ n) (hhi : n ≤ 9) : ∃ scl ∈ lengths, scl.toNat = n := by
  refine ⟨BitVec.ofNat 32 n, ?_, ?_⟩
  · have hall : ∀ n ≤ 9, 2 ≤ n → BitVec.ofNat 32 n ∈ lengths := by decide
    exact hall n hhi hlo
  · rw [BitVec.toNat_ofNat]
    exact Nat.mod_eq_of_lt (by omega)

/-- The search as a whole. -/
theorem rateLoop_best (hbaud : 18 * baud.toNat < 4294967296) (hpos : 0 < baud.toNat)
    (scl div : BitVec 32) :
    Leads baud src lengths (rateLoop baud src lengths { scl, div, err := 0 }) := by
  refine rateLoop_leads hbaud hpos [8, 7, 6, 5, 4, 3, 2] 9 [] _ (Or.inl ⟨rfl, rfl⟩) ?_ ?_
  · intro s hs
    have hrange := lengths_range s hs
    omega
  · decide

theorem toNat_and_ffff (x : BitVec 32) : (x &&& 0xFFFF#32).toNat = x.toNat % 65536 := by
  rw [BitVec.toNat_and]
  exact Nat.and_two_pow_sub_one_eq_mod _ 16

/-- The phases of each length come back out of `MSTTIME`. -/
theorem phases_of_length : ∀ scl ∈ lengths,
    let msttime := i2cMsttimeMstscllow (scl - 2) ||| i2cMsttimeMstsclhigh (scl - 2)
    (msttime &&& 0x7#32).toNat + 2 = scl.toNat ∧
      ((msttime >>> 4) &&& 0x7#32).toNat + 2 = scl.toNat :=
  length_cases (by decide)

variable {srcClockHz baudRateBps scl div : BitVec 32}

theorem clkdiv_of_div {div : BitVec 32} (hpos : 0 < div.toNat) (hdiv : div.toNat ≤ 65536) :
    (i2cClkdivDivval (div - 1) &&& 0xFFFF#32).toNat + 1 = div.toNat := by
  have hle : (1 : BitVec 32) ≤ div := BitVec.le_def.mpr hpos
  have hsub : (div - 1).toNat = div.toNat - 1 := BitVec.toNat_sub_of_le hle
  rw [toNat_and_ffff, i2cClkdivDivval, toNat_and_ffff, hsub]
  omega

/-- A pair in the registers. -/
def timing (best : BestRate) : I2cTiming where
  clkdiv := i2cClkdivDivval (best.div - 1)
  msttime := i2cMsttimeMstscllow (best.scl - 2) ||| i2cMsttimeMstsclhigh (best.scl - 2)

theorem timing_sclCycles (hscl : best.scl ∈ lengths) (hpos : 0 < best.div.toNat)
    (hdiv : best.div.toNat ≤ 65536) :
    best.timing.sclCycles = best.div.toNat * (best.scl.toNat + best.scl.toNat) := by
  obtain ⟨hlow, hhigh⟩ := phases_of_length best.scl hscl
  rw [I2cTiming.sclCycles, timing, clkdiv_of_div hpos hdiv, hlow, hhigh]

theorem cycles_eq (baud : BitVec 32) (scl div : Nat) :
    baud.toNat * scl * 2 * div = baud.toNat * (div * (scl + scl)) := by
  have hcycles : scl * 2 * div = div * (scl + scl) := by
    rw [Nat.mul_comm, Nat.mul_two]
  rw [Nat.mul_assoc, Nat.mul_assoc, ← Nat.mul_assoc scl, hcycles]

variable {baud src : BitVec 32} {best : BestRate}

theorem Leads.timing_cycles (h : Leads baud src lengths best) (hpos : 0 < best.div.toNat) :
    best.cycles baud = baud.toNat * best.timing.sclCycles := by
  rw [timing_sclCycles h.scl hpos h.div, cycles, cycles_eq]

/-- The shortest length fits with the smallest divider if the clock is four times the rate. -/
theorem Leads.div_pos (h : Leads baud src lengths best) (hpos : 0 < baud.toNat)
    (hsrc : 4 * baud.toNat ≤ src.toNat) : 0 < best.div.toNat := by
  have hleast : baud.toNat * 2 * 2 * 1 ≤ src.toNat → baud.toNat * 2 * 2 * 1 ≤ best.cycles baud :=
    h.least 2 (by decide) 1 (by omega)
  rcases Nat.eq_zero_or_pos best.div.toNat with hzero | hdiv
  · have hnone := hleast (by omega)
    rw [cycles, hzero, Nat.mul_zero] at hnone
    omega
  · exact hdiv

/-- And no length fits with any divider if it is not. -/
theorem Leads.div_zero (h : Leads baud src lengths best) (hsrc : src.toNat < 4 * baud.toNat) :
    best.div = 0 := by
  have hbalance := h.err
  apply BitVec.eq_of_toNat_eq
  apply Classical.byContradiction
  intro hne
  have hone : 1 ≤ best.div.toNat := Nat.pos_of_ne_zero hne
  have hmin : baud.toNat * 2 * 2 * 1 ≤ best.cycles baud :=
    Nat.mul_le_mul (Nat.mul_le_mul_right _
      (Nat.mul_le_mul_left _ (lengths_range best.scl h.scl).1)) hone
  omega

end BestRate

namespace I2cTiming

/-- Both phases of SCL have one length, the only settings the search considers. -/
def Even (t : I2cTiming) : Prop := t.msttime &&& 0x7#32 = (t.msttime >>> 4) &&& 0x7#32

/-- An even setting is a pair of the search. -/
theorem Even.pair {t : I2cTiming} (h : t.Even) :
    ∃ scl ∈ BestRate.lengths, ∃ div ≤ 65536, t.sclCycles = div * (scl.toNat + scl.toNat) := by
  have hphase : (t.msttime &&& 0x7#32).toNat ≤ 7 := by
    rw [BitVec.toNat_and]
    exact Nat.and_le_right
  have hfield : (t.clkdiv &&& 0xFFFF#32).toNat + 1 ≤ 65536 := by
    rw [BestRate.toNat_and_ffff]
    omega
  obtain ⟨scl, hmem, hscl⟩ := BestRate.length_mem
    (show 2 ≤ (t.msttime &&& 0x7#32).toNat + 2 by omega) (by omega)
  refine ⟨scl, hmem, _, hfield, ?_⟩
  rw [sclCycles, ← h, hscl]

end I2cTiming

/-- The rate is never below the one asked for, and no even setting that is not below it comes
closer.  A rate too high for the clock gets the slowest divider instead. -/
theorem i2cPrimarySetBaudRate_closest (scl div baud src : BitVec 32) (hpos : 0 < baud.toNat)
    (hbaud : 18 * baud.toNat < 4294967296) :
    let t := i2cPrimarySetBaudRate scl div baud src
    (4 * baud.toNat ≤ src.toNat → baud.toNat * t.sclCycles ≤ src.toNat ∧
        ∀ t' : I2cTiming, t'.Even → baud.toNat * t'.sclCycles ≤ src.toNat →
          t'.sclCycles ≤ t.sclCycles) ∧
      (src.toNat < 4 * baud.toNat → t.clkdiv = 0xFFFF) := by
  intro t
  have hbest : BestRate.Leads baud src BestRate.lengths
      (rateLoop baud src BestRate.lengths { scl, div, err := 0 }) :=
    BestRate.rateLoop_best hbaud hpos scl div
  generalize hb : rateLoop baud src BestRate.lengths { scl, div, err := 0 } = best at hbest
  have ht : t = best.timing := by rw [← hb]; rfl
  refine ⟨fun hsrc => ?_, fun hsrc => ?_⟩
  · have hcycles := hbest.timing_cycles (hbest.div_pos hpos hsrc)
    have hbalance := hbest.err
    rw [ht]
    refine ⟨by omega, fun t' heven hfit => ?_⟩
    obtain ⟨scl', hmem, div', hdiv', hpair⟩ := heven.pair
    have hle := hbest.least scl' hmem div' hdiv'
    rw [BestRate.cycles_eq, ← hpair, hcycles] at hle
    exact Nat.le_of_mul_le_mul_left (hle hfit) hpos
  · rw [ht, BestRate.timing, hbest.div_zero hsrc]
    show i2cClkdivDivval (0 - 1) = 0xFFFF
    decide

/-- 400 kHz from the 15 MHz the board runs at. -/
theorem i2cPrimarySetBaudRate_closest_board :
    let t := i2cPrimarySetBaudRate 0 0 400000 15000000
    (4 * (400000#32).toNat ≤ (15000000#32).toNat →
      (400000#32).toNat * t.sclCycles ≤ (15000000#32).toNat ∧
        ∀ t' : I2cTiming, t'.Even → (400000#32).toNat * t'.sclCycles ≤ (15000000#32).toNat →
          t'.sclCycles ≤ t.sclCycles) ∧
      ((15000000#32).toNat < 4 * (400000#32).toNat → t.clkdiv = 0xFFFF) :=
  i2cPrimarySetBaudRate_closest 0 0 400000 15000000 (by decide) (by decide)

end Recirculador
