/-
The answer to a request for registers.

A slave that is asked for `n` registers answers with the function code, the number of data
bytes, the values and the checksum: bools eight a byte from the top bit on, shorts and ints
from their low byte on.  Whatever the values, the handler of the request leaves each in its
register and every other register as it was, as long as the driver can read the whole reply.
-/
import Recirculador.Message.Match
import Recirculador.Registers.Refinement

namespace Recirculador

open SysRegMap Registers

/-! ## The data of an answer -/

/-- The data bytes `n` registers of a bank take. -/
def Bank.dataLength : Bank → Nat → Nat
  | .bool, n => (n + 7) / 8
  | .short, n => 2 * n
  | .int, n => 4 * n

/-- The first `m` bits of a byte, from the top. -/
def packBits (value : Nat → Bool) (m : Nat) : BitVec 8 :=
  (List.range m).foldl (fun byte p => boolWrite (value p) p byte) 0

/-- Byte `j` of the data. -/
def Bank.dataByte (n : Nat) : (b : Bank) → (Nat → b.Value) → Nat → BitVec 8
  | .bool, values, j => packBits (fun p => decide (8 * j + p < n) && values (8 * j + p)) 8
  | .short, values, j => (values (j / 2)).extractLsb' (8 * (j % 2)) 8
  | .int, values, j => (values (j / 4)).extractLsb' (8 * (j % 4)) 8

/-- What the slave sends before the checksum. -/
def answerBytes (code : BitVec 8) (b : Bank) (n : Nat) (values : Nat → b.Value) :
    List (BitVec 8) :=
  code :: BitVec.ofNat 8 (b.dataLength n) :: (List.range (b.dataLength n)).map (b.dataByte n values)

/-- The codes that ask for numbers. -/
def numberCodes : List (BitVec 8) :=
  [Modbus.getDiscreteInput, Modbus.getNumReg, Modbus.readInputReg, Modbus.rwMultRegisters]

/-- The codes that ask for registers of a bank. -/
def Bank.readCodes : Bank → List (BitVec 8)
  | .bool => [Modbus.getBoolReg]
  | .short => numberCodes
  | .int => numberCodes

/-- The request at the pointer asks for registers `k` to `k + n - 1` of a bank. -/
structure Asks (m : I2cModbus) (b : Bank) (k n : Nat) : Prop where
  code : m.code ∈ b.readCodes
  regAddr : m.regAddr = BitVec.ofNat 16 (b.offset + k)
  nReg : m.nReg = BitVec.ofNat 16 n
  some : 0 < n
  fits : k + n ≤ 128

/-- The registers asked for read the values, and every other one reads as before. -/
structure Stored (b : Bank) (k n : Nat) (values : Nat → b.Value) (r r' : Registers) : Prop where
  reads : ∀ i < n, regReadScalar b (b.offset + (k + i)) r' = values i
  others : ∀ (c : Bank) (j : Nat), j < 128 → c ≠ b ∨ j < k ∨ k + n ≤ j →
    regReadScalar c (c.offset + j) r' = regReadScalar c (c.offset + j) r

/-! ## The bytes -/

theorem getLsbD_packBits (value : Nat → Bool) {m q : Nat} (hm : m ≤ 8) (hq : q < 8) :
    (packBits value m).getLsbD (7 - q) = (decide (q < m) && value q) := by
  induction m with
  | zero => simp [packBits]
  | succ m ih =>
    have hstep : packBits value (m + 1) = boolWrite (value m) m (packBits value m) := by
      rw [packBits, List.range_succ, List.foldl_append]
      rfl
    rw [hstep, getLsbD_boolWrite _ _ (by omega) hq, ih (by omega)]
    by_cases hlast : q = m
    · subst hlast
      simp
    · have hsame : (q < m) ↔ (q < m + 1) := by omega
      rw [if_neg hlast, decide_eq_decide.mpr hsame]

/-- A little-endian cell comes back out of its bytes. -/
theorem load_cellBytes {w : Nat} {vec : ByteMemory} {values : Nat → BitVec (8 * w)}
    {i : Nat} (h : ∀ j, j < w → vec (w * i + j) = (values i).extractLsb' (8 * j) 8) :
    ByteMemory.load w vec (w * i) = values i := by
  apply BitVec.eq_of_getLsbD_eq
  intro t ht
  have hsplit : 8 * (t / 8) + t % 8 = t := Nat.div_add_mod t 8
  have hbyte : t / 8 < w := by omega
  have hbit : t % 8 < 8 := Nat.mod_lt t (by omega)
  rw [ByteMemory.getLsbD_load, h (t / 8) hbyte, BitVec.getLsbD_extractLsb', hsplit]
  rw [decide_eq_true ht, decide_eq_true hbit, Bool.true_and, Bool.true_and]

theorem shortAt_dataByte {vec : ByteMemory} {n : Nat} {values : Nat → BitVec 16} {i : Nat}
    (h : ∀ j, j < 2 → vec (2 * i + j) = Bank.short.dataByte n values (2 * i + j)) :
    shortAt vec i = values i := by
  refine load_cellBytes (w := 2) fun j hj => ?_
  have hdiv : (2 * i + j) / 2 = i := by omega
  have hmod : (2 * i + j) % 2 = j := by omega
  rw [h j hj, Bank.dataByte, hdiv, hmod]

theorem intAt_dataByte {vec : ByteMemory} {n : Nat} {values : Nat → BitVec 32} {i : Nat}
    (h : ∀ j, j < 4 → vec (4 * i + j) = Bank.int.dataByte n values (4 * i + j)) :
    intAt vec i = values i := by
  refine load_cellBytes (w := 4) fun j hj => ?_
  have hdiv : (4 * i + j) / 4 = i := by omega
  have hmod : (4 * i + j) % 4 = j := by omega
  rw [h j hj, Bank.dataByte, hdiv, hmod]

/-! ## The frame -/

/-- The answer as the handler finds it in its buffer. -/
def answerReply (code : BitVec 8) (b : Bank) (n : Nat) (values : Nat → b.Value) (i : Nat) :
    BitVec 8 :=
  (answerBytes code b n values ++ crcBytes (crcList (answerBytes code b n values))).getD i 0

variable {code : BitVec 8} {b : Bank} {k n : Nat} {values : Nat → b.Value}

theorem answerBytes_length :
    (answerBytes code b n values).length = 2 + b.dataLength n := by
  simp only [answerBytes, List.length_cons, List.length_map, List.length_range]
  omega

theorem answerReply_count : answerReply code b n values 1 = BitVec.ofNat 8 (b.dataLength n) := rfl

theorem answerReply_data {j : Nat} (hj : j < b.dataLength n) :
    answerReply code b n values (2 + j) = b.dataByte n values j := by
  have hlen : 2 + j < (answerBytes code b n values).length := by
    rw [answerBytes_length]
    omega
  rw [answerReply, List.getD_eq_getElem?_getD, List.getElem?_append_left hlen, answerBytes]
  have hsub : 2 + j = j + 1 + 1 := by omega
  rw [hsub, List.getElem?_cons_succ, List.getElem?_cons_succ, List.getElem?_map,
    List.getElem?_range hj]
  rfl

theorem checkCrc16_answer {len : BitVec 32} (hlen : len = BitVec.ofNat 32 (4 + b.dataLength n))
    (hsmall : b.dataLength n ≤ 512) : checkCrc16 (answerReply code b n values) len = true := by
  have hcheck := checkCrc16_append (answerBytes code b n values)
    (crcList (answerBytes code b n values)) (by rw [answerBytes_length]; omega)
  rw [answerBytes_length] at hcheck
  have hsum : 2 + b.dataLength n + 2 = 4 + b.dataLength n := by omega
  rw [hsum, ← hlen] at hcheck
  exact hcheck.mpr rfl

/-! ## The request -/

theorem toInt_ofNat_half {x : Nat} (hx : x < 32768) : (BitVec.ofNat 16 x).toInt = x := by
  have hnat : (BitVec.ofNat 16 x).toNat = x := by
    rw [BitVec.toNat_ofNat]
    exact Nat.mod_eq_of_lt (by omega)
  rw [BitVec.toInt_eq_toNat_of_lt (by omega), hnat]

theorem toInt_ofNat_word {x : Nat} (hx : x < 32768) : (BitVec.ofNat 32 x).toInt = x := by
  have hnat : (BitVec.ofNat 32 x).toNat = x := by
    rw [BitVec.toNat_ofNat]
    exact Nat.mod_eq_of_lt (by omega)
  rw [BitVec.toInt_eq_toNat_of_lt (by omega), hnat]

theorem signExtend_ofNat {x : Nat} (hx : x < 32768) :
    (BitVec.ofNat 16 x).signExtend 32 = BitVec.ofNat 32 x := by
  apply BitVec.eq_of_toInt_eq
  rw [BitVec.toInt_signExtend_of_le (by decide), toInt_ofNat_half hx, toInt_ofNat_word hx]

theorem Bank.offset_le (b : Bank) : b.offset ≤ 5000 := by
  cases b <;> decide

namespace Asks

variable {m : I2cModbus}

theorem toInt_nReg (h : Asks m b k n) : m.nReg.toInt = n := by
  have hfits := h.fits
  rw [h.nReg, toInt_ofNat_half (by omega)]

theorem nReg_word (h : Asks m b k n) : m.nReg.signExtend 32 = BitVec.ofNat 32 n := by
  have hfits := h.fits
  rw [h.nReg, signExtend_ofNat (by omega)]

theorem toInt_regAddr (h : Asks m b k n) : m.regAddr.toInt = (b.offset + k : Nat) := by
  have hfits := h.fits
  have hoffset := b.offset_le
  rw [h.regAddr, toInt_ofNat_half (by omega)]

theorem regAddr_word (h : Asks m b k n) :
    m.regAddr.signExtend 32 = BitVec.ofNat 32 (b.offset + k) := by
  have hfits := h.fits
  have hoffset := b.offset_le
  rw [h.regAddr, signExtend_ofNat (by omega)]

theorem regWriteVet_eq (h : Asks m b k n) (vet : ByteMemory) (r : Registers) :
    regWriteVet vet (m.nReg.signExtend 32).toNat (m.regAddr.signExtend 32).toNat r =
      regWriteVet vet n (b.offset + k) r := by
  have hfits := h.fits
  have hoffset := b.offset_le
  have haddr : (BitVec.ofNat 32 (b.offset + k)).toNat = b.offset + k := by
    rw [BitVec.toNat_ofNat]
    exact Nat.mod_eq_of_lt (by omega)
  have hcount : (BitVec.ofNat 32 n).toNat = n := by
    rw [BitVec.toNat_ofNat]
    exact Nat.mod_eq_of_lt (by omega)
  rw [h.nReg_word, h.regAddr_word, haddr, hcount]

/-- A short has two bytes and an int has four. -/
theorem regBytes (h : Asks m b k n) (hb : b ≠ .bool) :
    ∃ w, getRegBytes m.regAddr.toInt = BitVec.ofNat 32 w ∧ b.dataLength n = w * n ∧ 0 < w ∧
      w ≤ 4 := by
  have hfits := h.fits
  have hsome := h.some
  have hbanks : offsetBool = 1000 ∧ offsetShort = 3000 ∧ offsetInt = 5000 ∧ mapEnd = 5999 :=
    ⟨rfl, rfl, rfl, rfl⟩
  rw [h.toInt_regAddr, getRegBytes]
  cases b with
  | bool => exact absurd rfl hb
  | short =>
    refine ⟨2, ?_, rfl, by omega, by omega⟩
    have hplace : Bank.short.offset = offsetShort := rfl
    rw [if_neg (by omega), if_pos (by omega)]
  | int =>
    refine ⟨4, ?_, rfl, by omega, by omega⟩
    have hplace : Bank.int.offset = offsetInt := rfl
    rw [if_neg (by omega), if_neg (by omega), if_pos (by omega)]

end Asks

/-! ## Numbers -/

theorem stored_of_vectorLaw {vec out : ByteMemory} {r : Registers} (hk : k < 128)
    (hfits : k + n ≤ 128) (hlaw : VectorLaw b k n vec out r)
    (hvalues : ∀ i < n, b.element vec i = b.toInt (values i)) :
    Stored b k n values r (regWriteVet vec n (b.offset + k) r) := by
  refine ⟨fun i hi => ?_, fun c j hj hother => ?_⟩
  · have hread := hlaw.reads_back i hi
    rw [element_regReadVet b hk hfits hi, hvalues i hi, cell_eq_toInt, toInt_inj] at hread
    rw [regReadScalar_eq b (by omega), hread]
  · have hframe := hlaw.frame c j hj hother
    rw [cell_eq_toInt, cell_eq_toInt, toInt_inj] at hframe
    rw [regReadScalar_eq c hj, regReadScalar_eq c hj, hframe]

theorem element_answer (hb : b ≠ .bool) {i : Nat} (hi : i < n) :
    b.element (fun i => answerReply code b n values (2 + i)) i = b.toInt (values i) := by
  cases b with
  | bool => exact absurd rfl hb
  | short =>
    have hdata : ∀ j, j < 2 → answerReply code .short n values (2 + (2 * i + j)) =
        Bank.short.dataByte n values (2 * i + j) := fun j hj =>
      answerReply_data (show 2 * i + j < 2 * n by omega)
    exact congrArg BitVec.toInt (shortAt_dataByte hdata)
  | int =>
    have hdata : ∀ j, j < 4 → answerReply code .int n values (2 + (4 * i + j)) =
        Bank.int.dataByte n values (4 * i + j) := fun j hj =>
      answerReply_data (show 4 * i + j < 4 * n by omega)
    exact congrArg BitVec.toInt (intAt_dataByte hdata)

theorem regWriteVet_answer (hb : b ≠ .bool) (hsome : 0 < n) (hfits : k + n ≤ 128)
    {r : Registers} (htell : b = .int →
      ShortsTell k n (fun i => answerReply code b n values (2 + i)) r) :
    Stored b k n values r
      (regWriteVet (fun i => answerReply code b n values (2 + i)) n (b.offset + k) r) := by
  have hk : k < 128 := by omega
  have hlaw : VectorLaw b k n (fun i => answerReply code b n values (2 + i)) (fun _ => 0) r := by
    cases b with
    | bool => exact absurd rfl hb
    | short => exact vectorLaw_short hk hfits _ _ r
    | int => exact (vectorLaw_int_iff hk hfits _ _ r).mpr (htell rfl)
  exact stored_of_vectorLaw hk hfits hlaw fun i hi => element_answer hb hi

variable {e : Exchange} {f : Firmware}

/-- What a handler makes of an answer. -/
def Accepted (b : Bank) (k n : Nat) (values : Nat → b.Value) (f : Firmware)
    (result : Int × Firmware) : Prop :=
  result.1 = replyOK ∧ Stored b k n values f.regs result.2.regs ∧ result.2.queue = f.queue

/-- The bytes of the numbers asked for, and that their answer passes its check. -/
theorem Asks.numberBytes {m : I2cModbus} (h : Asks m b k n) (hb : b ≠ .bool)
    (hlen : 4 + b.dataLength n ≤ 255) (code : BitVec 8) (values : Nat → b.Value) :
    ∃ w, getRegBytes m.regAddr.toInt = BitVec.ofNat 32 w ∧ (0 < w ∧ w ≤ 4) ∧
      (0 < w * n ∧ 4 + w * n ≤ 255) ∧
      checkCrc16 (answerReply code b n values) (BitVec.ofInt 32 (4 + (w * n : Nat))) = true := by
  obtain ⟨w, hw, hlength, hpos, hle⟩ := h.regBytes hb
  have hprod : 4 + w * n ≤ 255 := by
    rw [← hlength]
    exact hlen
  refine ⟨w, hw, ⟨hpos, hle⟩, ⟨Nat.mul_pos hpos h.some, hprod⟩, checkCrc16_answer ?_ (by omega)⟩
  rw [hlength]
  exact BitVec.ofInt_natCast 32 (4 + w * n)

/-- Numbers written as a vector are an answer accepted. -/
theorem accepted_numbers (hasks : Asks f.queue.head b k n) (hb : b ≠ .bool) (htell : b = .int →
      ShortsTell k n (fun i => answerReply code b n values (2 + i)) f.regs) (op : BusOp) :
    Accepted b k n values f (replyOK,
      { f.record op with
        regs := regWriteVet (fun i => answerReply code b n values (2 + i)) n (b.offset + k)
          f.regs }) :=
  ⟨rfl, regWriteVet_answer hb hasks.some hasks.fits htell, rfl⟩

theorem genericReadReg_accepted (hasks : Asks f.queue.head b k n) (hb : b ≠ .bool)
    (hlen : 4 + b.dataLength n ≤ 255) (hreply : e.reply = some (answerReply code b n values))
    (htell : b = .int → ShortsTell k n (fun i => answerReply code b n values (2 + i)) f.regs) :
    Accepted b k n values f (genericReadReg e f) := by
  obtain ⟨w, hw, -, hbound, hcheck⟩ := hasks.numberBytes hb hlen code values
  have hread : e.delivered (4 + (w * n : Nat)) = some (answerReply code b n values) :=
    (e.delivered_of_le (by omega)).trans hreply
  have hbytes : (getRegBytes f.queue.head.regAddr.toInt * f.queue.head.nReg.signExtend 32).toInt =
      (w * n : Nat) := by
    rw [hw, hasks.nReg_word, ← BitVec.ofNat_mul, toInt_ofNat_word (by omega)]
  have hresult : genericReadReg e f = (replyOK,
      { f.record (.readLenght f.queue.head.addr (4 + (w * n : Nat))) with
        regs := regWriteVet (fun i => answerReply code b n values (2 + i)) n (b.offset + k)
          f.regs }) := by
    unfold genericReadReg
    dsimp only [i2cReadLenghtMaster]
    rw [hbytes, if_neg (by omega), hread]
    dsimp only
    rw [if_pos hcheck, hasks.regWriteVet_eq]
    rfl
  rw [hresult]
  exact accepted_numbers hasks hb htell _

theorem rwMultRegisters_accepted (hasks : Asks f.queue.head b k n) (hb : b ≠ .bool)
    (hlen : 4 + b.dataLength n ≤ 255) (hreply : e.reply = some (answerReply code b n values))
    (htell : b = .int → ShortsTell k n (fun i => answerReply code b n values (2 + i)) f.regs) :
    Accepted b k n values f (rwMultRegisters e f) := by
  obtain ⟨w, hw, hwidth, hbound, hcheck⟩ := hasks.numberBytes hb hlen code values
  have hread : e.delivered (4 + (w * n : Nat)) = some (answerReply code b n values) :=
    (e.delivered_of_le (by omega)).trans hreply
  have hshort : (getRegBytes f.queue.head.regAddr.toInt).setWidth 16 = BitVec.ofNat 16 w := by
    rw [hw, BitVec.setWidth_ofNat_of_le (by decide)]
  have hbytes : (BitVec.ofNat 16 w * f.queue.head.nReg).toInt = (w * n : Nat) := by
    rw [hasks.nReg, ← BitVec.ofNat_mul, toInt_ofNat_half (by omega)]
  have hresult : rwMultRegisters e f = (replyOK,
      { f.record (.readLenght f.queue.head.addr (4 + (w * n : Nat))) with
        regs := regWriteVet (fun i => answerReply code b n values (2 + i)) n (b.offset + k)
          f.regs }) := by
    unfold rwMultRegisters
    dsimp only [i2cReadLenghtMaster]
    rw [hshort, if_pos (by rw [toInt_ofNat_half (by omega)]; omega), hbytes, hread]
    dsimp only
    rw [if_pos hcheck, hasks.regWriteVet_eq]
    rfl
  rw [hresult]
  exact accepted_numbers hasks hb htell _

/-! ## Bools -/

theorem bitValue_eq (reply : Nat → BitVec 8) (bit : Nat) :
    bitValue reply bit = (reply (2 + bit / 8)).getLsbD (7 - bit % 8) := by
  have hp : bit % 8 < 8 := Nat.mod_lt bit (by omega)
  rw [bitValue, boolMask_eq hp, BitVec.and_twoPow]
  cases (reply (2 + bit / 8)).getLsbD (7 - bit % 8) with
  | false => rfl
  | true =>
    have hne : BitVec.twoPow 8 (7 - bit % 8) ≠ 0#8 := by
      intro he
      have hbit := congrArg (fun v => v.getLsbD (7 - bit % 8)) he
      simp [show 7 - bit % 8 < 8 by omega] at hbit
    exact decide_eq_true hne

/-- Bit `i` of the data is value `i`. -/
theorem bitValue_answer {values : Nat → Bool} {i : Nat} (hi : i < n) :
    bitValue (answerReply code .bool n values) i = values i := by
  have hp : i % 8 < 8 := Nat.mod_lt i (by omega)
  have hindex : 8 * (i / 8) + i % 8 = i := Nat.div_add_mod i 8
  have hdata : answerReply code .bool n values (2 + i / 8) = Bank.bool.dataByte n values (i / 8) :=
    answerReply_data (show i / 8 < (n + 7) / 8 by omega)
  rw [bitValue_eq, hdata, Bank.dataByte, getLsbD_packBits _ (Nat.le_refl 8) hp, hindex]
  rw [decide_eq_true hp, decide_eq_true hi, Bool.true_and, Bool.true_and]

/-- A bool written, then those above it. -/
theorem Stored.cons {c : Nat} (hfits : k + (c + 1) ≤ 128) {values : Nat → Bool} {r r' : Registers}
    (h : Stored .bool (k + 1) c (fun i => values (i + 1))
      (regWriteBool (values 0) (offsetBool + k) r) r') :
    Stored .bool k (c + 1) values r r' := by
  have hk : k < 128 := by omega
  refine ⟨fun i hi => ?_, fun d j hj hother => ?_⟩
  · cases i with
    | zero =>
      have hkeep := h.others .bool k hk (Or.inr (Or.inl (Nat.lt_succ_self k)))
      rw [Nat.add_zero, hkeep, regReadScalar_eq .bool hk]
      exact regWriteScalar_same .bool hk (values 0) r
    | succ i =>
      have hread := h.reads i (by omega)
      rw [Nat.add_assoc, Nat.add_comm 1] at hread
      exact hread
  · have hother' : d ≠ .bool ∨ j < k + 1 ∨ k + 1 + c ≤ j :=
      hother.imp_right (Or.imp (fun hlt => by omega) fun hle => by omega)
    have hkeep := h.others d j hj hother'
    rw [hkeep, regReadScalar_eq d hj, regReadScalar_eq d hj]
    have hindex : d = Bank.bool → j ≠ k := by
      rintro rfl
      simp at hother
      omega
    exact regWriteScalar_other (b := .bool) hk hj hindex (values 0) r

/-- The loops with a bit for each register. -/
theorem getBoolRegLoop_full (reply : Nat → BitVec 8) (m : Nat) :
    ∀ (s c k : Nat) (r : Registers), c + 1 ≤ m → k + (c + 1) ≤ 128 →
      let result := getBoolRegLoop reply (List.range' s m) ((c + 1 : Nat) : Int)
        (BitVec.ofNat 32 (offsetBool + k)) r
      result.1 = replyOK ∧
        Stored .bool k (c + 1) (fun i => bitValue reply (s + i)) r result.2 := by
  induction m with
  | zero =>
    intro s c k r hm
    omega
  | succ m ih =>
    intro s c k r hm hfits
    have haddr : (BitVec.ofNat 32 (offsetBool + k)).toNat = offsetBool + k := by
      rw [BitVec.toNat_ofNat]
      exact Nat.mod_eq_of_lt (by simp; omega)
    rw [List.range'_succ, getBoolRegLoop, haddr]
    cases c with
    | zero =>
      rw [if_pos (by omega)]
      refine ⟨rfl, Stored.cons hfits ⟨fun i hi => absurd hi (Nat.not_lt_zero i), ?_⟩⟩
      exact fun _ _ _ _ => rfl
    | succ c =>
      have hless : ((c + 1 + 1 : Nat) : Int) - 1 = ((c + 1 : Nat) : Int) := by omega
      have hnext : BitVec.ofNat 32 (offsetBool + k) + 1 = BitVec.ofNat 32 (offsetBool + (k + 1)) :=
        (BitVec.ofNat_add (offsetBool + k) 1).symm
      rw [hless, if_neg (by omega), hnext]
      obtain ⟨hok, hstored⟩ := ih (s + 1) c (k + 1) (regWriteBool (bitValue reply s)
        (offsetBool + k) r) (by omega) (by omega)
      refine ⟨hok, Stored.cons hfits ?_⟩
      have hshift : (fun i => bitValue reply (s + 1 + i)) =
          fun i => bitValue reply (s + (i + 1)) := by
        funext i
        rw [Nat.add_assoc, Nat.add_comm 1]
      rw [hshift] at hstored
      exact hstored

theorem sizeReply_bools {m : I2cModbus} (h : m.nReg.toInt = n) :
    ReadHandler.getBoolReg.sizeReply m = (4 + Bank.bool.dataLength n : Nat) := by
  have hpos : (0 : Int) ≤ (n : Int) := Int.natCast_nonneg n
  rw [ReadHandler.sizeReply, boolBytes, h, Int.tdiv_eq_ediv_of_nonneg hpos,
    Int.tmod_eq_emod_of_nonneg hpos, Bank.dataLength]
  split
  · omega
  · omega

theorem getBoolReg_accepted {values : Nat → Bool} (hasks : Asks f.queue.head .bool k n)
    (hlen : 4 + Bank.bool.dataLength n ≤ 255)
    (hreply : e.reply = some (answerReply code .bool n values)) :
    Accepted .bool k n values f (getBoolReg e f) := by
  have hfits := hasks.fits
  have hsome := hasks.some
  have hlength : Bank.bool.dataLength n = (n + 7) / 8 := rfl
  have hcheck : checkCrc16 (answerReply code .bool n values)
      (BitVec.ofInt 32 (ReadHandler.getBoolReg.sizeReply f.queue.head)) = true := by
    refine checkCrc16_answer ?_ (by omega)
    rw [sizeReply_bools hasks.toInt_nReg, BitVec.ofInt_natCast]
  have hcount : (answerReply code .bool n values 1).toNat = (n + 7) / 8 := by
    rw [answerReply_count, BitVec.toNat_ofNat]
    exact Nat.mod_eq_of_lt (by omega)
  have hloop := getBoolRegLoop_full (answerReply code .bool n values) (8 * ((n + 7) / 8)) 0
    (n - 1) k f.regs (by omega) (by omega)
  rw [Nat.sub_add_cancel hsome] at hloop
  obtain ⟨hok, hstored⟩ := hloop
  have hread : e.delivered (ReadHandler.getBoolReg.sizeReply f.queue.head) =
      some (answerReply code .bool n values) := by
    rw [sizeReply_bools hasks.toInt_nReg]
    exact (e.delivered_of_le (Int.ofNat_le.mpr hlen)).trans hreply
  have hchecked := ReadHandler.getBoolReg_checked hread hcheck
  rw [hcount, hasks.toInt_nReg, hasks.regAddr_word, List.range_eq_range'] at hchecked
  rw [hchecked]
  refine ⟨hok, ⟨fun i hi => ?_, hstored.others⟩, rfl⟩
  have hread := hstored.reads i hi
  rw [Nat.zero_add, bitValue_answer hi] at hread
  exact hread

/-! ## The dispatcher -/

/-- The answer to a request for registers leaves each value in its register and nothing else
if the driver can read it.  For ints the writer has to tell them from the shorts of the same
indices. -/
theorem handleReply_stores (statusAux : Int) (hasks : Asks f.queue.head b k n)
    (hlen : 4 + b.dataLength n ≤ 255) (hreply : e.reply = some (answerReply code b n values))
    (htell : b = .int → ShortsTell k n (fun i => answerReply code b n values (2 + i)) f.regs) :
    Accepted b k n values f (handleReply e statusAux f) := by
  have hcode := hasks.code
  have hnumbers : b ≠ .bool → f.queue.head.code ∈ numberCodes →
      Accepted b k n values f (handleReply e statusAux f) := by
    intro hb hmem
    have hread := genericReadReg_accepted hasks hb hlen hreply htell
    have hrw := rwMultRegisters_accepted hasks hb hlen hreply htell
    simp only [numberCodes, List.mem_cons, List.not_mem_nil, or_false] at hmem
    unfold handleReply
    rcases hmem with hc | hc | hc | hc
    · simpa [hc, getDiscreteInput] using hread
    · simpa [hc, getNumReg] using hread
    · simpa [hc, readInputReg] using hread
    · simpa [hc] using hrw
  cases b with
  | bool =>
    have hbool : f.queue.head.code = Modbus.getBoolReg := List.mem_singleton.mp hcode
    have hgoal := getBoolReg_accepted hasks hlen hreply
    unfold handleReply
    rw [if_pos hbool]
    exact hgoal
  | short => exact hnumbers (fun h => nomatch h) hcode
  | int => exact hnumbers (fun h => nomatch h) hcode

/-- Ten bools, the last two of them in a byte of their own. -/
theorem handleReply_stores_tenBools :
    Accepted .bool 3 10 (fun i => i % 3 == 0)
      (requestFirmware Modbus.getBoolReg (offsetBool + 3) 10)
      (handleReply
        { noAnswer with reply := some (answerReply 1 .bool 10 fun i => i % 3 == 0) } 1
        (requestFirmware Modbus.getBoolReg (offsetBool + 3) 10)) :=
  handleReply_stores 1 ⟨by decide, rfl, rfl, by decide, by decide⟩ (by decide) rfl fun h => nomatch h

end Recirculador
