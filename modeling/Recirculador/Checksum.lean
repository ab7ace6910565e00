/-
The frame checksum of `checksum.c`.

`modbusStructCrc16` runs over two buffers when a frame is sent, `modbusCrc16` over
one when a reply is checked; both look a byte up in the same table.  Written over
lists they are one function, and the table separates its entries by their high
bytes, so the checksum shows every change of a single byte.
-/
import Recirculador.Common.TableCrc

namespace Recirculador

def crcTable : List (BitVec 16) := [
  0x0000, 0xC0C1, 0xC181, 0x0140, 0xC301, 0x03C0, 0x0280, 0xC241,
  0xC601, 0x06C0, 0x0780, 0xC741, 0x0500, 0xC5C1, 0xC481, 0x0440,
  0xCC01, 0x0CC0, 0x0D80, 0xCD41, 0x0F00, 0xCFC1, 0xCE81, 0x0E40,
  0x0A00, 0xCAC1, 0xCB81, 0x0B40, 0xC901, 0x09C0, 0x0880, 0xC841,
  0xD801, 0x18C0, 0x1980, 0xD941, 0x1B00, 0xDBC1, 0xDA81, 0x1A40,
  0x1E00, 0xDEC1, 0xDF81, 0x1F40, 0xDD01, 0x1DC0, 0x1C80, 0xDC41,
  0x1400, 0xD4C1, 0xD581, 0x1540, 0xD701, 0x17C0, 0x1680, 0xD641,
  0xD201, 0x12C0, 0x1380, 0xD341, 0x1100, 0xD1C1, 0xD081, 0x1040,
  0xF001, 0x30C0, 0x3180, 0xF141, 0x3300, 0xF3C1, 0xF281, 0x3240,
  0x3600, 0xF6C1, 0xF781, 0x3740, 0xF501, 0x35C0, 0x3480, 0xF441,
  0x3C00, 0xFCC1, 0xFD81, 0x3D40, 0xFF01, 0x3FC0, 0x3E80, 0xFE41,
  0xFA01, 0x3AC0, 0x3B80, 0xFB41, 0x3900, 0xF9C1, 0xF881, 0x3840,
  0x2800, 0xE8C1, 0xE981, 0x2940, 0xEB01, 0x2BC0, 0x2A80, 0xEA41,
  0xEE01, 0x2EC0, 0x2F80, 0xEF41, 0x2D00, 0xEDC1, 0xEC81, 0x2C40,
  0xE401, 0x24C0, 0x2580, 0xE541, 0x2700, 0xE7C1, 0xE681, 0x2640,
  0x2200, 0xE2C1, 0xE381, 0x2340, 0xE101, 0x21C0, 0x2080, 0xE041,
  0xA001, 0x60C0, 0x6180, 0xA141, 0x6300, 0xA3C1, 0xA281, 0x6240,
  0x6600, 0xA6C1, 0xA781, 0x6740, 0xA501, 0x65C0, 0x6480, 0xA441,
  0x6C00, 0xACC1, 0xAD81, 0x6D40, 0xAF01, 0x6FC0, 0x6E80, 0xAE41,
  0xAA01, 0x6AC0, 0x6B80, 0xAB41, 0x6900, 0xA9C1, 0xA881, 0x6840,
  0x7800, 0xB8C1, 0xB981, 0x7940, 0xBB01, 0x7BC0, 0x7A80, 0xBA41,
  0xBE01, 0x7EC0, 0x7F80, 0xBF41, 0x7D00, 0xBDC1, 0xBC81, 0x7C40,
  0xB401, 0x74C0, 0x7580, 0xB541, 0x7700, 0xB7C1, 0xB681, 0x7640,
  0x7200, 0xB2C1, 0xB381, 0x7340, 0xB101, 0x71C0, 0x7080, 0xB041,
  0x5000, 0x90C1, 0x9181, 0x5140, 0x9301, 0x53C0, 0x5280, 0x9241,
  0x9601, 0x56C0, 0x5780, 0x9741, 0x5500, 0x95C1, 0x9481, 0x5440,
  0x9C01, 0x5CC0, 0x5D80, 0x9D41, 0x5F00, 0x9FC1, 0x9E81, 0x5E40,
  0x5A00, 0x9AC1, 0x9B81, 0x5B40, 0x9901, 0x59C0, 0x5880, 0x9841,
  0x8801, 0x48C0, 0x4980, 0x8941, 0x4B00, 0x8BC1, 0x8A81, 0x4A40,
  0x4E00, 0x8EC1, 0x8F81, 0x4F40, 0x8D01, 0x4DC0, 0x4C80, 0x8C41,
  0x4400, 0x84C1, 0x8581, 0x4540, 0x8701, 0x47C0, 0x4680, 0x8641,
  0x8201, 0x42C0, 0x4380, 0x8341, 0x4100, 0x81C1, 0x8081, 0x4040]

/-- One byte of either loop. -/
def crcStep (crc : BitVec 16) (byte : BitVec 8) : BitVec 16 :=
  let x := crc.setWidth 8 ^^^ byte
  (crc >>> 8) ^^^ crcTable.getD x.toNat 0

/-- `MODBUS_CRC16` over the first `len` bytes of a buffer. -/
def modbusCrc16 (buf : Nat → BitVec 8) (len : Nat) : BitVec 16 :=
  (List.range len).foldl (fun crc i => crcStep crc (buf i)) 0xFFFF

/-- `MODBUS_STRUCT_CRC16`. -/
def modbusStructCrc16 (buf1 : Nat → BitVec 8) (len1 : Nat) (buf2 : Nat → BitVec 8) (len2 : Nat) :
    BitVec 16 :=
  let crc := (List.range len1).foldl (fun crc i => crcStep crc (buf1 i)) 0xFFFF
  (List.range len2).foldl (fun crc i => crcStep crc (buf2 i)) crc

/-- `CHECK_CRC16`.  The length is unsigned, so one below 2 wraps. -/
def checkCrc16 (buf : Nat → BitVec 8) (len : BitVec 32) : Bool :=
  let crc := ((buf (len - 1).toNat).setWidth 16 <<< 8) + (buf (len - 2).toNat).setWidth 16
  crc == modbusCrc16 buf (len - 2).toNat

/-! ## The checksum of a list -/

def crcEntry (x : BitVec 8) : BitVec 16 := crcTable.getD x.toNat 0

/-- What all the loops compute. -/
def crcList (l : List (BitVec 8)) : BitVec 16 := TableCrc.run crcEntry 0xFFFF l

theorem modbusCrc16_eq (buf : Nat → BitVec 8) (len : Nat) :
    modbusCrc16 buf len = crcList ((List.range len).map buf) :=
  List.foldl_map.symm

theorem modbusStructCrc16_eq (buf1 : Nat → BitVec 8) (len1 : Nat) (buf2 : Nat → BitVec 8)
    (len2 : Nat) : modbusStructCrc16 buf1 len1 buf2 len2 =
      crcList ((List.range len1).map buf1 ++ (List.range len2).map buf2) := by
  rw [crcList, TableCrc.run_append, TableCrc.run, TableCrc.run, List.foldl_map, List.foldl_map]
  rfl

theorem map_getD_range (l : List (BitVec 8)) :
    (List.range l.length).map (fun i => l.getD i 0) = l := by
  apply List.ext_getElem
  · rw [List.length_map, List.length_range]
  · intro i hi hl
    rw [List.getElem_map, List.getElem_range, List.getD_eq_getElem?_getD,
      List.getElem?_eq_getElem hl, Option.getD_some]

theorem modbusCrc16_list (l : List (BitVec 8)) :
    modbusCrc16 (fun i => l.getD i 0) l.length = crcList l := by
  rw [modbusCrc16_eq, map_getD_range]

/-- The loop over two buffers is the loop over the buffers in a row. -/
theorem modbusStructCrc16_list (h p : List (BitVec 8)) :
    modbusStructCrc16 (fun i => h.getD i 0) h.length (fun i => p.getD i 0) p.length =
      modbusCrc16 (fun i => (h ++ p).getD i 0) (h ++ p).length := by
  rw [modbusStructCrc16_eq, modbusCrc16_list, map_getD_range, map_getD_range]

/-! ## Accepted frames -/

def crcLow (crc : BitVec 16) : BitVec 8 := crc.setWidth 8

def crcHigh (crc : BitVec 16) : BitVec 8 := (crc >>> 8).setWidth 8

/-- A checksum goes out low byte first. -/
def crcBytes (crc : BitVec 16) : List (BitVec 8) := [crcLow crc, crcHigh crc]

theorem crcHigh_crcLow (crc : BitVec 16) :
    ((crcHigh crc).setWidth 16 <<< 8) + (crcLow crc).setWidth 16 = crc := by
  apply BitVec.eq_of_toNat_eq
  simp only [crcHigh, crcLow, BitVec.toNat_add, BitVec.toNat_shiftLeft, BitVec.toNat_setWidth,
    BitVec.toNat_ushiftRight, Nat.shiftRight_eq_div_pow, Nat.shiftLeft_eq]
  omega

/-- Of a string that ends in a checksum, `CHECK_CRC16` accepts what is the
checksum of the rest. -/
theorem checkCrc16_append (l : List (BitVec 8)) (crc : BitVec 16)
    (hlen : l.length + 2 < 0x100000000) :
    checkCrc16 (fun i => (l ++ crcBytes crc).getD i 0) (BitVec.ofNat 32 (l.length + 2)) = true ↔
      crc = crcList l := by
  have hhigh : (BitVec.ofNat 32 (l.length + 2) - 1).toNat = l.length + 1 := by bv_omega
  have hlow : (BitVec.ofNat 32 (l.length + 2) - 2).toNat = l.length := by bv_omega
  have hbody : modbusCrc16 (fun i => (l ++ crcBytes crc).getD i 0) l.length = crcList l := by
    rw [modbusCrc16_eq]
    refine congrArg crcList (Eq.trans (List.map_congr_left fun i hi => ?_) (map_getD_range l))
    have hi := List.mem_range.mp hi
    rw [List.getD_eq_getElem?_getD, List.getElem?_append_left hi, List.getD_eq_getElem?_getD]
  have hlast : (l ++ crcBytes crc).getD (l.length + 1) 0 = crcHigh crc := by
    rw [List.getD_eq_getElem?_getD, List.getElem?_append_right (by omega)]
    simp [crcBytes]
  have hnext : (l ++ crcBytes crc).getD l.length 0 = crcLow crc := by
    rw [List.getD_eq_getElem?_getD, List.getElem?_append_right (Nat.le_refl _)]
    simp [crcBytes]
  rw [checkCrc16, hhigh, hlow, hbody, hlast, hnext, crcHigh_crcLow, beq_iff_eq]

/-! ## The table

The entry of `x` is `x <<< 6 ^^^ x <<< 7`, with `0xC001` added if `x` has an odd
number of ones.  Its high byte is the Gray code of `x >>> 1`, its top two bits
carrying the parity too, so `x` can be read off it. -/

/-- The exclusive or of all right shifts: the number whose Gray code is `y`. -/
def grayDecode (y : BitVec 8) : BitVec 8 :=
  let y := y ^^^ y >>> 4
  let y := y ^^^ y >>> 2
  y ^^^ y >>> 1

/-- The index of the entry with that high byte. -/
def crcIndex (high : BitVec 8) : BitVec 8 :=
  let odd := high >>> 7
  let half := grayDecode (high ^^^ odd * 0xC0)
  half <<< 1 ||| (odd ^^^ (grayDecode half &&& 1))

theorem crcTable_map_crcIndex : crcTable.map (fun entry => crcIndex (crcHigh entry)) =
    (List.range 256).map (BitVec.ofNat 8) := by
  decide +kernel

theorem crcIndex_crcEntry (x : BitVec 8) : crcIndex (crcHigh (crcEntry x)) = x := by
  have hx : x.toNat < 256 := x.isLt
  have hentry := congrArg (fun l => l[x.toNat]?) crcTable_map_crcIndex
  rw [List.getElem?_map, List.getElem?_map, List.getElem?_range hx] at hentry
  have hlen : x.toNat < crcTable.length := by
    rw [← List.length_map, crcTable_map_crcIndex, List.length_map, List.length_range]
    exact hx
  rw [List.getElem?_eq_getElem hlen, Option.map_some, Option.map_some, Option.some.injEq,
    BitVec.ofNat_toNat, BitVec.setWidth_eq] at hentry
  rw [crcEntry, List.getD_eq_getElem?_getD, List.getElem?_eq_getElem hlen, Option.getD_some, hentry]

theorem crcEntry_separating : TableCrc.Separating crcEntry := by
  intro x y he
  rw [← crcIndex_crcEntry x, ← crcIndex_crcEntry y, crcHigh, crcHigh, he]

/-- A change of one byte changes the checksum. -/
theorem crcList_set {l : List (BitVec 8)} {i : Nat} (hi : i < l.length) (byte : BitVec 8) :
    crcList (l.set i byte) = crcList l ↔ byte = l[i] := by
  have hset : ∀ b, l.set i b = l.take i ++ b :: l.drop (i + 1) := fun b => by
    rw [List.set_eq_take_append_cons_drop, if_pos hi]
  have hsame : crcList l = crcList (l.set i l[i]) := by rw [List.set_getElem_self]
  rw [hsame, hset, hset]
  exact TableCrc.run_detects crcEntry_separating _ _

end Recirculador
