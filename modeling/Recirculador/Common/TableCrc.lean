/-
Table-driven checksums of 16 bits.

The low byte of the register and the next byte pick a table entry, which is added
to the register shifted down.  A table is `Separating` if its entries differ in
their high bytes: the register before a step can then be read off the register
after it, and a change of one byte always shows in the result.
-/

namespace TableCrc

variable (table : BitVec 8 → BitVec 16)

def step (crc : BitVec 16) (byte : BitVec 8) : BitVec 16 :=
  (crc >>> 8) ^^^ table (crc.setWidth 8 ^^^ byte)

def run (crc : BitVec 16) (bytes : List (BitVec 8)) : BitVec 16 := bytes.foldl (step table) crc

/-- No two entries share their high byte. -/
def Separating : Prop := ∀ x y, table x >>> 8 = table y >>> 8 → x = y

theorem run_append (crc : BitVec 16) (l₁ l₂ : List (BitVec 8)) :
    run table crc (l₁ ++ l₂) = run table (run table crc l₁) l₂ :=
  List.foldl_append

variable {table}

/-- The high byte after a step is that of the entry. -/
theorem step_shift (crc : BitVec 16) (byte : BitVec 8) :
    step table crc byte >>> 8 = table (crc.setWidth 8 ^^^ byte) >>> 8 := by
  have hzero : crc >>> 8 >>> 8 = 0#16 := by
    rw [← BitVec.shiftRight_add]
    exact BitVec.ushiftRight_eq_zero (by omega)
  rw [step, BitVec.ushiftRight_xor_distrib, hzero, BitVec.zero_xor]

theorem step_entry (h : Separating table) {crc crc' : BitVec 16} {byte byte' : BitVec 8}
    (he : step table crc byte = step table crc' byte') :
    crc.setWidth 8 ^^^ byte = crc'.setWidth 8 ^^^ byte' := by
  apply h
  rw [← step_shift, ← step_shift, he]

theorem step_byte (h : Separating table) {crc : BitVec 16} {byte byte' : BitVec 8}
    (he : step table crc byte = step table crc byte') : byte = byte' :=
  (BitVec.xor_right_inj _).mp (step_entry h he)

/-- The register before a step follows from the one after it. -/
theorem step_crc (h : Separating table) {crc crc' : BitVec 16} {byte : BitVec 8}
    (he : step table crc byte = step table crc' byte) : crc = crc' := by
  have hindex := step_entry h he
  have hlow : crc.setWidth 8 = crc'.setWidth 8 := (BitVec.xor_left_inj byte).mp hindex
  have hhigh : crc >>> 8 = crc' >>> 8 := by
    rw [step, step, hindex] at he
    exact (BitVec.xor_left_inj _).mp he
  apply BitVec.eq_of_getLsbD_eq
  intro i hi
  by_cases hi8 : i < 8
  · have hbit := congrArg (fun v => v.getLsbD i) hlow
    simpa [hi8] using hbit
  · have hbit := congrArg (fun v => v.getLsbD (i - 8)) hhigh
    have hadd : 8 + (i - 8) = i := by omega
    simpa [hadd] using hbit

theorem run_crc (h : Separating table) {crc crc' : BitVec 16} (bytes : List (BitVec 8))
    (he : run table crc bytes = run table crc' bytes) : crc = crc' := by
  induction bytes generalizing crc crc' with
  | nil => exact he
  | cons byte bytes ih => exact step_crc h (ih he)

/-- A change of one byte shows. -/
theorem run_detects (h : Separating table) {crc : BitVec 16} (l₁ l₂ : List (BitVec 8))
    {byte byte' : BitVec 8} :
    run table crc (l₁ ++ byte :: l₂) = run table crc (l₁ ++ byte' :: l₂) ↔ byte = byte' := by
  constructor
  · intro he
    rw [run_append, run_append] at he
    exact step_byte h (run_crc h l₂ he)
  · intro he
    rw [he]

end TableCrc
