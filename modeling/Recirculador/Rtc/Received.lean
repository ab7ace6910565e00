/-
The bytes of the clock chip before they are tested.

`RTC_resynchronization` fills a buffer with the local time, lets the driver store what
the chip sends over it and converts whatever it finds there.  It asks neither whether
the transfer succeeded nor whether the month is one, so a transfer that stops early leaves
a mixture of two times and a month that is none takes the conversion past its table.
-/
import Mathlib.Algebra.GroupWithZero.Nat
import Mathlib.Data.List.GetD
import Recirculador.Bus.Reader
import Recirculador.Rtc.Decode

namespace Recirculador

namespace Rtc

/-! ## What a failed read leaves in the structure -/

/-- `receive` stores the bytes where the driver does. -/
theorem receive_bytes (received : List (BitVec 8)) (d : RtcData) {j : Nat} (hj : j < 10) :
    (d.receive received).bytes.getD j 0 = received.getD j (d.bytes.getD j 0) := by
  match j with
  | 0 => rfl
  | 1 => rfl
  | 2 => rfl
  | 3 => rfl
  | 4 => rfl
  | 5 => rfl
  | 6 => rfl
  | 7 => rfl
  | 8 => rfl
  | 9 => rfl
  | _ + 10 => exact absurd hj (by omega)

/-- A read of ten bytes that fails leaves at most nine of them in the structure. -/
theorem receive_of_failed {fuel : Nat} {addr : BitVec 8} {b : I2c} (d : RtcData) {stat : I2cStat}
    (hstat : (b.readLenghtMaster fuel addr 10 (.fresh fun j => d.bytes.getD j 0)).1 = some stat)
    (hfail : stat ≠ .ok) :
    ∃ received : List (BitVec 8), received.length ≤ 9 ∧
      ∀ j, j < 10 →
        (b.readLenghtMaster fuel addr 10 (.fresh fun j => d.bytes.getD j 0)).2.2.bytes j =
          (d.receive received).bytes.getD j 0 := by
  obtain ⟨received, hcount, hbuffer⟩ :=
    I2c.readLenghtMaster_failed (show 0 < 10 by decide) (by decide) hstat hfail
  refine ⟨received, Nat.le_of_lt_succ hcount, fun j hj => ?_⟩
  rw [receive_bytes received d hj]
  refine (congrArg (·.bytes j) hbuffer).trans ?_
  exact (Buffer.fill_bytes 0 received _ j).trans (if_neg (Nat.not_lt_zero j))

/-! ## A transfer that stops early -/

/-- The seconds the fields of a time stand for, in the order of the registers. -/
def fieldSeconds (behind : Nat → BitVec 8) (time : RtcData) : List Nat :=
  let year := rtcConvertToTimeAux time.years
  [rtcConvertToTimeAux time.seconds,
    rtcConvertToTimeAux time.minutes * secMin,
    rtcConvertToTimeAux time.centHours * secHr,
    0,
    (rtcConvertToTimeAux time.date + 255) % 256 * secDay,
    secMonthAux behind year ((rtcConvertToTimeAux time.month + 255) % 256),
    year * secYear + (year / 4 * secDay + if year % 4 ≠ 0 then secDay else 0),
    0,
    0,
    0]

/-- The seconds the first `k` registers stand for. -/
def amount (behind : Nat → BitVec 8) (time : RtcData) (k : Nat) : Nat :=
  ((fieldSeconds behind time).take k).sum

/-- The `k` bytes received over the time `time` are no failure mark and stand for as many
seconds as the fields they overwrite. -/
def Repeats (behind : Nat → BitVec 8) (time : RtcData) (received : List (BitVec 8)) (k : Nat) :
    Prop :=
  (time.receive received).minutes &&& 0b10000000 = 0 ∧
    amount behind (time.receive received) k % 0x100000000 = amount behind time k % 0x100000000

/-- The time is `t` still, and the chip got the register number and nothing else. -/
def Resync.Intact (resync : Resync) (t : BitVec 32) : Prop :=
  resync.ptrTimestamp = t ∧ resync.sent = [[0]]

theorem sum_fields (sec min hr day month year bissexto : Nat) :
    year + month + day + hr + min + sec + bissexto =
      [sec, min, hr, 0, day, month, year + bissexto, 0, 0, 0].sum := by
  simp only [List.sum_cons, List.sum_nil]
  omega

theorem timestampAux_eq_sum (behind : Nat → BitVec 8) (time : RtcData) :
    timestampAux behind time = sysTimestampMin + (fieldSeconds behind time).sum := by
  rw [timestampAux, fieldSeconds, sum_fields]

/-- The fields behind the last byte received are the local ones. -/
theorem fieldSeconds_drop (behind : Nat → BitVec 8) (time : RtcData) (registers : List (BitVec 8))
    {k : Nat} (hk : k ≤ 9) :
    (fieldSeconds behind (time.receive (registers.take k))).drop k =
      (fieldSeconds behind time).drop k := by
  have hkeep : ∀ (j : Nat) (x : BitVec 8), k ≤ j → (registers.take k).getD j x = x := by
    intro j x hj
    exact List.getD_eq_default _ _ (Nat.le_trans (List.length_take_le _ _) hj)
  obtain rfl | rfl | rfl | rfl | rfl | rfl | rfl | rfl | rfl | rfl :
      k = 0 ∨ k = 1 ∨ k = 2 ∨ k = 3 ∨ k = 4 ∨ k = 5 ∨ k = 6 ∨ k = 7 ∨ k = 8 ∨ k = 9 := by
    omega
  all_goals
    simp only [fieldSeconds, RtcData.receive, List.drop_succ_cons, List.drop_zero, hkeep,
      Nat.reduceLeDiff, Nat.le_refl, Nat.zero_le]

theorem timestampAux_receive (behind : Nat → BitVec 8) {time : RtcData}
    (registers : List (BitVec 8)) {k t : Nat} (hk : k ≤ 9) (ht : t < 0x100000000)
    (htime : timestampAux behind time = t) :
    timestampAux behind (time.receive (registers.take k)) % 0x100000000 = t ↔
      amount behind (time.receive (registers.take k)) k % 0x100000000 =
        amount behind time k % 0x100000000 := by
  have hsplit : ∀ l : List Nat, l.sum = (l.take k).sum + (l.drop k).sum := by
    intro l
    rw [← List.sum_append, List.take_append_drop]
  rw [timestampAux_eq_sum, hsplit] at htime ⊢
  rw [fieldSeconds_drop behind time registers hk, amount, amount]
  omega

/-- The time stays if the bytes found are no failure and their sum is the time. -/
theorem intact_iff {t : BitVec 32} (hmin : sysTimestampMin ≤ t.toNat)
    (ht : t.toNat < 0x80000000) (behind : Nat → BitVec 8) (stack : RtcData)
    (received : List (BitVec 8)) :
    (rtcResynchronization behind stack received t).Intact t ↔
      ((rtcConvertTimestampToTime (t.setWidth 64) stack).receive received).minutes &&&
          0b10000000 = 0 ∧
        timestampAux behind ((rtcConvertTimestampToTime (t.setWidth 64) stack).receive received) %
          0x100000000 = t.toNat := by
  unfold rtcResynchronization Resync.Intact
  dsimp only
  generalize (rtcConvertTimestampToTime (t.setWidth 64) stack).receive received = d
  have hword : timestampAux behind d % 0x100000000 = t.toNat ↔
      BitVec.ofNat 32 (timestampAux behind d) = t := by
    rw [← BitVec.toNat_inj, BitVec.toNat_ofNat]
  rw [hword, rtcConvertTimeToTimestamp_eq]
  generalize BitVec.ofNat 32 (timestampAux behind d) = v
  constructor
  · intro hintact
    split at hintact
    · -- The failure branch sets the chip.
      exact absurd (List.cons.inj hintact.2).2 (List.cons_ne_nil _ _)
    · rename_i hok
      exact ⟨not_not.mp fun hflag => hok (Or.inl hflag),
        (setWidth_signExtend v).symm.trans hintact.1⟩
  · intro hsame
    obtain ⟨hflag, rfl⟩ := hsame
    rw [if_neg]
    · exact ⟨setWidth_signExtend v, rfl⟩
    · rw [hflag, signExtend_toNat ht]
      intro hbad
      rcases hbad with hflag | hlow | hhigh
      · exact hflag rfl
      · exact absurd hmin (Nat.not_le_of_lt hlow)
      · omega

/-- A transfer that fails after `k` bytes leaves the time alone exactly if the bytes repeat
it. -/
theorem resynchronization_failed_iff {t : BitVec 32} (hmin : sysTimestampMin ≤ t.toNat)
    (ht : t.toNat < 0x80000000) (behind : Nat → BitVec 8) (stack : RtcData)
    (registers : List (BitVec 8)) {k : Nat} (hk : k ≤ 9) :
    (rtcResynchronization behind stack (registers.take k) t).Intact t ↔
      Repeats behind (rtcConvertTimestampToTime (t.setWidth 64) stack) (registers.take k) k := by
  obtain ⟨c, -, h⟩ := shows_convertTimestampToTime hmin (Nat.lt_trans ht (by decide)) stack
  rw [BitVec.ofNat_toNat] at h
  have hlocal := timestampAux_shows behind hmin ht h
  rw [intact_iff hmin ht, Repeats,
    timestampAux_receive behind registers hk (Nat.lt_trans ht (by decide)) hlocal]

/-- One byte is enough: the chip is a second ahead and stops behind its seconds. -/
theorem resynchronization_mixes :
    ¬ ∀ t : BitVec 32, sysTimestampMin ≤ t.toNat → t.toNat < 0x80000000 →
      ∀ (behind : Nat → BitVec 8) (stack : RtcData) (registers : List (BitVec 8)) (k : Nat),
        registers.length = 10 → k ≤ 9 →
          (rtcResynchronization behind stack (registers.take k) t).Intact t := by
  intro hall
  have hintact := hall 1704067201 (by decide) (by decide) (fun _ => 0) blankRtc
    [0x02, 0x00, 0x00, 0x01, 0x01, 0x01, 0x00, 0x00, 0x00, 0x00] 1 rfl (by decide)
  exact absurd hintact.1 (by decide +kernel)

/-- The chip shows the local time and stops behind its hours. -/
theorem resynchronization_failed_2026 :
    (rtcResynchronization (fun _ => 0) blankRtc
      (((rtcSetValue 1775055600 blankRtc).drop 1).take 3) 1775055600).Intact 1775055600 :=
  (resynchronization_failed_iff (by decide) (by decide) _ _ _ (by decide)).mpr
    ⟨by decide +kernel, by decide +kernel⟩

/-! ## A month that is none -/

/-- The month loop with the indices it reads its table at. -/
def secMonthReads (behind : Nat → BitVec 8) (year month : Nat) : Nat × List Nat :=
  (List.range month).foldl (fun s i =>
    if year % 4 ≠ 0 then (s.1 + dayToMouth behind i * secDay, s.2 ++ [i])
    else if i = 1 then (s.1 + 29 * secDay, s.2)
    else (s.1 + dayToMouth behind i * secDay, s.2 ++ [i])) (0, [])

/-- The indices `_RTC_convertTimeToTimestamp` reads the table at. -/
def dayToMouthReads (behind : Nat → BitVec 8) (time : RtcData) : List Nat :=
  (secMonthReads behind (rtcConvertToTimeAux time.years)
    ((rtcConvertToTimeAux time.month + 255) % 256)).2

/-- The loop is the one of the conversion, and reads every month before the given one,
February of a leap year apart. -/
theorem secMonthReads_spec (behind : Nat → BitVec 8) (year month : Nat) :
    (secMonthReads behind year month).1 = secMonthAux behind year month ∧
      ∀ i, i ∈ (secMonthReads behind year month).2 ↔ i < month ∧ (year % 4 = 0 → i ≠ 1) := by
  induction month with
  | zero => exact ⟨rfl, fun i => iff_of_false List.not_mem_nil fun h => Nat.not_lt_zero _ h.1⟩
  | succ month ih =>
    obtain ⟨hsum, hreads⟩ := ih
    have hstep : secMonthReads behind year (month + 1) =
        ((secMonthReads behind year month).1 + monthTerm behind year month,
          (secMonthReads behind year month).2 ++
            if year % 4 = 0 ∧ month = 1 then [] else [month]) := by
      rw [secMonthReads, List.range_succ, List.foldl_append, List.foldl_cons, List.foldl_nil,
        ← secMonthReads, monthTerm]
      by_cases hleap : year % 4 = 0
      · by_cases hfeb : month = 1
        · rw [if_neg (not_not_intro hleap), if_neg (not_not_intro hleap), if_pos hfeb,
            if_pos hfeb, if_pos ⟨hleap, hfeb⟩, List.append_nil]
        · rw [if_neg (not_not_intro hleap), if_neg (not_not_intro hleap), if_neg hfeb,
            if_neg hfeb, if_neg fun h => hfeb h.2]
      · rw [if_pos hleap, if_pos hleap, if_neg fun h => hleap h.1]
    rw [hstep]
    refine ⟨by rw [hsum, secMonthAux_succ], fun i => ?_⟩
    rw [List.mem_append, hreads]
    by_cases hskip : year % 4 = 0 ∧ month = 1
    · rw [if_pos hskip]
      simp only [List.not_mem_nil, or_false]
      omega
    · rw [if_neg hskip]
      simp only [List.mem_singleton]
      omega

/-- The conversion of ten received bytes stays inside the table exactly if the month byte
decodes to one of 1 to 13. -/
theorem dayToMouthReads_inside_iff (behind : Nat → BitVec 8) (stack : RtcData)
    (ptrTimestamp : BitVec 32) {bytes : List (BitVec 8)} (hbytes : bytes.length = 10) :
    (∀ i ∈ dayToMouthReads behind
        ((rtcConvertTimestampToTime (ptrTimestamp.setWidth 64) stack).receive bytes), i < 12) ↔
      1 ≤ rtcConvertToTimeAux (bytes.getD 5 0) ∧ rtcConvertToTimeAux (bytes.getD 5 0) ≤ 13 := by
  have hmonth : ((rtcConvertTimestampToTime (ptrTimestamp.setWidth 64) stack).receive bytes).month =
      bytes.getD 5 0 := by
    show bytes.getD 5 _ = bytes.getD 5 0
    rw [List.getD_eq_getElem _ _ (by omega), List.getD_eq_getElem _ _ (by omega)]
  have hlt := convertToTime_lt (bytes.getD 5 0)
  rw [dayToMouthReads, hmonth]
  generalize rtcConvertToTimeAux (bytes.getD 5 0) = month at hlt ⊢
  generalize rtcConvertToTimeAux _ = year
  have hreads := (secMonthReads_spec behind year ((month + 255) % 256)).2
  constructor
  · intro hinside
    by_cases hlong : 12 < (month + 255) % 256
    · have hread := (hreads 12).mpr ⟨hlong, fun _ => by decide⟩
      exact absurd (hinside 12 hread) (Nat.lt_irrefl 12)
    · omega
  · intro hbounds i hi
    have hbefore := ((hreads i).mp hi).1
    omega

/-- A chip that answers with zeros has month 0, and the loop runs to 255. -/
theorem dayToMouthReads_outside :
    ¬ ∀ (behind : Nat → BitVec 8) (stack : RtcData) (ptrTimestamp : BitVec 32)
      (bytes : List (BitVec 8)), bytes.length = 10 →
        ∀ i ∈ dayToMouthReads behind
          ((rtcConvertTimestampToTime (ptrTimestamp.setWidth 64) stack).receive bytes), i < 12 := by
  intro hall
  have hread := ((secMonthReads_spec (fun _ => 0) 0 255).2 12).mpr ⟨by decide, fun _ => by decide⟩
  exact absurd (hall (fun _ => 0) blankRtc 1704067200 (List.replicate 10 0) rfl 12 hread)
    (Nat.lt_irrefl 12)

/-- The bytes of the 1st of April 2026. -/
def aprilBytes : List (BitVec 8) :=
  [0x00, 0x00, 0x15, 0x04, 0x01, 0x04, 0x02, 0x00, 0x00, 0x00]

theorem dayToMouthReads_april :
    rtcConvertToTimeAux (aprilBytes.getD 5 0) = 4 ∧
      ∀ i ∈ dayToMouthReads (fun _ => 0)
        ((rtcConvertTimestampToTime 1704067200 blankRtc).receive aprilBytes), i < 12 :=
  ⟨by decide,
    (dayToMouthReads_inside_iff (fun _ => 0) blankRtc 1704067200 rfl).mpr (by decide)⟩

end Rtc
end Recirculador
