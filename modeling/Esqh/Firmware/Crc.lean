import Esqh.Firmware.Types
import Esqh.Library.ScatteredErrors

/-!
`src/crc.c`: CRC-16 over a byte buffer, and the shift register it computes. The
two nested loops of the source feed the buffer's bits, most significant first,
to the register with generator `0x1021` and start value `0xffff`.
-/

namespace Esqh

open Memory ShiftRegister

/-- One round of the inner loop. -/
def crcBit (crc : U16) : U16 :=
  if crc &&& 0x8000 ≠ 0 then (crc <<< 1) ^^^ 0x1021 else crc <<< 1

/-- One round of the outer loop. -/
def crcByte (crc : U16) (byte : U8) : U16 :=
  crcBit^[8] (crc ^^^ (byte.setWidth 16 <<< 8))

/-- The outer loop, from `index` on with `remaining` rounds to go. -/
def crc16From {n : Nat} (data : Vector U8 n) (index : Nat) (crc : U16) : Nat → Access U16
  | 0 => .ok crc
  | remaining + 1 => do
      let byte ← read data index
      crc16From data (index + 1) (crcByte crc byte) remaining

def crc16 {n : Nat} (data : Ptr (Vector U8 n)) (length : Nat) : Access U16 :=
  match data with
  | none => if length ≠ 0 then .ok 0 else .ok 0xffff
  | some data => crc16From data 0 0xffff length

/-- The checksum of a byte sequence. -/
def crcOf (bytes : List U8) : U16 := bytes.foldl crcByte 0xffff

abbrev crcGenerator : U16 := 0x1021

theorem crc16From_eq {n : Nat} (data : Vector U8 n) (index : Nat) (crc : U16)
    (remaining : Nat) (h : index + remaining ≤ n) :
    crc16From data index crc remaining =
      .ok (((data.toList.drop index).take remaining).foldl crcByte crc) := by
  induction remaining generalizing index crc with
  | zero => simp [crc16From]
  | succ remaining ih =>
      have hdrop : data.toList.drop index = data[index] :: data.toList.drop (index + 1) := by
        rw [List.drop_eq_getElem_cons (by simp; omega)]
        simp
      rw [crc16From, read_of_lt data (by omega), ok_bind, ih _ _ (by omega), hdrop,
        List.take_succ_cons, List.foldl_cons]

/-- Within the buffer the loops return the checksum of the bytes they cover. -/
theorem crc16_eq {n : Nat} (data : Vector U8 n) (length : Nat) (h : length ≤ n) :
    crc16 (some data) length = .ok (crcOf (data.toList.take length)) := by
  simp [crc16, crc16From_eq data 0 _ length (by omega), crcOf]

theorem crcBit_eq_shift (crc : U16) : crcBit crc = shift crcGenerator crc := by
  have htop : crc &&& 0x8000 = if crc.getMsbD 0 then 0x8000 else 0 :=
    BitVec.and_twoPow crc 15
  unfold crcBit shift
  rw [htop]
  cases crc.getMsbD 0 <;> simp

theorem crcByte_eq_feedAll (crc : U16) (byte : U8) :
    crcByte crc byte = feedAll crcGenerator crc (msbBits byte) := by
  rw [feedAll_eq_iterate _ _ _ (by simp), align_msbBits byte (by omega), length_msbBits,
    ← funext crcBit_eq_shift]
  rfl

theorem crcOf_eq_feedAll (bytes : List U8) :
    crcOf bytes = feedAll crcGenerator 0xffff (wordBits bytes) := by
  unfold crcOf
  generalize (0xffff : U16) = crc
  induction bytes generalizing crc with
  | nil => rfl
  | cons byte bytes ih =>
      rw [List.foldl_cons, ih, crcByte_eq_feedAll, ← feedAll_append]
      rfl

theorem crcGenerator_odd : crcGenerator.getMsbD (16 - 1) = true := by decide

/-- A message followed by two bytes has checksum zero exactly when the two
bytes are the message's checksum, high byte first. -/
theorem crcOf_append_eq_zero_iff (message : List U8) (high low : U8) :
    crcOf (message ++ [high, low]) = 0 ↔ crcOf message = high ++ low := by
  have halign : (align (wordBits [high, low]) : U16) = high ++ low := by
    have hbits : wordBits [high, low] = msbBits (high ++ low) := by
      simpa [wordBits] using (msbBits_append high low).symm
    rw [hbits, align_msbBits _ (by omega)]
    simp
  rw [crcOf_eq_feedAll, crcOf_eq_feedAll message, wordBits, List.flatMap_append, feedAll_append]
  rw [← halign]
  exact feedAll_eq_zero_iff _ _ crcGenerator_odd _ (by simp)

/-- Two byte sequences of one length that differ, and only within sixteen
consecutive bits, have different checksums. -/
theorem crcOf_ne_of_differWithin (xs ys : List U8) (hlen : xs.length = ys.length)
    (hne : xs ≠ ys) (hwindow : DifferWithin 16 (wordBits xs) (wordBits ys)) :
    crcOf xs ≠ crcOf ys := by
  rw [crcOf_eq_feedAll, crcOf_eq_feedAll]
  apply feedAll_ne_of_differWithin _ _ crcGenerator_odd _ _ (by simp [hlen]) _ hwindow
  exact fun h => hne (wordBits_injective xs ys hlen h)

/-- A single bit at the top comes back there only after more steps than the
longest encoding has bits. -/
theorem iterate_shift_crcGenerator_ne {d : Nat} (hpos : 0 < d) (hd : d < 2128) :
    (shift crcGenerator)^[d] (lead true) ≠ lead true :=
  iterate_shift_ne_of_avoids
    (by decide +kernel : avoids crcGenerator (lead true) (lead true) 2127 = true) hpos (by omega)

/-- Two byte sequences of one length, up to 266 bytes, that differ in an odd
number of bits or in exactly two have different checksums. -/
theorem crcOf_ne_of_flips (xs ys : List U8) (hlen : xs.length = ys.length)
    (hmax : xs.length ≤ 266)
    (hflips : Odd (flips (wordBits xs) (wordBits ys)) ∨ flips (wordBits xs) (wordBits ys) = 2) :
    crcOf xs ≠ crcOf ys := by
  have hbits : (wordBits xs).length = (wordBits ys).length := by simp [hlen]
  rw [crcOf_eq_feedAll, crcOf_eq_feedAll]
  rcases hflips with hodd | htwo
  · exact feedAll_ne_of_odd_flips _ _ (by decide) (by decide) _ _ hbits hodd
  · apply feedAll_ne_of_two_flips _ _ crcGenerator_odd _ _ hbits htwo
    intro d hpos hd
    rw [length_wordBits] at hd
    exact iterate_shift_crcGenerator_ne hpos (by omega)

end Esqh
