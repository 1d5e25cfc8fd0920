import Esqh.Firmware.Message
import Esqh.Library.PolynomialRemainder

/-!
The checksum of `src/crc.c` as a polynomial remainder. Its loops divide by
`X ^ 16 + X ^ 12 + X ^ 5 + 1`; what the wire format relies on, a zero checksum
of a message with its checksum appended, and the linearity of the checksum
follow for byte sequences of any length.
-/

namespace Esqh

open Memory ShiftRegister Polynomial

theorem divisor_crcGenerator : divisor crcGenerator = X ^ 16 + X ^ 12 + X ^ 5 + 1 := by
  have hbits : msbBits crcGenerator =
      [false, false, false, true, false, false, false, false,
        false, false, true, false, false, false, false, true] := by
    decide
  rw [divisor, wordPolynomial, hbits]
  simp [bitPolynomial, coefficient]
  ring

theorem crcOf_remainder (bytes : List U8) :
    wordPolynomial (crcOf bytes) =
      (bitPolynomial (wordBits bytes ++ List.replicate 16 false) +
        wordPolynomial (0xffff : U16) * X ^ (8 * bytes.length)) %ₘ
          (X ^ 16 + X ^ 12 + X ^ 5 + 1) := by
  rw [crcOf_eq_feedAll, wordPolynomial_feedAll, length_wordBits, divisor_crcGenerator]

theorem crcOf_append_be16 (bytes : List U8) : crcOf (bytes ++ be16 (crcOf bytes)) = 0 := by
  apply (crcOf_append_eq_zero_iff bytes _ _).mpr
  exact (be16_append (crcOf bytes)).symm

/-- The checksum without its start value: what it adds for the bits in which
two sequences differ. -/
def crcDifference (bytes : List U8) : U16 := feedAll crcGenerator 0 (wordBits bytes)

theorem crcOf_xor (xs ys : List U8) (h : xs.length = ys.length) :
    crcOf xs ^^^ crcOf ys = crcDifference (List.zipWith (· ^^^ ·) xs ys) := by
  have hbits : (wordBits xs).length = (wordBits ys).length := by simp [h]
  rw [crcDifference, wordBits_zipWith_xor xs ys h, crcOf_eq_feedAll, crcOf_eq_feedAll,
    ← feedAll_xor _ _ _ _ _ hbits]
  rfl

/-- The checksum of a whole buffer. -/
theorem crc16_all {n : Nat} (data : Vector U8 n) :
    crc16 (some data) n = .ok (crcOf data.toList) := by
  rw [crc16_eq data n (Nat.le_refl n), List.take_of_length_le (by simp)]

/-- For buffers of every length: the checksum is the remainder of the division,
it leaves nothing when it is appended high byte first, and two checksums differ
by what depends on the difference of the buffers alone. -/
theorem crc16_divides (n : Nat) :
    (∀ data : Vector U8 n, ∃ crc, crc16 (some data) n = .ok crc ∧
      wordPolynomial crc =
        (bitPolynomial (wordBits data.toList ++ List.replicate 16 false) +
          wordPolynomial (0xffff : U16) * X ^ (8 * n)) %ₘ (X ^ 16 + X ^ 12 + X ^ 5 + 1) ∧
      crc16 (some (data ++ #v[(crc >>> 8).setWidth 8, crc.setWidth 8])) (n + 2) = .ok 0) ∧
    ∃ difference : Vector U8 n → U16, ∀ left right : Vector U8 n, ∃ l r,
      crc16 (some left) n = .ok l ∧ crc16 (some right) n = .ok r ∧
      l ^^^ r = difference (Vector.zipWith (· ^^^ ·) left right) := by
  refine ⟨?_, fun bytes => crcDifference bytes.toList, ?_⟩
  · intro data
    refine ⟨crcOf data.toList, crc16_all data, ?_, ?_⟩
    · rw [crcOf_remainder, Vector.length_toList]
    · rw [crc16_all]
      apply congrArg Except.ok
      rw [Vector.toList_append]
      exact crcOf_append_be16 data.toList
  · intro left right
    refine ⟨crcOf left.toList, crcOf right.toList, crc16_all left, crc16_all right, ?_⟩
    rw [crcOf_xor _ _ (by simp)]
    apply congrArg crcDifference
    simp

end Esqh
