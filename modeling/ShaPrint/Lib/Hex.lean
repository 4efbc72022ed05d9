import Mathlib.Data.UInt
import ShaPrint.Lib.Digits

/-!
Bytes as hexadecimal text.

* `encode`: two lower-case digits for each byte.
* `decode`: the bytes of an even number of digits, in either case; `decode_encode` is the
  round trip, and `isHex_encode` says that nothing but digits is written.
-/

namespace Hex

open Digits

/-- The two digits of a byte, high half first. -/
def pairOf (b : UInt8) : List Char := [(b.toNat / 16).digitChar, (b.toNat % 16).digitChar]

/-- `hex::encode`. -/
def encode (bytes : List UInt8) : List Char := bytes.flatMap pairOf

/-- `hex::decode`, `none` for an odd number of characters or one that is no digit. -/
def decode : List Char → Option (List UInt8)
  | [] => some []
  | [_] => none
  | high :: low :: rest =>
      match digitOf 16 high, digitOf 16 low with
      | some h, some l => (decode rest).map (UInt8.ofNat (16 * h + l) :: ·)
      | _, _ => none

@[simp] lemma encode_nil : encode [] = [] := rfl

lemma encode_cons (b : UInt8) (bytes : List UInt8) :
    encode (b :: bytes)
      = (b.toNat / 16).digitChar :: (b.toNat % 16).digitChar :: encode bytes := rfl

/-- A byte is its two halves. -/
lemma ofNat_halves (b : UInt8) : UInt8.ofNat (16 * (b.toNat / 16) + b.toNat % 16) = b := by
  rw [Nat.div_add_mod, UInt8.ofNat_toNat]

/-- What is written is read back. -/
theorem decode_encode (bytes : List UInt8) : decode (encode bytes) = some bytes := by
  induction bytes with
  | nil => rfl
  | cons b bytes ih =>
      have hhigh : b.toNat / 16 < 16 := Nat.div_lt_of_lt_mul b.toNat_lt
      have hlow : b.toNat % 16 < 16 := Nat.mod_lt _ (by decide)
      rw [encode_cons, decode, digitOf_digitChar hhigh le_rfl, digitOf_digitChar hlow le_rfl]
      simp only [ih, Option.map_some, ofNat_halves]

/-- Only digits are written. -/
lemma isHex_encode {bytes : List UInt8} {c : Char} (h : c ∈ encode bytes) :
    isDigitOf 16 c = true := by
  obtain ⟨b, -, hc⟩ := List.mem_flatMap.mp h
  have hdigit : ∀ n < 16, isDigitOf 16 n.digitChar = true := by decide
  rcases List.mem_pair.mp hc with rfl | rfl
  · exact hdigit _ (Nat.div_lt_of_lt_mul b.toNat_lt)
  · exact hdigit _ (Nat.mod_lt _ (by decide))

end Hex
