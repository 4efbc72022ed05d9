import Mathlib.Data.UInt
import Mathlib.Tactic.Common

/-!
Big-endian numbers in a byte string: the two and four byte encodings of a
natural number, the numbers they stand for, and the round trips between the
two. `put32` and `get32` write and read a four byte number inside a byte string,
with the frame rule `get32_put32_of_disjoint`.
-/

namespace BigEndian

/-- The two big-endian bytes of `n`, truncated to 16 bits. -/
def be16 (n : ℕ) : List UInt8 := [UInt8.ofNat (n / 256), UInt8.ofNat n]

/-- The four big-endian bytes of `n`, truncated to 32 bits. -/
def be32 (n : ℕ) : List UInt8 :=
  [UInt8.ofNat (n / 16777216), UInt8.ofNat (n / 65536), UInt8.ofNat (n / 256), UInt8.ofNat n]

-- The powers stand on the left: reducing a product recurses on its right factor.
/-- The number two big-endian bytes stand for. -/
def ofBe16 (hi lo : UInt8) : ℕ := 256 * hi.toNat + lo.toNat

/-- The number four big-endian bytes stand for. -/
def ofBe32 (a b c d : UInt8) : ℕ :=
  16777216 * a.toNat + 65536 * b.toNat + 256 * c.toNat + d.toNat

@[simp] lemma be16_length (n : ℕ) : (be16 n).length = 2 := rfl

@[simp] lemma be32_length (n : ℕ) : (be32 n).length = 4 := rfl

lemma ofBe16_be16 {n : ℕ} (h : n < 65536) :
    ofBe16 (UInt8.ofNat (n / 256)) (UInt8.ofNat n) = n := by
  simp only [ofBe16, UInt8.toNat_ofNat']
  omega

lemma ofBe32_be32 {n : ℕ} (h : n < 4294967296) :
    ofBe32 (UInt8.ofNat (n / 16777216)) (UInt8.ofNat (n / 65536)) (UInt8.ofNat (n / 256))
      (UInt8.ofNat n) = n := by
  simp only [ofBe32, UInt8.toNat_ofNat']
  omega

lemma ofBe16_lt (hi lo : UInt8) : ofBe16 hi lo < 65536 := by
  have h1 := hi.toNat_lt
  have h2 := lo.toNat_lt
  simp only [ofBe16]
  omega

/-- Two bytes are the encoding of the number they stand for. -/
lemma be16_ofBe16 (hi lo : UInt8) : be16 (ofBe16 hi lo) = [hi, lo] := by
  have h1 := hi.toNat_lt
  have h2 := lo.toNat_lt
  have hhi : (256 * hi.toNat + lo.toNat) / 256 = hi.toNat := by omega
  have hlo : UInt8.ofNat (256 * hi.toNat + lo.toNat) = lo := by
    apply UInt8.toNat_inj.mp
    rw [UInt8.toNat_ofNat']
    omega
  simp only [be16, ofBe16, hhi, hlo, UInt8.ofNat_toNat]

/-! ### Numbers inside a byte string -/

/-- Writes the four bytes of `n` at `offset`. -/
def put32 (bytes : List UInt8) (offset n : ℕ) : List UInt8 :=
  (((bytes.set offset (UInt8.ofNat (n / 16777216))).set (offset + 1)
    (UInt8.ofNat (n / 65536))).set (offset + 2) (UInt8.ofNat (n / 256))).set (offset + 3)
    (UInt8.ofNat n)

/-- Reads the four bytes at `offset`. -/
def get32 (bytes : List UInt8) (offset : ℕ) : ℕ :=
  ofBe32 (bytes.getD offset 0) (bytes.getD (offset + 1) 0) (bytes.getD (offset + 2) 0)
    (bytes.getD (offset + 3) 0)

@[simp] lemma put32_length (bytes : List UInt8) (offset n : ℕ) :
    (put32 bytes offset n).length = bytes.length := by simp [put32]

/-- A byte outside the four that are written is kept. -/
lemma getD_put32_of_disjoint {bytes : List UInt8} {offset n i : ℕ}
    (h : i < offset ∨ offset + 4 ≤ i) : (put32 bytes offset n).getD i 0 = bytes.getD i 0 := by
  have h0 : offset ≠ i := by omega
  have h1 : offset + 1 ≠ i := by omega
  have h2 : offset + 2 ≠ i := by omega
  have h3 : offset + 3 ≠ i := by omega
  simp [put32, List.getD_eq_getElem?_getD, List.getElem?_set_ne, h0, h1, h2, h3]

/-- A number is read back where it was written. -/
lemma get32_put32 {bytes : List UInt8} {offset n : ℕ} (hoffset : offset + 4 ≤ bytes.length)
    (hn : n < 4294967296) : get32 (put32 bytes offset n) offset = n := by
  have h0 : offset < bytes.length := by omega
  have h1 : offset + 1 < bytes.length := by omega
  have h2 : offset + 2 < bytes.length := by omega
  have h3 : offset + 3 < bytes.length := by omega
  have hread : get32 (put32 bytes offset n) offset
      = ofBe32 (UInt8.ofNat (n / 16777216)) (UInt8.ofNat (n / 65536)) (UInt8.ofNat (n / 256))
        (UInt8.ofNat n) := by
    simp [get32, put32, List.getD_eq_getElem?_getD, h0, h1, h2, h3]
  rw [hread, ofBe32_be32 hn]

/-- A number written elsewhere changes nothing. -/
lemma get32_put32_of_disjoint {bytes : List UInt8} {offset offset' n : ℕ}
    (h : offset' + 4 ≤ offset ∨ offset + 4 ≤ offset') :
    get32 (put32 bytes offset n) offset' = get32 bytes offset' := by
  unfold get32
  rw [getD_put32_of_disjoint (by omega), getD_put32_of_disjoint (by omega),
    getD_put32_of_disjoint (by omega), getD_put32_of_disjoint (by omega)]

end BigEndian
