import Mathlib.Tactic.Common

/-!
UTF-8 as characters and bytes, and lossy decoding.

* `encode`: the bytes of a text.
* `decodeLossy`: every maximal part of the bytes that begins no character becomes one
  replacement character. The decoder holds the bytes of the character it is in;
  `feed` is one byte of it.
* `decodeLossy_encode`: the bytes of a text decode to that text.
-/

namespace Utf8

/-- The bytes of a text. -/
def encode (l : List Char) : List UInt8 := l.flatMap String.utf8EncodeChar

@[simp] lemma encode_nil : encode [] = [] := rfl

@[simp] lemma encode_cons (c : Char) (l : List Char) :
    encode (c :: l) = String.utf8EncodeChar c ++ encode l := rfl

@[simp] lemma encode_append (l m : List Char) : encode (l ++ m) = encode l ++ encode m :=
  List.flatMap_append

/-! ### Decoding -/

/-- The replacement character. -/
def replacement : Char := '\uFFFD'

def isTail (b : UInt8) : Bool := 0x80 ≤ b && b ≤ 0xbf

/-- The second bytes that a first byte admits. -/
def isSecond (a b : UInt8) : Bool :=
  if a == 0xe0 then 0xa0 ≤ b && b ≤ 0xbf
  else if a == 0xed then 0x80 ≤ b && b ≤ 0x9f
  else if a == 0xf0 then 0x90 ≤ b && b ≤ 0xbf
  else if a == 0xf4 then 0x80 ≤ b && b ≤ 0x8f
  else isTail b

/-- The character of a list of bytes that is complete. -/
def value : List UInt8 → Char
  | [a] => .ofNat a.toNat
  | [a, b] => .ofNat ((a.toNat - 0xc0) * 64 + (b.toNat - 0x80))
  | [a, b, c] => .ofNat (((a.toNat - 0xe0) * 64 + (b.toNat - 0x80)) * 64 + (c.toNat - 0x80))
  | [a, b, c, d] =>
      .ofNat ((((a.toNat - 0xf0) * 64 + (b.toNat - 0x80)) * 64 + (c.toNat - 0x80)) * 64
        + (d.toNat - 0x80))
  | _ => replacement

/-- How a character goes on: it is complete, it needs more bytes, or there is none. -/
inductive Progress where
  | complete (c : Char)
  | more (pending : List UInt8)
  | invalid
  deriving DecidableEq

/-- The byte `b` after the bytes of a character that has begun. -/
def advance : List UInt8 → UInt8 → Progress
  | [], b =>
      if b < 0x80 then .complete (value [b])
      else if 0xc2 ≤ b && b ≤ 0xf4 then .more [b] else .invalid
  | [a], b =>
      if isSecond a b then if a < 0xe0 then .complete (value [a, b]) else .more [a, b]
      else .invalid
  | [a, b], c =>
      if isTail c then if a < 0xf0 then .complete (value [a, b, c]) else .more [a, b, c]
      else .invalid
  | [a, b, c], d => if isTail d then .complete (value [a, b, c, d]) else .invalid
  | _, _ => .invalid

/-- What one byte adds to the text, and the bytes that are pending after it. A byte that
does not continue the pending ones replaces them and begins anew. -/
def feed (pending : List UInt8) (b : UInt8) : List Char × List UInt8 :=
  match advance pending b with
  | .complete c => ([c], [])
  | .more pending => ([], pending)
  | .invalid =>
      if pending = [] then ([replacement], [])
      else
        match advance [] b with
        | .complete c => ([replacement, c], [])
        | .more pending => ([replacement], pending)
        | .invalid => ([replacement, replacement], [])

/-- Decodes after the pending bytes. -/
def decodeFrom (pending : List UInt8) : List UInt8 → List Char
  | [] => if pending = [] then [] else [replacement]
  | b :: bytes => (feed pending b).1 ++ decodeFrom (feed pending b).2 bytes

/-- `String::from_utf8_lossy`. -/
def decodeLossy (bytes : List UInt8) : List Char := decodeFrom [] bytes

/-! ### Round trip -/

lemma decodeFrom_of_complete {pending bytes : List UInt8} {b : UInt8} {c : Char}
    (h : advance pending b = .complete c) :
    decodeFrom pending (b :: bytes) = c :: decodeFrom [] bytes := by
  simp [decodeFrom, feed, h]

lemma decodeFrom_of_more {pending next bytes : List UInt8} {b : UInt8}
    (h : advance pending b = .more next) :
    decodeFrom pending (b :: bytes) = decodeFrom next bytes := by
  simp [decodeFrom, feed, h]

/-- The code points of characters. -/
lemma toNat_bounds (c : Char) : c.toNat < 0xd800 ∨ (0xdfff < c.toNat ∧ c.toNat < 0x110000) := by
  have h := c.valid
  rw [UInt32.isValidChar, Nat.isValidChar] at h
  exact h

private lemma toNat_ofNat {n : ℕ} (h : n < 256) : (UInt8.ofNat n).toNat = n := by
  rw [UInt8.toNat_ofNat', Nat.mod_eq_of_lt h]

private lemma eq_iff_toNat {a b : UInt8} : a = b ↔ a.toNat = b.toNat := UInt8.toNat_inj.symm

private lemma lt_0x80 {a : UInt8} : a < 0x80 ↔ a.toNat < 0x80 := UInt8.lt_iff_toNat_lt

private lemma lt_0xe0 {a : UInt8} : a < 0xe0 ↔ a.toNat < 0xe0 := UInt8.lt_iff_toNat_lt

private lemma lt_0xf0 {a : UInt8} : a < 0xf0 ↔ a.toNat < 0xf0 := UInt8.lt_iff_toNat_lt

lemma isTail_iff {b : UInt8} : isTail b = true ↔ 0x80 ≤ b.toNat ∧ b.toNat ≤ 0xbf := by
  simp [isTail, UInt8.le_iff_toNat_le]

/-- A first byte of a longer character. -/
lemma advance_nil {a : UInt8} (hlow : 0xc2 ≤ a.toNat) (hhigh : a.toNat ≤ 0xf4) :
    advance [] a = .more [a] := by
  have h1 : ¬ a < 0x80 := by
    rw [lt_0x80]
    omega
  have h2 : (0xc2 ≤ a && a ≤ 0xf4) = true := by
    simp only [Bool.and_eq_true, decide_eq_true_eq, UInt8.le_iff_toNat_le]
    exact ⟨hlow, hhigh⟩
  simp only [advance, if_neg h1, h2, if_true]

/-- Second bytes by the first one. -/
lemma isSecond_iff {a b : UInt8} : isSecond a b = true ↔
    0x80 ≤ b.toNat ∧ b.toNat ≤ 0xbf ∧ (a.toNat = 0xe0 → 0xa0 ≤ b.toNat)
      ∧ (a.toNat = 0xed → b.toNat ≤ 0x9f) ∧ (a.toNat = 0xf0 → 0x90 ≤ b.toNat)
      ∧ (a.toNat = 0xf4 → b.toNat ≤ 0x8f) := by
  unfold isSecond
  simp only [beq_iff_eq, eq_iff_toNat, UInt8.toNat_ofNat]
  split_ifs with h1 h2 h3 h4
  all_goals
    simp only [isTail, Bool.and_eq_true, decide_eq_true_eq, UInt8.le_iff_toNat_le,
      UInt8.toNat_ofNat]
    omega

/-- The bytes of one character decode to it. -/
lemma decodeFrom_encodeChar (c : Char) (bytes : List UInt8) :
    decodeFrom [] (String.utf8EncodeChar c ++ bytes) = c :: decodeFrom [] bytes := by
  have hbounds := toNat_bounds c
  have hc : Char.ofNat c.toNat = c := Char.ofNat_toNat c
  have hval : c.val.toNat = c.toNat := rfl
  unfold String.utf8EncodeChar
  simp only [hval]
  generalize hn : c.toNat = n at *
  split_ifs with h1 h2 h3
  · refine decodeFrom_of_complete ?_
    have hlt : UInt8.ofNat n < 0x80 := by
      rw [lt_0x80, toNat_ofNat (by omega)]
      omega
    simp only [advance, if_pos hlt, value, toNat_ofNat (show n < 256 by omega), hc]
  · have ha : (UInt8.ofNat (n / 64 % 32 + 192)).toNat = n / 64 % 32 + 192 :=
      toNat_ofNat (by omega)
    have hb : (UInt8.ofNat (n % 64 + 128)).toNat = n % 64 + 128 := toNat_ofNat (by omega)
    generalize UInt8.ofNat (n / 64 % 32 + 192) = a at *
    generalize UInt8.ofNat (n % 64 + 128) = b at *
    rw [List.cons_append, decodeFrom_of_more (advance_nil (by omega) (by omega))]
    refine decodeFrom_of_complete ?_
    have hsecond : isSecond a b = true := isSecond_iff.mpr (by omega)
    have hlt : a < 0xe0 := by
      rw [lt_0xe0, ha]
      omega
    simp only [advance, hsecond, if_true, if_pos hlt, value, ha, hb]
    rw [show (n / 64 % 32 + 192 - 192) * 64 + (n % 64 + 128 - 128) = n by omega, hc]
  · have ha : (UInt8.ofNat (n / 4096 % 16 + 224)).toNat = n / 4096 % 16 + 224 :=
      toNat_ofNat (by omega)
    have hb : (UInt8.ofNat (n / 64 % 64 + 128)).toNat = n / 64 % 64 + 128 :=
      toNat_ofNat (by omega)
    have hd : (UInt8.ofNat (n % 64 + 128)).toNat = n % 64 + 128 := toNat_ofNat (by omega)
    generalize UInt8.ofNat (n / 4096 % 16 + 224) = a at *
    generalize UInt8.ofNat (n / 64 % 64 + 128) = b at *
    generalize UInt8.ofNat (n % 64 + 128) = d at *
    have hsecond : isSecond a b = true := isSecond_iff.mpr (by omega)
    have hge : ¬ a < 0xe0 := by
      rw [lt_0xe0, ha]
      omega
    have hlt : a < 0xf0 := by
      rw [lt_0xf0, ha]
      omega
    have htail : isTail d = true := isTail_iff.mpr (by omega)
    have hmore : advance [a] b = .more [a, b] := by
      simp only [advance, hsecond, if_true, if_neg hge]
    rw [List.cons_append, decodeFrom_of_more (advance_nil (by omega) (by omega)),
      List.cons_append, decodeFrom_of_more hmore]
    refine decodeFrom_of_complete ?_
    simp only [advance, htail, if_true, if_pos hlt, value, ha, hb, hd]
    rw [show ((n / 4096 % 16 + 224 - 224) * 64 + (n / 64 % 64 + 128 - 128)) * 64
      + (n % 64 + 128 - 128) = n by omega, hc]
  · have ha : (UInt8.ofNat (n / 262144 % 8 + 240)).toNat = n / 262144 % 8 + 240 :=
      toNat_ofNat (by omega)
    have hb : (UInt8.ofNat (n / 4096 % 64 + 128)).toNat = n / 4096 % 64 + 128 :=
      toNat_ofNat (by omega)
    have hd : (UInt8.ofNat (n / 64 % 64 + 128)).toNat = n / 64 % 64 + 128 :=
      toNat_ofNat (by omega)
    have he : (UInt8.ofNat (n % 64 + 128)).toNat = n % 64 + 128 := toNat_ofNat (by omega)
    generalize UInt8.ofNat (n / 262144 % 8 + 240) = a at *
    generalize UInt8.ofNat (n / 4096 % 64 + 128) = b at *
    generalize UInt8.ofNat (n / 64 % 64 + 128) = d at *
    generalize UInt8.ofNat (n % 64 + 128) = e at *
    have hsecond : isSecond a b = true := isSecond_iff.mpr (by omega)
    have hge : ¬ a < 0xe0 := by
      rw [lt_0xe0, ha]
      omega
    have hge' : ¬ a < 0xf0 := by
      rw [lt_0xf0, ha]
      omega
    have htail : isTail d = true := isTail_iff.mpr (by omega)
    have htail' : isTail e = true := isTail_iff.mpr (by omega)
    have hmore : advance [a] b = .more [a, b] := by
      simp only [advance, hsecond, if_true, if_neg hge]
    have hmore' : advance [a, b] d = .more [a, b, d] := by
      simp only [advance, htail, if_true, if_neg hge']
    rw [List.cons_append, decodeFrom_of_more (advance_nil (by omega) (by omega)),
      List.cons_append, decodeFrom_of_more hmore, List.cons_append, decodeFrom_of_more hmore']
    refine decodeFrom_of_complete ?_
    simp only [advance, htail', if_true, value, ha, hb, hd, he]
    rw [show (((n / 262144 % 8 + 240 - 240) * 64 + (n / 4096 % 64 + 128 - 128)) * 64
      + (n / 64 % 64 + 128 - 128)) * 64 + (n % 64 + 128 - 128) = n by omega, hc]

/-- The bytes of a text decode to it. -/
theorem decodeLossy_encode (l : List Char) : decodeLossy (encode l) = l := by
  unfold decodeLossy
  induction l with
  | nil => rfl
  | cons c l ih => rw [encode_cons, decodeFrom_encodeChar, ih]

/-! ### ASCII -/

/-- A byte below 128 stands for itself only. -/
lemma toNat_of_mem_encodeChar {c : Char} {b : UInt8} (h : b ∈ String.utf8EncodeChar c)
    (hb : b.toNat < 128) : c.toNat = b.toNat := by
  have hbounds := toNat_bounds c
  have hval : c.val.toNat = c.toNat := rfl
  have hof : ∀ n, n < 256 → b = UInt8.ofNat n → b.toNat = n := by
    rintro n hn rfl
    rw [UInt8.toNat_ofNat', Nat.mod_eq_of_lt hn]
  unfold String.utf8EncodeChar at h
  simp only [hval] at h
  generalize c.toNat = n at *
  split_ifs at h
  all_goals
    simp only [List.mem_cons, List.not_mem_nil, or_false] at h
  · exact (hof _ (by omega) h).symm
  · rcases h with h | h <;> have := hof _ (by omega) h <;> omega
  · rcases h with h | h | h <;> have := hof _ (by omega) h <;> omega
  · rcases h with h | h | h | h <;> have := hof _ (by omega) h <;> omega

lemma encode_injective : Function.Injective encode :=
  fun l m h => by rw [← decodeLossy_encode l, h, decodeLossy_encode]

/-- The byte of an ASCII character. -/
lemma encodeChar_ascii {c : Char} (hc : c.toNat < 128) :
    String.utf8EncodeChar c = [UInt8.ofNat c.toNat] := by
  have hval : c.val.toNat = c.toNat := rfl
  unfold String.utf8EncodeChar
  simp only [hval]
  rw [if_pos (by omega)]

/-- An ASCII character is in a text if and only if its byte is. -/
lemma mem_encode_ascii {c : Char} (hc : c.toNat < 128) {l : List Char} :
    UInt8.ofNat c.toNat ∈ encode l ↔ c ∈ l := by
  have hbyte : (UInt8.ofNat c.toNat).toNat = c.toNat := by
    rw [UInt8.toNat_ofNat', Nat.mod_eq_of_lt (by omega)]
  constructor
  · intro h
    obtain ⟨d, hd, hmem⟩ := List.mem_flatMap.mp h
    have hcode := toNat_of_mem_encodeChar hmem (by rwa [hbyte])
    rw [hbyte] at hcode
    rwa [show c = d from Char.ext (UInt32.toNat_inj.mp hcode.symm)]
  · intro h
    refine List.mem_flatMap.mpr ⟨c, h, ?_⟩
    rw [encodeChar_ascii hc]
    exact List.mem_singleton_self _

/-- A text whose bytes begin with those of an ASCII text begins with it. -/
lemma exists_of_encode_eq_append {p l : List Char} {rest : List UInt8}
    (hp : ∀ c ∈ p, c.toNat < 128) (h : encode l = encode p ++ rest) :
    ∃ l', l = p ++ l' ∧ encode l' = rest := by
  induction p generalizing l with
  | nil => exact ⟨l, rfl, h⟩
  | cons c p ih =>
      obtain ⟨hc, htail⟩ := List.forall_mem_cons.mp hp
      rw [encode_cons, encodeChar_ascii hc, List.append_assoc, List.singleton_append] at h
      cases l with
      | nil => cases h
      | cons d l =>
          rw [encode_cons] at h
          have hbyte : UInt8.ofNat c.toNat ∈ String.utf8EncodeChar d := by
            cases hd : String.utf8EncodeChar d with
            | nil =>
                have hsize := String.length_utf8EncodeChar d
                rw [hd] at hsize
                exact absurd hsize (Nat.ne_of_lt d.utf8Size_pos)
            | cons b bytes =>
                rw [hd] at h
                rw [(List.cons.inj h).1]
                exact List.mem_cons_self
          have hnat : (UInt8.ofNat c.toNat).toNat = c.toNat := by
            rw [UInt8.toNat_ofNat', Nat.mod_eq_of_lt (by omega)]
          have hcode := toNat_of_mem_encodeChar hbyte (by omega)
          have heq : d = c := Char.ext (UInt32.toNat_inj.mp (hcode.trans hnat))
          rw [heq, encodeChar_ascii hc] at h
          obtain ⟨l', rfl, hrest⟩ := ih htail (List.cons.inj h).2
          exact ⟨l', by rw [heq, List.cons_append], hrest⟩

/-- The first bytes of an ASCII text are those of its first characters. -/
lemma encode_take {p : List Char} (hp : ∀ c ∈ p, c.toNat < 128) (k : ℕ) :
    (encode p).take k = encode (p.take k) := by
  induction p generalizing k with
  | nil => rw [encode_nil, List.take_nil, List.take_nil, encode_nil]
  | cons c p ih =>
      obtain ⟨hc, htail⟩ := List.forall_mem_cons.mp hp
      cases k with
      | zero => rfl
      | succ k =>
          rw [List.take_succ_cons, encode_cons, encode_cons, encodeChar_ascii hc,
            List.singleton_append, List.singleton_append, List.take_succ_cons, ih htail]

end Utf8
