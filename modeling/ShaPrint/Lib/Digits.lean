import Mathlib.Data.List.Induction
import Mathlib.Algebra.Group.Nat.Defs
import Mathlib.Data.Nat.Basic
import Mathlib.Tactic.Common

/-!
Numbers as digits: reading a number off a text, and the digits that print it.

* `digitOf`: the value of a digit in a radix up to 16.
* `valueOf`: the value of digits; `valueOf_toDigits` says that the digits of a number
  have its value.
* `parseUnsigned`: a decimal number with an optional plus sign and a bound.
* `head?_toDigits`: the digits of a number begin with a zero only for zero.
-/

namespace Digits

/-- `char::to_digit`. -/
def digitOf (radix : ℕ) (c : Char) : Option ℕ :=
  let digit :=
    if '0' ≤ c && c ≤ '9' then some (c.toNat - 48)
    else if 'a' ≤ c && c ≤ 'f' then some (c.toNat - 87)
    else if 'A' ≤ c && c ≤ 'F' then some (c.toNat - 55)
    else none
  digit.filter (· < radix)

def isDigitOf (radix : ℕ) (c : Char) : Bool := (digitOf radix c).isSome

/-- The value of digits; what is no digit counts as zero. -/
def valueOf (radix : ℕ) (digits : List Char) : ℕ :=
  digits.foldl (fun value c => value * radix + (digitOf radix c).getD 0) 0

/-- `str::parse` of an unsigned number that is at most `max`. -/
def parseUnsigned (max : ℕ) (s : List Char) : Option ℕ :=
  let digits := match s with
    | '+' :: digits => digits
    | digits => digits
  if digits ≠ [] ∧ digits.all Char.isDigit = true ∧ valueOf 10 digits ≤ max then
    some (valueOf 10 digits)
  else none

/-- The digits that print a number. -/
def decimal (n : ℕ) : List Char := Nat.toDigits 10 n

/-! ### The digits of a number -/

lemma digitOf_digitChar {radix n : ℕ} (h : n < radix) (hradix : radix ≤ 16) :
    digitOf radix n.digitChar = some n := by
  have hall : ∀ n < 16, digitOf 16 n.digitChar = some n := by decide
  have hval := hall n (by omega)
  unfold digitOf at hval ⊢
  simp only [Option.filter_eq_some_iff] at hval ⊢
  exact ⟨hval.1, by simpa using h⟩

/-- The digits of a number are digits of its radix. -/
lemma exists_digitChar_of_mem_toDigits {radix n : ℕ} (h1 : 1 < radix) {c : Char}
    (h : c ∈ Nat.toDigits radix n) : ∃ d < radix, c = d.digitChar := by
  induction n using Nat.strongRecOn with
  | ind n ih =>
      rcases Nat.lt_or_ge n radix with hlt | hge
      · rw [Nat.toDigits_of_lt_base hlt, List.mem_singleton] at h
        exact ⟨n, hlt, h⟩
      · rw [Nat.toDigits_of_base_le h1 hge, List.mem_append, List.mem_singleton] at h
        rcases h with h | rfl
        · exact ih (n / radix) (Nat.div_lt_self (by omega) h1) h
        · exact ⟨n % radix, Nat.mod_lt _ (by omega), rfl⟩

lemma isDigitOf_of_mem_toDigits {radix n : ℕ} (h1 : 1 < radix) (hradix : radix ≤ 16) {c : Char}
    (h : c ∈ Nat.toDigits radix n) : isDigitOf radix c = true := by
  obtain ⟨d, hd, rfl⟩ := exists_digitChar_of_mem_toDigits h1 h
  rw [isDigitOf, digitOf_digitChar hd hradix]
  rfl

lemma valueOf_concat (radix : ℕ) (digits : List Char) (c : Char) :
    valueOf radix (digits ++ [c]) = valueOf radix digits * radix + (digitOf radix c).getD 0 := by
  simp [valueOf]

/-- The digits of a number have its value. -/
lemma valueOf_toDigits {radix : ℕ} (h1 : 1 < radix) (hradix : radix ≤ 16) (n : ℕ) :
    valueOf radix (Nat.toDigits radix n) = n := by
  induction n using Nat.strongRecOn with
  | ind n ih =>
      rcases Nat.lt_or_ge n radix with hlt | hge
      · rw [Nat.toDigits_of_lt_base hlt, ← List.nil_append [n.digitChar], valueOf_concat,
          digitOf_digitChar hlt hradix]
        simp [valueOf]
      · rw [Nat.toDigits_of_base_le h1 hge, valueOf_concat,
          ih _ (Nat.div_lt_self (by omega) h1),
          digitOf_digitChar (Nat.mod_lt _ (by omega)) hradix, Option.getD_some]
        exact Nat.div_add_mod' n radix

/-- Only zero is printed with a leading zero. -/
lemma head?_toDigits {radix n : ℕ} (h1 : 1 < radix) (h : (Nat.toDigits radix n).head? = some '0') :
    n = 0 := by
  induction n using Nat.strongRecOn with
  | ind n ih =>
      rcases Nat.lt_or_ge n radix with hlt | hge
      · rw [Nat.toDigits_of_lt_base hlt, List.head?_cons, Option.some.injEq,
          Nat.digitChar_eq_zero] at h
        exact h
      · have hquot : 0 < n / radix := Nat.div_pos hge (by omega)
        obtain ⟨c, digits, hdigits⟩ := List.exists_cons_of_ne_nil
          (Nat.toDigits_ne_nil (n := n / radix) (b := radix))
        rw [Nat.toDigits_of_base_le h1 hge, hdigits, List.cons_append, List.head?_cons] at h
        have hzero := ih (n / radix) (Nat.div_lt_self (by omega) h1) (by rw [hdigits]; exact h)
        omega

lemma toDigits_injective {radix : ℕ} (h1 : 1 < radix) (hradix : radix ≤ 16) :
    Function.Injective (Nat.toDigits radix) := by
  intro m n h
  rw [← valueOf_toDigits h1 hradix m, h, valueOf_toDigits h1 hradix]

/-! ### Decimal numbers -/

lemma isDigit_of_mem_decimal {n : ℕ} {c : Char} (h : c ∈ decimal n) : c.isDigit = true :=
  Nat.isDigit_of_mem_toDigits (by decide) (by decide) h

lemma decimal_ne_nil (n : ℕ) : decimal n ≠ [] := Nat.toDigits_ne_nil

lemma valueOf_decimal (n : ℕ) : valueOf 10 (decimal n) = n :=
  valueOf_toDigits (by decide) (by decide) n

lemma decimal_injective : Function.Injective decimal := toDigits_injective (by decide) (by decide)

lemma length_decimal_le {n k : ℕ} (hk : 0 < k) (h : n < 10 ^ k) : (decimal n).length ≤ k :=
  (Nat.length_toDigits_le_iff (by decide) hk).mpr h

/-- A digit is the character of its value. -/
lemma digitChar_digitOf {c : Char} (h : isDigitOf 10 c = true) :
    (digitOf 10 c).getD 0 < 10 ∧ ((digitOf 10 c).getD 0).digitChar = c := by
  obtain ⟨d, hd⟩ := Option.isSome_iff_exists.mp h
  obtain ⟨hcases, hlt⟩ := Option.filter_eq_some_iff.mp hd
  have hlt : d < 10 := by simpa using hlt
  rw [hd, Option.getD_some]
  refine ⟨hlt, ?_⟩
  split_ifs at hcases with hdigit hlower hupper
  · obtain rfl := Option.some.inj hcases
    have hc : c.toNat = 48 + (c.toNat - 48) := by
      have hle : '0' ≤ c := by simpa using (Bool.and_eq_true_iff.mp hdigit).1
      have hle : '0'.toNat ≤ c.toNat := hle
      have hzero : '0'.toNat = 48 := rfl
      omega
    have hall : ∀ d < 10, d.digitChar = Char.ofNat (48 + d) := by decide
    rw [hall _ hlt, ← hc, Char.ofNat_toNat]
  · have hle : 'a' ≤ c := by simpa using (Bool.and_eq_true_iff.mp hlower).1
    have hle : 'a'.toNat ≤ c.toNat := hle
    have ha : 'a'.toNat = 97 := rfl
    have hd : c.toNat - 87 = d := Option.some.inj hcases
    omega
  · have hle : 'A' ≤ c := by simpa using (Bool.and_eq_true_iff.mp hupper).1
    have hle : 'A'.toNat ≤ c.toNat := hle
    have ha : 'A'.toNat = 65 := rfl
    have hd : c.toNat - 55 = d := Option.some.inj hcases
    omega

/-- Digits without a leading zero are printed as they are. -/
lemma decimal_valueOf {digits : List Char} (h : ∀ c ∈ digits, isDigitOf 10 c = true)
    (hne : digits ≠ []) (hzero : digits.head? = some '0' → digits.length ≤ 1) :
    decimal (valueOf 10 digits) = digits := by
  induction digits using List.reverseRecOn with
  | nil => exact absurd rfl hne
  | append_singleton digits c ih =>
      obtain ⟨hlt, hchar⟩ := digitChar_digitOf (h c (by simp))
      rw [valueOf_concat]
      cases digits with
      | nil =>
          rw [valueOf, List.foldl_nil, Nat.zero_mul, Nat.zero_add, decimal,
            Nat.toDigits_of_lt_base hlt, hchar, List.nil_append]
      | cons first digits =>
          have hfirst : first ≠ '0' := by
            rintro rfl
            have hlength := hzero rfl
            simp at hlength
          have hrest := ih (fun d hd => h d (List.mem_append_left _ hd)) (by simp)
            fun hhead => absurd (Option.some.inj hhead) hfirst
          have hpos : 0 < valueOf 10 (first :: digits) := by
            by_contra hnot
            rw [Nat.eq_zero_of_not_pos hnot] at hrest
            have hdecimal : decimal 0 = ['0'] := rfl
            rw [hdecimal] at hrest
            exact hfirst (List.cons.inj hrest).1.symm
          calc decimal (valueOf 10 (first :: digits) * 10 + (digitOf 10 c).getD 0)
              = Nat.toDigits 10 (valueOf 10 (first :: digits))
                ++ Nat.toDigits 10 ((digitOf 10 c).getD 0) := by
                rw [Nat.toDigits_append_toDigits (by decide) hpos hlt, decimal, Nat.mul_comm]
            _ = (first :: digits) ++ [c] := by
                rw [Nat.toDigits_of_lt_base hlt, hchar]
                exact congrArg (· ++ [c]) hrest

/-- A printed number is read back. -/
lemma parseUnsigned_decimal {max n : ℕ} (h : n ≤ max) : parseUnsigned max (decimal n) = some n := by
  have hall : (decimal n).all Char.isDigit = true :=
    List.all_eq_true.mpr fun c hc => isDigit_of_mem_decimal hc
  unfold parseUnsigned
  split
  · rename_i digits heq
    have hplus := isDigit_of_mem_decimal (n := n) (c := '+') (by rw [heq]; exact List.mem_cons_self)
    exact absurd hplus (by decide)
  · simp only [valueOf_decimal]
    rw [if_pos ⟨decimal_ne_nil n, hall, h⟩]

/-- A number that is read has only digits, after an optional sign. -/
lemma parseUnsigned_eq_some {max n : ℕ} {s : List Char} (h : parseUnsigned max s = some n) :
    n ≤ max ∧ s ≠ [] ∧ ∀ c ∈ s, c.isDigit = true ∨ c = '+' := by
  unfold parseUnsigned at h
  split at h
  · rename_i digits
    simp only [Option.ite_none_right_eq_some, Option.some.injEq] at h
    obtain ⟨⟨-, hall, hle⟩, rfl⟩ := h
    refine ⟨hle, List.cons_ne_nil _ _, fun c hc => ?_⟩
    rcases List.mem_cons.mp hc with rfl | hc
    · exact .inr rfl
    · exact .inl (List.all_eq_true.mp hall c hc)
  · simp only [Option.ite_none_right_eq_some, Option.some.injEq] at h
    obtain ⟨⟨hne, hall, hle⟩, rfl⟩ := h
    exact ⟨hle, hne, fun c hc => .inl (List.all_eq_true.mp hall c hc)⟩

end Digits
