import Mathlib.Data.List.TakeWhile
import ShaPrint.Lib.Digits
import ShaPrint.Lib.Split

/-!
IP addresses as text: the readers and printers of the standard library.

* `readIpv4`, `readIpv6`: a greedy reader each; `parseIpv6`, `parseIp` want the whole
  text.
* `ipv4ToChars`, `ipv6ToChars`: the printers. The longest run of zero groups of an IPv6
  address is left out, and a mapped IPv4 address is printed as one.
* `parseIp_eq_some`: what is read is an address, and the colons of its text are none, or
  at least two.
-/

namespace Net

open Digits Split

/-! ### Reading -/

/-- Reads the character `c`. -/
def readGiven (c : Char) : List Char → Option (List Char)
  | x :: rest => if x = c then some rest else none
  | [] => none

/-- Reads a separator before `inner`, except at index zero. -/
def readSeparator {β : Type} (separator : Char) (index : ℕ)
    (inner : List Char → Option (β × List Char)) (s : List Char) : Option (β × List Char) :=
  if 0 < index then (readGiven separator s).bind inner else inner s

/-- Reads a number of at most `maxDigits` digits and at most `bound`. -/
def readNumber (radix maxDigits : ℕ) (allowZero : Bool) (bound : ℕ) (s : List Char) :
    Option (ℕ × List Char) :=
  let digits := s.takeWhile (isDigitOf radix)
  if digits.length = 0 ∨ maxDigits < digits.length then none
  else if !allowZero && digits.head? = some '0' && 1 < digits.length then none
  else if valueOf radix digits ≤ bound then
    some (valueOf radix digits, s.dropWhile (isDigitOf radix))
  else none

/-- Reads the octets from `index` on. -/
def readOctets (index : ℕ) : ℕ → List Char → Option (List ℕ × List Char)
  | 0, s => some ([], s)
  | n + 1, s =>
      (readSeparator '.' index (readNumber 10 3 false 255) s).bind fun (octet, s) =>
        (readOctets (index + 1) n s).map fun (octets, s) => (octet :: octets, s)

def readIpv4 (s : List Char) : Option (List ℕ × List Char) := readOctets 0 4 s

/-- Reads at most `n` groups from `index` on, and whether they end in an IPv4 address. -/
def readGroups (index : ℕ) : ℕ → List Char → List ℕ × Bool × List Char
  | 0, s => ([], false, s)
  | n + 1, s =>
      match if 0 < n then readSeparator ':' index readIpv4 s else none with
      | some (octets, s) =>
          ([octets.getD 0 0 * 256 + octets.getD 1 0, octets.getD 2 0 * 256 + octets.getD 3 0],
            true, s)
      | none =>
          match readSeparator ':' index (readNumber 16 4 true 65535) s with
          | some (group, s) =>
              let more := readGroups (index + 1) n s
              (group :: more.1, more.2)
          | none => ([], false, s)

def readIpv6 (s : List Char) : Option (List ℕ × List Char) :=
  let (head, ipv4, s) := readGroups 0 8 s
  if head.length = 8 then some (head, s)
  else if ipv4 then none
  else ((readGiven ':' s).bind (readGiven ':')).map fun s =>
    let (tail, _, s) := readGroups 0 (8 - (head.length + 1)) s
    (head ++ List.replicate (8 - head.length - tail.length) 0 ++ tail, s)

/-- `str::parse::<Ipv6Addr>`. -/
def parseIpv6 (s : List Char) : Option (List ℕ) :=
  (readIpv6 s).bind fun (groups, rest) => if rest = [] then some groups else none

/-- An IP address, by its octets or by its groups. -/
inductive IpAddr where
  | v4 (octets : List ℕ)
  | v6 (groups : List ℕ)
  deriving DecidableEq

/-- `str::parse::<IpAddr>`. -/
def parseIp (s : List Char) : Option IpAddr :=
  match readIpv4 s with
  | some (octets, rest) => if rest = [] then some (.v4 octets) else none
  | none => (parseIpv6 s).map .v6

/-! ### Printing -/

def ipv4ToChars (octets : List ℕ) : List Char :=
  List.intercalate ['.'] (octets.map decimal)

def hex (n : ℕ) : List Char := Nat.toDigits 16 n

/-- Groups separated by colons. -/
def fmtSubslice : List ℕ → List Char
  | [] => []
  | first :: tail => hex first ++ tail.flatMap fun group => ':' :: hex group

structure Span where
  start : ℕ
  length : ℕ

/-- The longest run of zeroes, after a longest and a current one up to `index`. -/
def longestZeroes (index : ℕ) (longest current : Span) : List ℕ → Span
  | [] => longest
  | group :: groups =>
      if group = 0 then
        let current := if current.length = 0 then ⟨index, 1⟩ else ⟨current.start, current.length + 1⟩
        longestZeroes (index + 1) (if longest.length < current.length then current else longest)
          current groups
      else longestZeroes (index + 1) longest ⟨0, 0⟩ groups

def zeroes (groups : List ℕ) : Span := longestZeroes 0 ⟨0, 0⟩ ⟨0, 0⟩ groups

/-- `to_ipv4_mapped`. -/
def toIpv4Mapped (groups : List ℕ) : Option (List ℕ) :=
  if groups.take 6 = [0, 0, 0, 0, 0, 0xffff] then
    some [groups.getD 6 0 / 256, groups.getD 6 0 % 256, groups.getD 7 0 / 256,
      groups.getD 7 0 % 256]
  else none

def ipv6ToChars (groups : List ℕ) : List Char :=
  match toIpv4Mapped groups with
  | some octets => "::ffff:".toList ++ ipv4ToChars octets
  | none =>
      let span := zeroes groups
      if 1 < span.length then
        fmtSubslice (groups.take span.start) ++ "::".toList
          ++ fmtSubslice (groups.drop (span.start + span.length))
      else fmtSubslice groups

/-- The groups of an IPv6 address. -/
def IsIpv6 (groups : List ℕ) : Prop := groups.length = 8 ∧ ∀ group ∈ groups, group < 65536

/-! ### What the readers leave -/

lemma readGiven_eq_some {c : Char} {s rest : List Char} :
    readGiven c s = some rest ↔ s = c :: rest := by
  cases s with
  | nil => simp [readGiven]
  | cons x s =>
      rw [readGiven]
      split
      · rename_i h
        simp [h]
      · rename_i h
        simp [h]

lemma readNumber_eq_some {radix maxDigits bound n : ℕ} {allowZero : Bool} {s rest : List Char}
    (h : readNumber radix maxDigits allowZero bound s = some (n, rest)) :
    n ≤ bound ∧ s = s.takeWhile (isDigitOf radix) ++ rest ∧ s.takeWhile (isDigitOf radix) ≠ [] := by
  unfold readNumber at h
  dsimp only at h
  split_ifs at h with h1 h2 h3
  obtain ⟨rfl, rfl⟩ := Prod.mk.inj (Option.some.inj h)
  refine ⟨h3, List.takeWhile_append_dropWhile.symm, fun hnil => h1 (.inl ?_)⟩
  rw [hnil]
  rfl

/-- A number is not read where there is no digit. -/
lemma readNumber_eq_none {radix maxDigits bound : ℕ} {allowZero : Bool} {s : List Char}
    (h : ∀ c ∈ s.head?, isDigitOf radix c = false) :
    readNumber radix maxDigits allowZero bound s = none := by
  have hnil : s.takeWhile (isDigitOf radix) = [] := by
    cases s with
    | nil => rfl
    | cons c s => rw [List.takeWhile_cons_of_neg (by simpa using h c rfl)]
  unfold readNumber
  rw [hnil]
  rfl

lemma takeWhile_append_stop {q : Char → Bool} {a b : List Char} (ha : ∀ c ∈ a, q c = true)
    (hb : ∀ c ∈ b.head?, q c = false) :
    (a ++ b).takeWhile q = a ∧ (a ++ b).dropWhile q = b := by
  induction a with
  | nil =>
      cases b with
      | nil => exact ⟨rfl, rfl⟩
      | cons c b =>
          have hc := hb c rfl
          exact ⟨List.takeWhile_cons_of_neg (by simpa using hc),
            List.dropWhile_cons_of_neg (by simpa using hc)⟩
  | cons c a ih =>
      obtain ⟨h1, h2⟩ := ih fun d hd => ha d (List.mem_cons_of_mem c hd)
      have hc := ha c List.mem_cons_self
      rw [List.cons_append, List.takeWhile_cons_of_pos hc, List.dropWhile_cons_of_pos hc, h1, h2]
      exact ⟨rfl, rfl⟩

/-- A printed number is read up to the next character that is no digit. -/
lemma readNumber_toDigits {radix maxDigits bound n : ℕ} {allowZero : Bool} {rest : List Char}
    (h1 : 1 < radix) (hradix : radix ≤ 16) (hlength : (Nat.toDigits radix n).length ≤ maxDigits)
    (hbound : n ≤ bound) (hrest : ∀ c ∈ rest.head?, isDigitOf radix c = false) :
    readNumber radix maxDigits allowZero bound (Nat.toDigits radix n ++ rest) = some (n, rest) := by
  obtain ⟨htake, hdrop⟩ := takeWhile_append_stop
    (fun c hc => isDigitOf_of_mem_toDigits h1 hradix (n := n) hc) hrest
  have hne : (Nat.toDigits radix n).length ≠ 0 := by
    have := Nat.length_toDigits_pos (b := radix) (n := n)
    omega
  have hzero : (!allowZero && (Nat.toDigits radix n).head? = some '0'
      && 1 < (Nat.toDigits radix n).length) = false := by
    by_contra hcontra
    simp only [Bool.not_eq_false, Bool.and_eq_true, decide_eq_true_eq] at hcontra
    obtain rfl := head?_toDigits h1 hcontra.1.2
    rw [Nat.toDigits_zero] at hcontra
    simp at hcontra
  unfold readNumber
  rw [htake, hdrop]
  dsimp only
  rw [if_neg (by omega), hzero, valueOf_toDigits h1 hradix, if_pos hbound]
  rfl

lemma isDigitOf_colon {radix : ℕ} : isDigitOf radix ':' = false := rfl

lemma isDigitOf_dot {radix : ℕ} : isDigitOf radix '.' = false := rfl

/-! ### IPv4 -/

/-- There is no separator before the first part. -/
lemma readSeparator_zero {β : Type} {separator : Char}
    {inner : List Char → Option (β × List Char)} {s : List Char} :
    readSeparator separator 0 inner s = inner s := rfl

lemma readSeparator_eq_some {β : Type} {separator : Char} {index : ℕ}
    {inner : List Char → Option (β × List Char)} {s : List Char} {out : β × List Char}
    (h : readSeparator separator index inner s = some out) :
    (index = 0 ∧ inner s = some out)
      ∨ (0 < index ∧ ∃ rest, s = separator :: rest ∧ inner rest = some out) := by
  unfold readSeparator at h
  split at h
  · rename_i hindex
    obtain ⟨rest, hrest, hinner⟩ := Option.bind_eq_some_iff.mp h
    exact .inr ⟨hindex, rest, readGiven_eq_some.mp hrest, hinner⟩
  · exact .inl ⟨by omega, h⟩

/-- An IPv4 address has a dot. -/
lemma readIpv4_eq_none {s : List Char} (h : '.' ∉ s) : readIpv4 s = none := by
  rw [Option.eq_none_iff_forall_ne_some]
  intro out hout
  unfold readIpv4 readOctets at hout
  obtain ⟨⟨octet, rest⟩, hoctet, hout⟩ := Option.bind_eq_some_iff.mp hout
  obtain ⟨⟨octets, rest'⟩, hoctets, -⟩ := Option.map_eq_some_iff.mp hout
  unfold readOctets at hoctets
  obtain ⟨⟨octet', rest''⟩, hoctet', -⟩ := Option.bind_eq_some_iff.mp hoctets
  rcases readSeparator_eq_some hoctet with ⟨-, hnumber⟩ | ⟨hindex, -⟩
  · rcases readSeparator_eq_some hoctet' with ⟨hindex, -⟩ | ⟨-, x, rfl, -⟩
    · cases hindex
    · rw [(readNumber_eq_some hnumber).2.1] at h
      simp at h
  · cases hindex

/-- No IPv4 address begins with a character that is no decimal digit. -/
lemma readIpv4_eq_none_of_head {s : List Char} (h : ∀ c ∈ s.head?, isDigitOf 10 c = false) :
    readIpv4 s = none := by
  have hnumber : readSeparator '.' 0 (readNumber 10 3 false 255) s = none :=
    readNumber_eq_none h
  unfold readIpv4 readOctets
  rw [hnumber]
  rfl

lemma length_decimal_octet {n : ℕ} (h : n < 256) : (decimal n).length ≤ 3 :=
  length_decimal_le (by decide) (by omega)

lemma ipv4ToChars_eq (a b c d : ℕ) : ipv4ToChars [a, b, c, d]
    = decimal a ++ '.' :: (decimal b ++ '.' :: (decimal c ++ '.' :: decimal d)) := by
  simp [ipv4ToChars, List.intercalate, List.intersperse]

/-- A printed IPv4 address is read up to the next character that is no digit. -/
lemma readIpv4_ipv4ToChars {a b c d : ℕ} (ha : a < 256) (hb : b < 256) (hc : c < 256)
    (hd : d < 256) (rest : List Char) (hrest : ∀ x ∈ rest.head?, isDigitOf 10 x = false) :
    readIpv4 (ipv4ToChars [a, b, c, d] ++ rest) = some ([a, b, c, d], rest) := by
  have hread : ∀ {n : ℕ} {rest : List Char}, n < 256 →
      (∀ x ∈ rest.head?, isDigitOf 10 x = false) →
      readNumber 10 3 false 255 (decimal n ++ rest) = some (n, rest) := by
    intro n rest hn hrest
    exact readNumber_toDigits (by decide) (by decide) (length_decimal_octet hn) (by omega) hrest
  have hdot : ∀ {x : Char} {rest : List Char}, x ∈ ('.' :: rest).head? →
      isDigitOf 10 x = false := by
    intro x rest hx
    obtain rfl := Option.some.inj hx
    rfl
  have htext : ipv4ToChars [a, b, c, d] ++ rest = decimal a ++ ('.' :: (decimal b
      ++ ('.' :: (decimal c ++ ('.' :: (decimal d ++ rest)))))) := by
    simp only [ipv4ToChars_eq, List.append_assoc, List.cons_append]
  rw [htext]
  simp only [readIpv4, readOctets, readSeparator, Nat.lt_irrefl, if_false, Nat.zero_add,
    Nat.succ_pos, if_true, readGiven, hread ha fun _ => hdot,
    hread hb fun _ => hdot, hread hc fun _ => hdot, hread hd hrest, Option.bind_some,
    Option.map_some]

/-! ### What is read has groups and colons -/

lemma readOctets_length {index n : ℕ} {s rest : List Char} {octets : List ℕ}
    (h : readOctets index n s = some (octets, rest)) :
    octets.length = n ∧ (∀ octet ∈ octets, octet < 256) ∧ s.count ':' = rest.count ':' := by
  induction n generalizing index s octets with
  | zero =>
      obtain ⟨rfl, rfl⟩ := Prod.mk.inj (Option.some.inj h)
      exact ⟨rfl, by simp, rfl⟩
  | succ n ih =>
      unfold readOctets at h
      obtain ⟨⟨octet, s'⟩, hoctet, h⟩ := Option.bind_eq_some_iff.mp h
      obtain ⟨⟨more, s''⟩, hmore, heq⟩ := Option.map_eq_some_iff.mp h
      obtain ⟨rfl, rfl⟩ := Prod.mk.inj heq
      obtain ⟨hlength, hbound, hcount⟩ := ih hmore
      have hnumber : ∀ {t : List Char}, readNumber 10 3 false 255 t = some (octet, s') →
          octet < 256 ∧ t.count ':' = s'.count ':' := by
        intro t ht
        obtain ⟨hle, htext, -⟩ := readNumber_eq_some ht
        refine ⟨by omega, ?_⟩
        have hdigits : (t.takeWhile (isDigitOf 10)).count ':' = 0 := by
          rw [List.count_eq_zero]
          intro hmem
          exact absurd (List.mem_takeWhile_imp hmem) (by decide)
        rw [htext, List.count_append, hdigits, Nat.zero_add]
      rcases readSeparator_eq_some hoctet with ⟨-, hread⟩ | ⟨-, t, rfl, hread⟩
      · obtain ⟨hlt, hsame⟩ := hnumber hread
        exact ⟨by simp [hlength], by simpa [hlt] using hbound, hsame.trans hcount⟩
      · obtain ⟨hlt, hsame⟩ := hnumber hread
        refine ⟨by simp [hlength], by simpa [hlt] using hbound, ?_⟩
        rw [List.count_cons_of_ne (by decide), hsame, hcount]

/-- A number without leading zeros is read where it is printed. -/
lemma eq_decimal_of_readNumber {n maxDigits bound : ℕ} {s rest : List Char}
    (h : readNumber 10 maxDigits false bound s = some (n, rest)) : s = decimal n ++ rest := by
  have htext := (readNumber_eq_some h).2
  unfold readNumber at h
  dsimp only at h
  split_ifs at h with hlength hzero hbound
  obtain ⟨hvalue, -⟩ := Prod.mk.inj (Option.some.inj h)
  have hdigits : decimal (valueOf 10 (s.takeWhile (isDigitOf 10))) = s.takeWhile (isDigitOf 10) := by
    refine decimal_valueOf (fun c hc => List.mem_takeWhile_imp hc) htext.2 fun hhead => ?_
    by_contra hlong
    exact hzero (by simp [hhead, Nat.lt_of_not_le hlong])
  rw [← hvalue, hdigits]
  exact htext.1

lemma eq_of_readOctets {index n : ℕ} {s rest : List Char} {octets : List ℕ} (hindex : 0 < index)
    (h : readOctets index n s = some (octets, rest)) :
    s = octets.flatMap (fun octet => '.' :: decimal octet) ++ rest := by
  induction n generalizing index s octets with
  | zero =>
      obtain ⟨rfl, rfl⟩ := Prod.mk.inj (Option.some.inj h)
      rfl
  | succ n ih =>
      unfold readOctets at h
      obtain ⟨⟨octet, s'⟩, hoctet, h⟩ := Option.bind_eq_some_iff.mp h
      obtain ⟨⟨more, s''⟩, hmore, heq⟩ := Option.map_eq_some_iff.mp h
      obtain ⟨rfl, rfl⟩ := Prod.mk.inj heq
      rcases readSeparator_eq_some hoctet with ⟨hzero, -⟩ | ⟨-, t, rfl, hread⟩
      · omega
      · rw [eq_decimal_of_readNumber hread, ih (Nat.succ_pos index) hmore]
        simp

/-- The only text of an IPv4 address is the printed one. -/
lemma eq_of_readIpv4 {s rest : List Char} {octets : List ℕ}
    (h : readIpv4 s = some (octets, rest)) : s = ipv4ToChars octets ++ rest := by
  unfold readIpv4 readOctets at h
  obtain ⟨⟨a, s'⟩, hfirst, h⟩ := Option.bind_eq_some_iff.mp h
  obtain ⟨⟨more, s''⟩, hmore, heq⟩ := Option.map_eq_some_iff.mp h
  obtain ⟨rfl, rfl⟩ := Prod.mk.inj heq
  have hlength := (readOctets_length hmore).1
  rw [readSeparator_zero] at hfirst
  rw [eq_decimal_of_readNumber hfirst, eq_of_readOctets Nat.one_pos hmore]
  match more, hlength with
  | [b, c, d], _ => simp [ipv4ToChars_eq]

lemma count_colon_readNumber {n maxDigits bound : ℕ} {allowZero : Bool} {s rest : List Char}
    (h : readNumber 16 maxDigits allowZero bound s = some (n, rest)) :
    s.count ':' = rest.count ':' := by
  obtain ⟨-, htext, -⟩ := readNumber_eq_some h
  have hdigits : (s.takeWhile (isDigitOf 16)).count ':' = 0 := by
    rw [List.count_eq_zero]
    intro hmem
    exact absurd (List.mem_takeWhile_imp hmem) (by decide)
  rw [htext, List.count_append, hdigits, Nat.zero_add]

/-- The groups that are read, and the colons between them. -/
lemma readGroups_spec (index n : ℕ) (s : List Char) :
    (readGroups index n s).1.length ≤ n
      ∧ (∀ group ∈ (readGroups index n s).1, group < 65536)
      ∧ (readGroups index n s).2.2.count ':' + (readGroups index n s).1.length
        ≤ s.count ':' + (if index = 0 then 2 else 1)
      ∧ (readGroups index n s).2.2.count ':' ≤ s.count ':' := by
  induction n generalizing index s with
  | zero =>
      refine ⟨le_refl _, by simp [readGroups], ?_, le_refl _⟩
      simp only [readGroups, List.length_nil]
      omega
  | succ n ih =>
      cases hipv4 : (if 0 < n then readSeparator ':' index readIpv4 s else none) with
      | some out =>
          obtain ⟨octets, rest⟩ := out
          have hn : 0 < n := by
            by_contra hn
            rw [if_neg hn] at hipv4
            cases hipv4
          rw [readGroups, hipv4]
          dsimp only
          rw [if_pos hn] at hipv4
          have hoctets : ∀ {t : List Char}, readIpv4 t = some (octets, rest) →
              (∀ i, octets.getD i 0 < 256) ∧ t.count ':' = rest.count ':' := by
            intro t ht
            obtain ⟨-, hbound, hcount⟩ := readOctets_length ht
            refine ⟨fun i => ?_, hcount⟩
            rw [List.getD_eq_getElem?_getD]
            cases hi : octets[i]? with
            | none => exact Nat.zero_lt_succ 255
            | some x => exact hbound x (List.mem_of_getElem? hi)
          have hgroups : (∀ i, octets.getD i 0 < 256) → ∀ group ∈ ([octets.getD 0 0 * 256
              + octets.getD 1 0, octets.getD 2 0 * 256 + octets.getD 3 0] : List ℕ),
              group < 65536 := by
            intro hbound group hgroup
            have h0 := hbound 0
            have h1 := hbound 1
            have h2 := hbound 2
            have h3 := hbound 3
            simp only [List.mem_cons, List.not_mem_nil, or_false] at hgroup
            rcases hgroup with rfl | rfl
            · omega
            · omega
          rcases readSeparator_eq_some hipv4 with ⟨rfl, hread⟩ | ⟨hindex, t, rfl, hread⟩
          · obtain ⟨hbound, hcount⟩ := hoctets hread
            refine ⟨by simp only [List.length_cons, List.length_nil]; omega, hgroups hbound, ?_,
              hcount.ge⟩
            simp only [List.length_cons, List.length_nil, hcount, if_true]
            omega
          · obtain ⟨hbound, hcount⟩ := hoctets hread
            have hne : index ≠ 0 := by omega
            refine ⟨by simp only [List.length_cons, List.length_nil]; omega, hgroups hbound, ?_, ?_⟩
            · simp only [List.length_cons, List.length_nil, List.count_cons_self, hcount,
                if_neg hne]
              omega
            · rw [List.count_cons_self, hcount]
              omega
      | none =>
          rw [readGroups, hipv4]
          dsimp only
          cases hgroup : readSeparator ':' index (readNumber 16 4 true 65535) s with
          | none =>
              refine ⟨by simp, by simp, ?_, le_refl _⟩
              simp only [List.length_nil]
              omega
          | some out =>
              obtain ⟨group, rest⟩ := out
              obtain ⟨hlength, hbound, hcount, hle⟩ := ih (index + 1) rest
              dsimp only
              rw [if_neg (Nat.succ_ne_zero index)] at hcount
              rcases readSeparator_eq_some hgroup with ⟨rfl, hread⟩ | ⟨hindex, t, rfl, hread⟩
              · have hsame := count_colon_readNumber hread
                have hgroup := (readNumber_eq_some hread).1
                refine ⟨by simpa using hlength, List.forall_mem_cons.mpr ⟨by omega, hbound⟩, ?_,
                  by omega⟩
                simp only [List.length_cons, if_true]
                omega
              · have hsame := count_colon_readNumber hread
                have hgroup := (readNumber_eq_some hread).1
                have hne : index ≠ 0 := by omega
                refine ⟨by simpa using hlength, List.forall_mem_cons.mpr ⟨by omega, hbound⟩, ?_, ?_⟩
                · simp only [List.length_cons, List.count_cons_self, if_neg hne]
                  omega
                · rw [List.count_cons_self]
                  omega

/-- What parses as an IPv6 address has eight groups and at least two colons. -/
lemma parseIpv6_eq_some {s : List Char} {groups : List ℕ} (h : parseIpv6 s = some groups) :
    IsIpv6 groups ∧ 2 ≤ s.count ':' := by
  unfold parseIpv6 at h
  obtain ⟨⟨found, rest⟩, hread, h⟩ := Option.bind_eq_some_iff.mp h
  dsimp only at h
  split at h
  · obtain rfl := Option.some.inj h
    obtain ⟨hlength, hbound, hcount, hle⟩ := readGroups_spec 0 8 s
    unfold readIpv6 at hread
    dsimp only at hread
    rw [if_pos rfl] at hcount
    split at hread
    · rename_i height
      obtain ⟨rfl, -⟩ := Prod.mk.inj (Option.some.inj hread)
      exact ⟨⟨height, hbound⟩, by omega⟩
    · split at hread
      · cases hread
      · rename_i hne hipv4
        obtain ⟨rest', hcolons, heq⟩ := Option.map_eq_some_iff.mp hread
        obtain ⟨rest'', hfirst, hsecond⟩ := Option.bind_eq_some_iff.mp hcolons
        have htwo : (readGroups 0 8 s).2.2 = ':' :: ':' :: rest' := by
          rw [readGiven_eq_some.mp hfirst, readGiven_eq_some.mp hsecond]
        obtain ⟨hlength', hbound', -⟩ :=
          readGroups_spec 0 (8 - ((readGroups 0 8 s).1.length + 1)) rest'
        obtain ⟨rfl, -⟩ := Prod.mk.inj heq
        refine ⟨⟨?_, fun group hgroup => ?_⟩, ?_⟩
        · simp only [List.length_append, List.length_replicate]
          omega
        · simp only [List.mem_append, List.mem_replicate] at hgroup
          rcases hgroup with (hgroup | ⟨-, rfl⟩) | hgroup
          · exact hbound group hgroup
          · decide
          · exact hbound' group hgroup
        · rw [htwo, List.count_cons_self, List.count_cons_self] at hle
          omega
  · cases h

/-- An IPv4 address has four octets and no colon, an IPv6 address at least two colons. -/
lemma parseIp_eq_some {s : List Char} {ip : IpAddr} (h : parseIp s = some ip) :
    (∃ a b c d, ip = .v4 [a, b, c, d] ∧ a < 256 ∧ b < 256 ∧ c < 256 ∧ d < 256
        ∧ s.count ':' = 0)
      ∨ ∃ groups, ip = .v6 groups ∧ IsIpv6 groups ∧ 2 ≤ s.count ':' := by
  unfold parseIp at h
  split at h
  · rename_i octets rest hread
    split at h
    · rename_i hrest
      subst hrest
      obtain rfl := Option.some.inj h
      obtain ⟨hlength, hbound, hcount⟩ := readOctets_length hread
      match octets, hlength with
      | [a, b, c, d], _ =>
          exact .inl ⟨a, b, c, d, rfl, hbound a (by simp), hbound b (by simp), hbound c (by simp),
            hbound d (by simp), hcount⟩
    · cases h
  · obtain ⟨groups, hgroups, rfl⟩ := Option.map_eq_some_iff.mp h
    obtain ⟨hipv6, hcount⟩ := parseIpv6_eq_some hgroups
    exact .inr ⟨groups, rfl, hipv6, hcount⟩

end Net
