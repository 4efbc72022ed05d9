import ShaPrint.Lib.Net.Address

/-!
A printed IPv6 address is read back.

* `Shape`, `shape_ipv6ToChars`: the forms a printed IPv6 address takes, from the longest
  run of zeroes that `isRun_zeroes` finds.
* `readGroups_fmtSubslice`: printed groups are read up to the end or to the run of zeroes.
* `parseIpv6_ipv6ToChars`: the round trip, by the form of the text.
-/

namespace Net

open Digits Split

/-! ### Groups -/

lemma length_hex {n : ℕ} (h : n < 65536) : (hex n).length ≤ 4 :=
  (Nat.length_toDigits_le_iff (by decide) (by decide)).mpr (by omega)

lemma isDigitOf_of_mem_hex {n : ℕ} {c : Char} (h : c ∈ hex n) : isDigitOf 16 c = true :=
  isDigitOf_of_mem_toDigits (by decide) (by decide) h

lemma hex_ne_nil (n : ℕ) : hex n ≠ [] := Nat.toDigits_ne_nil

lemma hex_injective : Function.Injective hex := toDigits_injective (by decide) (by decide)

lemma readNumber_hex {n : ℕ} {rest : List Char} (h : n < 65536)
    (hrest : ∀ c ∈ rest.head?, isDigitOf 16 c = false) :
    readNumber 16 4 true 65535 (hex n ++ rest) = some (n, rest) :=
  readNumber_toDigits (by decide) (by decide) (length_hex h) (by omega) hrest

/-- Groups with a colon before each. -/
def fmtTail (groups : List ℕ) : List Char := groups.flatMap fun group => ':' :: hex group

lemma fmtSubslice_cons (group : ℕ) (groups : List ℕ) :
    fmtSubslice (group :: groups) = hex group ++ fmtTail groups := rfl

/-- Where reading groups stops: at the end, or before two colons. -/
def Stops (rest : List Char) : Prop := rest = [] ∨ ∃ more, rest = ':' :: ':' :: more

lemma Stops.head {rest : List Char} (h : Stops rest) :
    ∀ c ∈ rest.head?, isDigitOf 16 c = false := by
  rcases h with rfl | ⟨more, rfl⟩
  · intro c hc
    cases hc
  · intro c hc
    obtain rfl := Option.some.inj hc
    rfl

lemma fmtTail_head {groups : List ℕ} {rest : List Char} (h : Stops rest) :
    ∀ c ∈ (fmtTail groups ++ rest).head?, isDigitOf 16 c = false := by
  cases groups with
  | nil => exact h.head
  | cons group groups =>
      intro c hc
      obtain rfl := Option.some.inj hc
      rfl

lemma dot_not_mem_hex (n : ℕ) : '.' ∉ hex n := by
  intro h
  exact absurd (isDigitOf_of_mem_hex h) (by decide)

lemma dot_not_mem_fmtTail (groups : List ℕ) : '.' ∉ fmtTail groups := by
  intro h
  obtain ⟨group, -, hmem⟩ := List.mem_flatMap.mp h
  rcases List.mem_cons.mp hmem with heq | hmem
  · cases heq
  · exact dot_not_mem_hex group hmem

/-- No IPv4 address ends groups without a dot. -/
lemma readSeparator_readIpv4_eq_none {index : ℕ} {s : List Char} (h : '.' ∉ s) :
    readSeparator ':' index readIpv4 s = none := by
  unfold readSeparator
  split
  · cases s with
    | nil => rfl
    | cons c s =>
        rw [readGiven]
        split
        · exact readIpv4_eq_none fun hmem => h (List.mem_cons_of_mem c hmem)
        · rfl
  · exact readIpv4_eq_none h

/-- Reading stops where no group follows. -/
lemma readGroups_of_stops {index n : ℕ} {rest : List Char} (h : Stops rest)
    (hdot : '.' ∉ rest) : readGroups index n rest = ([], false, rest) := by
  cases n with
  | zero => rfl
  | succ n =>
      have hipv4 : (if 0 < n then readSeparator ':' index readIpv4 rest else none) = none := by
        rw [readSeparator_readIpv4_eq_none hdot, ite_self]
      have hnumber : ∀ {s : List Char}, (∀ c ∈ s.head?, isDigitOf 16 c = false) →
          readNumber 16 4 true 65535 s = none := readNumber_eq_none
      have hgroup : readSeparator ':' index (readNumber 16 4 true 65535) rest = none := by
        unfold readSeparator
        split
        · rcases h with rfl | ⟨more, rfl⟩
          · rfl
          · simp only [readGiven, if_true, Option.bind_some]
            refine hnumber fun c hc => ?_
            obtain rfl := Option.some.inj hc
            rfl
        · exact hnumber h.head
      rw [readGroups, hipv4]
      simp only [hgroup]

/-- One group is read off. -/
lemma readGroups_hex {index n group : ℕ} {s rest : List Char}
    (hs : readSeparator ':' index (readNumber 16 4 true 65535) s = some (group, rest))
    (hdot : '.' ∉ s) :
    readGroups index (n + 1) s
      = (group :: (readGroups (index + 1) n rest).1, (readGroups (index + 1) n rest).2) := by
  have hipv4 : (if 0 < n then readSeparator ':' index readIpv4 s else none) = none := by
    rw [readSeparator_readIpv4_eq_none hdot, ite_self]
  rw [readGroups, hipv4]
  simp only [hs]

/-- Groups with a colon before each are read one by one. -/
lemma readGroups_fmtTail {groups : List ℕ} {index n : ℕ} {rest : List Char} (hindex : 0 < index)
    (hlength : groups.length ≤ n) (hgroups : ∀ group ∈ groups, group < 65536) (h : Stops rest)
    (hdot : '.' ∉ rest) :
    readGroups index n (fmtTail groups ++ rest) = (groups, false, rest) := by
  induction groups generalizing index n with
  | nil => exact readGroups_of_stops h hdot
  | cons group groups ih =>
      cases n with
      | zero => simp at hlength
      | succ n =>
          have htext : fmtTail (group :: groups) ++ rest
              = ':' :: (hex group ++ (fmtTail groups ++ rest)) := by
            simp [fmtTail]
          have hnodot : '.' ∉ fmtTail (group :: groups) ++ rest := by
            rw [List.mem_append, not_or]
            exact ⟨dot_not_mem_fmtTail _, hdot⟩
          have hread : readSeparator ':' index (readNumber 16 4 true 65535)
              (fmtTail (group :: groups) ++ rest) = some (group, fmtTail groups ++ rest) := by
            rw [htext, readSeparator, if_pos hindex, readGiven, if_pos rfl, Option.bind_some]
            exact readNumber_hex (hgroups group List.mem_cons_self) (fmtTail_head h)
          rw [readGroups_hex hread hnodot, ih (by omega) (by simpa using hlength)
            fun g hg => hgroups g (List.mem_cons_of_mem group hg)]

/-- Printed groups are read back up to where reading stops. -/
lemma readGroups_fmtSubslice {groups : List ℕ} {n : ℕ} (rest : List Char)
    (hlength : groups.length ≤ n) (hgroups : ∀ group ∈ groups, group < 65536) (h : Stops rest)
    (hdot : '.' ∉ rest) :
    readGroups 0 n (fmtSubslice groups ++ rest) = (groups, false, rest) := by
  cases groups with
  | nil => exact readGroups_of_stops h hdot
  | cons group groups =>
      cases n with
      | zero => simp at hlength
      | succ n =>
          have hnodot : '.' ∉ fmtSubslice (group :: groups) ++ rest := by
            rw [fmtSubslice_cons, List.mem_append, List.mem_append, not_or, not_or]
            exact ⟨⟨dot_not_mem_hex group, dot_not_mem_fmtTail groups⟩, hdot⟩
          have hread : readSeparator ':' 0 (readNumber 16 4 true 65535)
              (fmtSubslice (group :: groups) ++ rest) = some (group, fmtTail groups ++ rest) := by
            rw [fmtSubslice_cons, List.append_assoc, readSeparator, if_neg (Nat.lt_irrefl 0)]
            exact readNumber_hex (hgroups group List.mem_cons_self) (fmtTail_head h)
          rw [readGroups_hex hread hnodot, readGroups_fmtTail (by omega) (by simpa using hlength)
            (fun g hg => hgroups g (List.mem_cons_of_mem group hg)) h hdot]

/-! ### The longest run of zeroes -/

/-- The span is a run of zeroes. -/
def IsRun (groups : List ℕ) (span : Span) : Prop :=
  ∃ before after, groups = before ++ List.replicate span.length 0 ++ after
    ∧ before.length = span.start

/-- The span ends the groups, or is empty. -/
def EndsIn (groups : List ℕ) (span : Span) : Prop :=
  ∃ before, groups = before ++ List.replicate span.length 0
    ∧ (0 < span.length → before.length = span.start)

lemma IsRun.concat {groups : List ℕ} {span : Span} (h : IsRun groups span) (group : ℕ) :
    IsRun (groups ++ [group]) span := by
  obtain ⟨before, after, rfl, hstart⟩ := h
  exact ⟨before, after ++ [group], by simp, hstart⟩

lemma isRun_longestZeroes (done groups : List ℕ) {longest current : Span}
    (hlongest : IsRun done longest) (hcurrent : EndsIn done current) :
    IsRun (done ++ groups) (longestZeroes done.length longest current groups) := by
  induction groups generalizing done longest current with
  | nil =>
      rw [List.append_nil]
      exact hlongest
  | cons group groups ih =>
      have hmore : done ++ group :: groups = (done ++ [group]) ++ groups := by simp
      have hlength : done.length + 1 = (done ++ [group]).length := by simp
      rw [hmore, longestZeroes, hlength]
      split
      · rename_i hzero
        subst hzero
        obtain ⟨before, hbefore, hstart⟩ := hcurrent
        -- the run that ends here is one longer
        have hgrown : ∀ span : Span, span = (if current.length = 0 then ⟨done.length, 1⟩
            else ⟨current.start, current.length + 1⟩) → EndsIn (done ++ [0]) span
              ∧ (0 < span.length) := by
          rintro span rfl
          split
          · exact ⟨⟨done, rfl, fun _ => rfl⟩, Nat.zero_lt_one⟩
          · rename_i hpos
            refine ⟨⟨before, ?_, fun _ => hstart (by omega)⟩, Nat.succ_pos _⟩
            dsimp only
            rw [hbefore, List.replicate_succ', List.append_assoc]
        obtain ⟨hends, hpos⟩ := hgrown _ rfl
        dsimp only
        generalize (if current.length = 0 then (⟨done.length, 1⟩ : Span)
          else ⟨current.start, current.length + 1⟩) = grown at hends hpos ⊢
        refine ih _ ?_ hends
        split
        · obtain ⟨before', hbefore', hstart'⟩ := hends
          exact ⟨before', [], by rw [List.append_nil]; exact hbefore', hstart' hpos⟩
        · exact hlongest.concat 0
      · exact ih _ (hlongest.concat group) ⟨done ++ [group], by simp, by simp⟩

lemma isRun_zeroes (groups : List ℕ) : IsRun groups (zeroes groups) := by
  have hlongest : IsRun [] ⟨0, 0⟩ := ⟨[], [], rfl, rfl⟩
  have hcurrent : EndsIn [] ⟨0, 0⟩ := ⟨[], rfl, by simp⟩
  exact isRun_longestZeroes [] groups hlongest hcurrent

/-- The forms a printed IPv6 address takes: a mapped IPv4 address, groups around a run of
zeroes, or all groups. -/
inductive Shape (groups : List ℕ) : Prop where
  | mapped (a b c d : ℕ) (ha : a < 256) (hb : b < 256) (hc : c < 256) (hd : d < 256)
      (hgroups : groups = [0, 0, 0, 0, 0, 0xffff, a * 256 + b, c * 256 + d])
      (htext : ipv6ToChars groups = "::ffff:".toList ++ ipv4ToChars [a, b, c, d])
  | compressed (before after : List ℕ) (run : ℕ) (hrun : 1 < run)
      (hgroups : groups = before ++ List.replicate run 0 ++ after)
      (htext : ipv6ToChars groups = fmtSubslice before ++ "::".toList ++ fmtSubslice after)
  | full (htext : ipv6ToChars groups = fmtSubslice groups)

lemma shape_ipv6ToChars {groups : List ℕ} (h : IsIpv6 groups) : Shape groups := by
  cases hmapped : toIpv4Mapped groups with
  | some octets =>
      unfold toIpv4Mapped at hmapped
      split at hmapped
      · rename_i htake
        obtain ⟨hlength, hbound⟩ := h
        -- eight groups, of which the first six are given
        obtain ⟨x, y, rfl⟩ : ∃ x y, groups = [0, 0, 0, 0, 0, 0xffff, x, y] := by
          have hsplit := List.take_append_drop 6 groups
          have hdrop : (groups.drop 6).length = 2 := by rw [List.length_drop, hlength]
          obtain ⟨x, y, hxy⟩ := List.length_eq_two.mp hdrop
          exact ⟨x, y, by rw [← hsplit, htake, hxy]; rfl⟩
        have hx : x < 65536 := hbound x (by simp)
        have hy : y < 65536 := hbound y (by simp)
        refine .mapped (x / 256) (x % 256) (y / 256) (y % 256) (by omega) (by omega) (by omega)
          (by omega) ?_ ?_
        · rw [Nat.div_add_mod', Nat.div_add_mod']
        · rfl
      · cases hmapped
  | none =>
      have hzeroes := isRun_zeroes groups
      by_cases hrun : 1 < (zeroes groups).length
      · have htext : ipv6ToChars groups = fmtSubslice (groups.take (zeroes groups).start)
            ++ "::".toList
            ++ fmtSubslice (groups.drop ((zeroes groups).start + (zeroes groups).length)) := by
          simp only [ipv6ToChars, hmapped, if_pos hrun]
        generalize zeroes groups = span at hzeroes hrun htext
        obtain ⟨before, after, hgroups, hstart⟩ := hzeroes
        have htake : groups.take span.start = before := by
          rw [hgroups, ← hstart, List.append_assoc, List.take_left']
          rfl
        have hdrop : groups.drop (span.start + span.length) = after := by
          rw [hgroups, List.drop_left']
          rw [List.length_append, List.length_replicate, hstart]
        rw [htake, hdrop] at htext
        exact .compressed before after span.length hrun hgroups htext
      · exact .full (by simp only [ipv6ToChars, hmapped, if_neg hrun])

/-! ### Round trip -/

lemma dot_not_mem_fmtSubslice (groups : List ℕ) : '.' ∉ fmtSubslice groups := by
  cases groups with
  | nil => exact List.not_mem_nil
  | cons group groups =>
      rw [fmtSubslice_cons, List.mem_append, not_or]
      exact ⟨dot_not_mem_hex group, dot_not_mem_fmtTail groups⟩

/-- No group is read before a colon. -/
lemma readGroups_colon (n : ℕ) (s : List Char) :
    readGroups 0 n (':' :: s) = ([], false, ':' :: s) := by
  have hhead : ∀ {radix : ℕ}, ∀ c ∈ (':' :: s).head?, isDigitOf radix c = false := by
    intro radix c hc
    obtain rfl := Option.some.inj hc
    rfl
  have hipv4 : readSeparator ':' 0 readIpv4 (':' :: s) = none := by
    rw [readSeparator_zero, readIpv4_eq_none_of_head hhead]
  have hgroup : readSeparator ':' 0 (readNumber 16 4 true 65535) (':' :: s) = none := by
    rw [readSeparator_zero, readNumber_eq_none hhead]
  cases n with
  | zero => rfl
  | succ n =>
      rw [readGroups, hipv4, ite_self]
      simp only [hgroup]

/-- The groups after the zeroes of a mapped IPv4 address. -/
lemma readGroups_mapped {a b c d : ℕ} (ha : a < 256) (hb : b < 256) (hc : c < 256)
    (hd : d < 256) :
    readGroups 0 7 ("ffff:".toList ++ ipv4ToChars [a, b, c, d])
      = ([0xffff, a * 256 + b, c * 256 + d], true, []) := by
  have htext : "ffff:".toList ++ ipv4ToChars [a, b, c, d]
      = hex 0xffff ++ (':' :: ipv4ToChars [a, b, c, d]) := by
    have hffff : "ffff:".toList = hex 0xffff ++ [':'] := by decide
    rw [hffff, List.append_assoc]
    rfl
  have hcolon : ∀ {radix : ℕ}, ∀ x ∈ (':' :: ipv4ToChars [a, b, c, d]).head?,
      isDigitOf radix x = false := by
    intro radix x hx
    obtain rfl := Option.some.inj hx
    rfl
  have hfirst : readSeparator ':' 0 readIpv4 ("ffff:".toList ++ ipv4ToChars [a, b, c, d]) = none := by
    rw [readSeparator_zero]
    refine readIpv4_eq_none_of_head fun x hx => ?_
    obtain rfl := Option.some.inj hx
    rfl
  have hgroup : readSeparator ':' 0 (readNumber 16 4 true 65535)
      ("ffff:".toList ++ ipv4ToChars [a, b, c, d])
      = some (0xffff, ':' :: ipv4ToChars [a, b, c, d]) := by
    rw [htext, readSeparator_zero, readNumber_hex (by decide) hcolon]
  have hipv4 : readSeparator ':' 1 readIpv4 (':' :: ipv4ToChars [a, b, c, d])
      = some ([a, b, c, d], []) := by
    have hread := readIpv4_ipv4ToChars ha hb hc hd [] (by simp)
    rw [List.append_nil] at hread
    rw [readSeparator, if_pos Nat.zero_lt_one, readGiven, if_pos rfl, Option.bind_some, hread]
  have hsecond : readGroups 1 6 (':' :: ipv4ToChars [a, b, c, d])
      = ([a * 256 + b, c * 256 + d], true, []) := by
    rw [readGroups, if_pos (by decide), hipv4]
    rfl
  rw [readGroups, hfirst, ite_self]
  simp only [hgroup, hsecond]

/-- A printed IPv6 address is read back. -/
theorem parseIpv6_ipv6ToChars {groups : List ℕ} (h : IsIpv6 groups) :
    parseIpv6 (ipv6ToChars groups) = some groups := by
  obtain ⟨hlength, hbound⟩ := h
  have hread : readIpv6 (ipv6ToChars groups) = some (groups, []) := by
    cases shape_ipv6ToChars ⟨hlength, hbound⟩ with
    | full htext =>
        have hgroups := readGroups_fmtSubslice [] hlength.le hbound (.inl rfl)
          List.not_mem_nil
        rw [List.append_nil] at hgroups
        rw [htext, readIpv6, hgroups]
        exact if_pos hlength
    | compressed before after run hrun hgroups htext =>
        have hsum : before.length + run + after.length = 8 := by
          rw [← hlength, hgroups]
          simp only [List.length_append, List.length_replicate]
        have hsep : ("::".toList : List Char) = [':', ':'] := by decide
        have hhead := readGroups_fmtSubslice (n := 8) (':' :: ':' :: fmtSubslice after)
          (by omega : before.length ≤ 8) (fun g hg => hbound g (by rw [hgroups]; simp [hg]))
          (.inr ⟨_, rfl⟩)
          (by simp [dot_not_mem_fmtSubslice])
        have htail := readGroups_fmtSubslice []
          (by omega : after.length ≤ 8 - (before.length + 1))
          (fun g hg => hbound g (by rw [hgroups]; simp [hg])) (.inl rfl) List.not_mem_nil
        rw [List.append_nil] at htail
        have hzero : 8 - before.length - after.length = run := by omega
        rw [htext, hsep, List.append_assoc, List.cons_append, List.cons_append, List.nil_append,
          readIpv6, hhead]
        simp only [show before.length ≠ 8 by omega, if_false, Bool.false_eq_true, readGiven,
          if_true, Option.bind_some, Option.map_some, htail, hzero]
        rw [← hgroups]
    | mapped a b c d ha hb hc hd hgroups htext =>
        have hsep : ("::ffff:".toList : List Char) = ':' :: ':' :: "ffff:".toList := by decide
        rw [htext, hsep, List.cons_append, List.cons_append, readIpv6, readGroups_colon]
        simp only [List.length_nil, show (0 : ℕ) ≠ 8 by decide, if_false, Bool.false_eq_true,
          readGiven, if_true, Option.bind_some, Option.map_some, Nat.zero_add,
          show 8 - 1 = 7 from rfl, readGroups_mapped ha hb hc hd]
        rw [hgroups]
        rfl
  rw [parseIpv6, hread, Option.bind_some]
  exact if_pos rfl

end Net
