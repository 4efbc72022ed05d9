import ShaPrint.Lib.Net.RoundTrip

/-!
The texts of printed IPv6 addresses.

* `mem_ipv6ToChars`, `length_ipv6ToChars_le`: their characters and their length.
* `dropColons_ipv6ToChars_injective`: they differ even without the colons they begin with.
-/

namespace Net

open Digits Split

/-! ### Printed addresses -/

/-- The characters of a printed IPv6 address. -/
def ipv6Alphabet : List Char := "0123456789abcdef:.".toList

lemma mem_hex {n : ℕ} {c : Char} (h : c ∈ hex n) : c ∈ "0123456789abcdef".toList := by
  have hdigit : ∀ d < 16, d.digitChar ∈ "0123456789abcdef".toList := by decide
  obtain ⟨d, hd, rfl⟩ := exists_digitChar_of_mem_toDigits (by decide) h
  exact hdigit d hd

lemma mem_fmtSubslice {groups : List ℕ} {c : Char} (h : c ∈ fmtSubslice groups) :
    c = ':' ∨ c ∈ "0123456789abcdef".toList := by
  cases groups with
  | nil => cases h
  | cons group groups =>
      rw [fmtSubslice_cons, List.mem_append] at h
      rcases h with h | h
      · exact .inr (mem_hex h)
      · obtain ⟨g, -, hmem⟩ := List.mem_flatMap.mp h
        rcases List.mem_cons.mp hmem with rfl | hmem
        · exact .inl rfl
        · exact .inr (mem_hex hmem)

lemma mem_ipv4ToChars {a b c d : ℕ} {x : Char} (h : x ∈ ipv4ToChars [a, b, c, d]) :
    x ∈ "0123456789.".toList := by
  have hdigit : ∀ d < 10, d.digitChar ∈ "0123456789.".toList := by decide
  have hdecimal : ∀ {n : ℕ}, x ∈ decimal n → x ∈ "0123456789.".toList := by
    intro n h
    obtain ⟨d, hd, rfl⟩ := exists_digitChar_of_mem_toDigits (by decide) h
    exact hdigit d hd
  simp only [ipv4ToChars_eq, List.mem_append, List.mem_cons] at h
  rcases h with h | rfl | h | rfl | h | rfl | h
  · exact hdecimal h
  · decide
  · exact hdecimal h
  · decide
  · exact hdecimal h
  · decide
  · exact hdecimal h

lemma mem_ipv6ToChars {groups : List ℕ} (h : IsIpv6 groups) {c : Char}
    (hc : c ∈ ipv6ToChars groups) : c ∈ ipv6Alphabet := by
  have hhex : ∀ {x : Char}, x ∈ "0123456789abcdef".toList → x ∈ ipv6Alphabet := by
    have hsplit : ipv6Alphabet = "0123456789abcdef".toList ++ [':', '.'] := by decide
    intro x hx
    rw [hsplit]
    exact List.mem_append_left _ hx
  have hcolon : ':' ∈ ipv6Alphabet := by decide
  have hslice : ∀ {groups : List ℕ}, c ∈ fmtSubslice groups → c ∈ ipv6Alphabet := by
    intro groups hmem
    rcases mem_fmtSubslice hmem with rfl | hmem
    · exact hcolon
    · exact hhex hmem
  cases shape_ipv6ToChars h with
  | full htext =>
      rw [htext] at hc
      exact hslice hc
  | compressed before after run hrun hgroups htext =>
      rw [htext, List.mem_append, List.mem_append] at hc
      rcases hc with (hc | hc) | hc
      · exact hslice hc
      · have hall : ∀ x ∈ "::".toList, x ∈ ipv6Alphabet :=
          List.all_iff_forall_prop.mp (by decide)
        exact hall c hc
      · exact hslice hc
  | mapped a b x y ha hb hx hy hgroups htext =>
      rw [htext, List.mem_append] at hc
      rcases hc with hc | hc
      · have hall : ∀ x ∈ "::ffff:".toList, x ∈ ipv6Alphabet :=
          List.all_iff_forall_prop.mp (by decide)
        exact hall c hc
      · have hall : ∀ x ∈ "0123456789.".toList, x ∈ ipv6Alphabet :=
          List.all_iff_forall_prop.mp (by decide)
        exact hall c (mem_ipv4ToChars hc)

/-- A printed IPv6 address begins with a digit or with two colons. -/
lemma head_fmtSubslice (group : ℕ) (groups : List ℕ) :
    ∃ c rest, fmtSubslice (group :: groups) = c :: rest ∧ c ≠ ':' := by
  obtain ⟨c, rest, hc⟩ := List.exists_cons_of_ne_nil (hex_ne_nil group)
  refine ⟨c, rest ++ fmtTail groups, by rw [fmtSubslice_cons, hc, List.cons_append], ?_⟩
  rintro rfl
  have hmem : ':' ∈ hex group := by rw [hc]; exact List.mem_cons_self
  exact absurd (mem_hex hmem) (by decide)

lemma colon_mem_ipv6ToChars {groups : List ℕ} (h : IsIpv6 groups) : ':' ∈ ipv6ToChars groups := by
  have hread := parseIpv6_ipv6ToChars h
  obtain ⟨-, hcount⟩ := parseIpv6_eq_some hread
  exact List.count_pos_iff.mp (by omega)

lemma length_fmtSubslice_le {groups : List ℕ} (h : ∀ group ∈ groups, group < 65536) :
    (fmtSubslice groups).length ≤ 5 * groups.length := by
  have htail : ∀ {groups : List ℕ}, (∀ group ∈ groups, group < 65536) →
      (fmtTail groups).length ≤ 5 * groups.length := by
    intro groups h
    induction groups with
    | nil => exact le_refl _
    | cons group groups ih =>
        have hle := length_hex (h group List.mem_cons_self)
        have hmore := ih fun g hg => h g (List.mem_cons_of_mem group hg)
        have htext : fmtTail (group :: groups) = ':' :: (hex group ++ fmtTail groups) := by
          simp [fmtTail]
        rw [htext]
        simp only [List.length_cons, List.length_append]
        omega
  cases groups with
  | nil => exact le_refl _
  | cons group groups =>
      have hle := length_hex (h group List.mem_cons_self)
      have hmore := htail fun g hg => h g (List.mem_cons_of_mem group hg)
      rw [fmtSubslice_cons]
      simp only [List.length_cons, List.length_append]
      omega

lemma length_ipv6ToChars_le {groups : List ℕ} (h : IsIpv6 groups) :
    (ipv6ToChars groups).length ≤ 45 := by
  obtain ⟨hlength, hbound⟩ := h
  cases shape_ipv6ToChars ⟨hlength, hbound⟩ with
  | full htext =>
      have hle := length_fmtSubslice_le hbound
      rw [htext]
      omega
  | compressed before after run hrun hgroups htext =>
      have hbefore : (fmtSubslice before).length ≤ 5 * before.length :=
        length_fmtSubslice_le fun g hg => hbound g (by rw [hgroups]; simp [hg])
      have hafter : (fmtSubslice after).length ≤ 5 * after.length :=
        length_fmtSubslice_le fun g hg => hbound g (by rw [hgroups]; simp [hg])
      have hsum : before.length + run + after.length = 8 := by
        rw [← hlength, hgroups]
        simp only [List.length_append, List.length_replicate]
      have hsep : "::".toList.length = 2 := by decide
      rw [htext, List.length_append, List.length_append, hsep]
      omega
  | mapped a b c d ha hb hc hd hgroups htext =>
      have hsep : "::ffff:".toList.length = 7 := by decide
      have h1 := length_decimal_octet ha
      have h2 := length_decimal_octet hb
      have h3 := length_decimal_octet hc
      have h4 := length_decimal_octet hd
      rw [htext, List.length_append, hsep]
      simp only [ipv4ToChars, List.map_cons, List.map_nil, List.intercalate, List.intersperse,
        List.flatten_cons, List.flatten_nil, List.length_append, List.length_cons,
        List.length_nil]
      omega

/-- A text of groups reads up to its end, or up to the run of zeroes. -/
lemma fmtSubslice_ne_compressed {groups before after : List ℕ} (hlength : groups.length ≤ 8)
    (hgroups : ∀ g ∈ groups, g < 65536) (hlength' : before.length ≤ 8)
    (hbefore : ∀ g ∈ before, g < 65536) :
    fmtSubslice groups ≠ fmtSubslice before ++ "::".toList ++ fmtSubslice after := by
  intro heq
  have hsep : ("::".toList : List Char) = [':', ':'] := by decide
  have hread := readGroups_fmtSubslice [] hlength hgroups (.inl rfl) List.not_mem_nil
  have hread' := readGroups_fmtSubslice (':' :: ':' :: fmtSubslice after) hlength' hbefore
    (.inr ⟨_, rfl⟩) (by simp [dot_not_mem_fmtSubslice])
  rw [List.append_nil, heq, hsep, List.append_assoc, List.cons_append, List.cons_append,
    List.nil_append, hread'] at hread
  simp at hread

lemma fmtSubslice_injective {groups groups' : List ℕ} (hlength : groups.length ≤ 8)
    (hgroups : ∀ g ∈ groups, g < 65536) (hlength' : groups'.length ≤ 8)
    (hgroups' : ∀ g ∈ groups', g < 65536) (heq : fmtSubslice groups = fmtSubslice groups') :
    groups = groups' := by
  have hread := readGroups_fmtSubslice [] hlength hgroups (.inl rfl) List.not_mem_nil
  have hread' := readGroups_fmtSubslice [] hlength' hgroups' (.inl rfl) List.not_mem_nil
  rw [heq, hread'] at hread
  exact (congrArg Prod.fst hread).symm

/-- Without the colons it begins with, an address is its text or that of the groups
after a run of zeroes. -/
lemma dropColons_ipv6ToChars {groups : List ℕ} (h : IsIpv6 groups) :
    (ipv6ToChars groups).dropWhile (· == ':') = ipv6ToChars groups
      ∨ ipv6ToChars groups = "::".toList ++ (ipv6ToChars groups).dropWhile (· == ':') := by
  have hsep : ("::".toList : List Char) = [':', ':'] := by decide
  have hstarts : ∀ (group : ℕ) (more : List ℕ) (rest : List Char),
      (fmtSubslice (group :: more) ++ rest).dropWhile (· == ':')
        = fmtSubslice (group :: more) ++ rest := by
    intro group more rest
    obtain ⟨c, text, htext, hc⟩ := head_fmtSubslice group more
    rw [htext, List.cons_append, List.dropWhile_cons_of_neg (by simpa using hc)]
  have hafter : ∀ after : List ℕ, (fmtSubslice after).dropWhile (· == ':') = fmtSubslice after := by
    intro after
    cases after with
    | nil => rfl
    | cons group more =>
        have := hstarts group more []
        rwa [List.append_nil] at this
  cases shape_ipv6ToChars h with
  | full htext =>
      rw [htext]
      exact .inl (hafter groups)
  | compressed before after run hrun hgroups htext =>
      cases before with
      | nil =>
          refine .inr ?_
          have hnil : fmtSubslice [] = [] := rfl
          rw [htext, hnil, hsep, List.nil_append, List.cons_append, List.cons_append,
            List.nil_append, List.dropWhile_cons_of_pos (by rfl),
            List.dropWhile_cons_of_pos (by rfl), hafter]
          rfl
      | cons group more =>
          rw [htext, List.append_assoc]
          exact .inl (hstarts group more _)
  | mapped a b c d ha hb hc hd hgroups htext =>
      refine .inr ?_
      have hffff : ("::ffff:".toList : List Char) = ':' :: ':' :: 'f' :: "fff:".toList := by decide
      rw [htext, hffff, hsep]
      rfl

/-- No printed address is another one after two colons. -/
lemma ipv6ToChars_ne_colons_append {groups groups' : List ℕ} (h : IsIpv6 groups)
    (h' : IsIpv6 groups')
    (hself : (ipv6ToChars groups).dropWhile (· == ':') = ipv6ToChars groups) :
    ipv6ToChars groups' ≠ "::".toList ++ ipv6ToChars groups := by
  intro htext
  have hsep : ("::".toList : List Char) = [':', ':'] := by decide
  have hffff : ("::ffff:".toList : List Char) = ':' :: ':' :: "ffff:".toList := by decide
  have hnocolon : ∀ {rest : List Char}, ipv6ToChars groups ≠ ':' :: rest := by
    intro rest hcolon
    rw [hcolon, List.dropWhile_cons_of_pos (by rfl)] at hself
    have hle := (List.dropWhile_sublist (· == ':') (l := rest)).length_le
    rw [hself, List.length_cons] at hle
    omega
  have hstarts : ∀ (group : ℕ) (more : List ℕ) (rest rest' : List Char),
      fmtSubslice (group :: more) ++ rest ≠ "::".toList ++ rest' := by
    intro group more rest rest' heq
    obtain ⟨c, text, hc, hne⟩ := head_fmtSubslice group more
    rw [hc, hsep, List.cons_append, List.cons_append] at heq
    exact hne (List.cons.inj heq).1
  rw [hsep, List.cons_append, List.cons_append, List.nil_append] at htext
  cases shape_ipv6ToChars h' with
  | full htext' =>
      cases groups' with
      | nil => cases h'.1
      | cons group more =>
          refine hstarts group more [] (ipv6ToChars groups) ?_
          rw [List.append_nil, ← htext', htext, hsep]
          rfl
  | compressed before after run hrun hgroups htext' =>
      cases before with
      | cons group more =>
          refine hstarts group more ("::".toList ++ fmtSubslice after) (ipv6ToChars groups) ?_
          rw [← List.append_assoc, ← htext', htext, hsep]
          rfl
      | nil =>
          have hlength : run + after.length = 8 := by
            rw [← h'.1, hgroups]
            simp
          have hbound : ∀ g ∈ after, g < 65536 := fun g hg => h'.2 g (by rw [hgroups]; simp [hg])
          have hafter : ipv6ToChars groups = fmtSubslice after := by
            rw [htext', hsep] at htext
            have htext : [':', ':'] ++ fmtSubslice after = [':', ':'] ++ ipv6ToChars groups := htext
            exact (List.append_cancel_left htext).symm
          cases shape_ipv6ToChars h with
          | full htext'' =>
              have hsame := fmtSubslice_injective (by rw [h.1]) h.2 (by omega) hbound
                (htext''.symm.trans hafter)
              have hcount := h.1
              rw [hsame] at hcount
              omega
          | compressed before' after' run' hrun' hgroups' htext'' =>
              have hlength' : before'.length ≤ 8 := by
                rw [← h.1, hgroups']
                simp only [List.length_append]
                omega
              exact fmtSubslice_ne_compressed (by omega) hbound hlength'
                (fun g hg => h.2 g (by rw [hgroups']; simp [hg])) (hafter.symm.trans htext'')
          | mapped a b c d ha hb hc hd hgroups' htext'' =>
              rw [hffff, List.cons_append] at htext''
              exact hnocolon htext''
  | mapped a b c d ha hb hc hd hgroups htext' =>
      have hmapped : ipv6ToChars groups = "ffff:".toList ++ ipv4ToChars [a, b, c, d] := by
        rw [htext', hffff] at htext
        have htext : [':', ':'] ++ ("ffff:".toList ++ ipv4ToChars [a, b, c, d])
            = [':', ':'] ++ ipv6ToChars groups := htext
        exact (List.append_cancel_left htext).symm
      have hdot : '.' ∈ ipv6ToChars groups := by
        rw [hmapped]
        simp [ipv4ToChars, List.intercalate, List.intersperse]
      cases shape_ipv6ToChars h with
      | full htext'' =>
          rw [htext''] at hdot
          exact dot_not_mem_fmtSubslice _ hdot
      | compressed before' after' run' hrun' hgroups' htext'' =>
          rw [htext'', hsep] at hdot
          simp [dot_not_mem_fmtSubslice] at hdot
      | mapped a' b' c' d' ha' hb' hc' hd' hgroups' htext'' =>
          rw [hffff, List.cons_append] at htext''
          exact hnocolon htext''

/-- Printed addresses differ even without the colons they begin with. -/
theorem dropColons_ipv6ToChars_injective {groups groups' : List ℕ} (h : IsIpv6 groups)
    (h' : IsIpv6 groups')
    (heq : (ipv6ToChars groups).dropWhile (· == ':') = (ipv6ToChars groups').dropWhile (· == ':')) :
    groups = groups' := by
  have hinj : ipv6ToChars groups = ipv6ToChars groups' → groups = groups' := by
    intro htext
    have hread := parseIpv6_ipv6ToChars h
    rw [htext, parseIpv6_ipv6ToChars h'] at hread
    exact (Option.some.inj hread).symm
  have hcontra : ∀ {g g' : List ℕ}, IsIpv6 g → IsIpv6 g' →
      (ipv6ToChars g).dropWhile (· == ':') = ipv6ToChars g →
      ipv6ToChars g' ≠ "::".toList ++ ipv6ToChars g := fun hg hg' hself =>
    ipv6ToChars_ne_colons_append hg hg' hself
  rcases dropColons_ipv6ToChars h with hself | hcolons
  · rcases dropColons_ipv6ToChars h' with hself' | hcolons'
    · rw [hself, hself'] at heq
      exact hinj heq
    · rw [← heq, hself] at hcolons'
      exact absurd hcolons' (hcontra h h' hself)
  · rcases dropColons_ipv6ToChars h' with hself' | hcolons'
    · rw [heq, hself'] at hcolons
      exact absurd hcolons (hcontra h' h hself')
    · exact hinj (by rw [hcolons, hcolons', heq])

end Net
