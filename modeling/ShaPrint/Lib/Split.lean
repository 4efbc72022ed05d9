import Mathlib.Data.Bool.AllAny
import Mathlib.Data.List.Basic
import Mathlib.Data.List.Infix
import Mathlib.Data.Nat.Find
import Mathlib.Tactic.Common

/-!
Splitting a list at a separator, once from either end or everywhere.

* `splitOnce`, `rsplitOnce`: the parts around the first and the last occurrence;
  `splitOnce_eq_some` and `rsplitOnce_eq_some` characterise them, and for a single
  element `splitOnce_singleton`, `rsplitOnce_singleton` say that the element is not
  in the part that was searched.
* `splitOn_append_cons`: splitting everywhere peels off the first part.
* `trimBoth`: removing what satisfies a predicate at both ends; `trimBoth_eq_self_iff`
  says which lists stay as they are.
-/

namespace Split

variable {α : Type*}

/-! ### Around one occurrence -/

section Once

variable [DecidableEq α] {l sep p s : List α} {a : α}

/-- The parts around the first occurrence of `sep`. -/
def splitOnce (l sep : List α) : Option (List α × List α) := l.dropInfix? sep

/-- The parts around the last occurrence of `sep`. -/
def rsplitOnce (l sep : List α) : Option (List α × List α) :=
  (splitOnce l.reverse sep.reverse).map fun parts => (parts.2.reverse, parts.1.reverse)

lemma splitOnce_eq_some :
    splitOnce l sep = some (p, s) ↔
      l = p ++ sep ++ s ∧ ∀ p' s', l = p' ++ sep ++ s' → p.length ≤ p'.length := by
  unfold splitOnce
  rw [List.dropInfix?_eq_some_iff]
  constructor
  · rintro ⟨⟨i, rfl, hi⟩, hfirst⟩
    obtain rfl := eq_of_beq hi
    exact ⟨rfl, fun p' s' h => hfirst p' i s' h BEq.rfl⟩
  · rintro ⟨rfl, hfirst⟩
    refine ⟨⟨sep, rfl, BEq.rfl⟩, fun p' i s' h hi => ?_⟩
    obtain rfl := eq_of_beq hi
    exact hfirst p' s' h

lemma rsplitOnce_eq_some :
    rsplitOnce l sep = some (p, s) ↔
      l = p ++ sep ++ s ∧ ∀ p' s', l = p' ++ sep ++ s' → s.length ≤ s'.length := by
  have hrev : rsplitOnce l sep = some (p, s)
      ↔ splitOnce l.reverse sep.reverse = some (s.reverse, p.reverse) := by
    unfold rsplitOnce
    rw [Option.map_eq_some_iff]
    constructor
    · rintro ⟨⟨x, y⟩, h, heq⟩
      obtain ⟨rfl, rfl⟩ := Prod.mk.inj heq
      simpa using h
    · intro h
      exact ⟨_, h, by simp⟩
  rw [hrev, splitOnce_eq_some]
  constructor
  · rintro ⟨h, hfirst⟩
    refine ⟨by simpa using congrArg List.reverse h, fun p' s' h' => ?_⟩
    simpa using hfirst s'.reverse p'.reverse (by simp [h'])
  · rintro ⟨rfl, hlast⟩
    refine ⟨by simp, fun p' s' h' => ?_⟩
    simpa using hlast s'.reverse p'.reverse (by simpa using congrArg List.reverse h')

/-- What follows the first occurrence does not decide where it is. -/
lemma splitOnce_congr (h : splitOnce (p ++ sep ++ s) sep = some (p, s)) (t : List α) :
    splitOnce (p ++ sep ++ t) sep = some (p, t) := by
  obtain ⟨-, hfirst⟩ := splitOnce_eq_some.mp h
  refine splitOnce_eq_some.mpr ⟨rfl, fun p' s' heq => ?_⟩
  by_contra hlt
  -- an earlier occurrence would end before the rest begins
  have hearlier : p' ++ sep <+: p ++ sep ++ t := ⟨s', heq.symm⟩
  have hprefix : p' ++ sep <+: p ++ sep := by
    refine List.prefix_of_prefix_length_le hearlier (List.prefix_append _ t) ?_
    simp only [List.length_append]
    omega
  obtain ⟨u, hu⟩ := hprefix
  exact hlt (hfirst p' (u ++ s) (by rw [← List.append_assoc, hu]))

/-- A list that does not begin with the separator is split where its tail is. -/
lemma splitOnce_cons (h : splitOnce (a :: l) sep = some (a :: p, s)) :
    splitOnce l sep = some (p, s) ∧ ¬sep <+: a :: l := by
  obtain ⟨heq, hfirst⟩ := splitOnce_eq_some.mp h
  refine ⟨splitOnce_eq_some.mpr ⟨List.cons.inj heq |>.2, fun p' s' h' => ?_⟩, ?_⟩
  · have hle := hfirst (a :: p') s' (by rw [h', List.cons_append, List.cons_append])
    simpa using hle
  · rintro ⟨t, ht⟩
    have hle := hfirst [] t (by rw [List.nil_append, ht])
    simp at hle

/-- Where the separator occurs, the list splits. -/
lemma splitOnce_isSome_iff : (splitOnce l sep).isSome ↔ sep <:+: l := by
  constructor
  · intro h
    obtain ⟨⟨p, s⟩, hps⟩ := Option.isSome_iff_exists.mp h
    obtain ⟨rfl, -⟩ := splitOnce_eq_some.mp hps
    exact ⟨p, s, rfl⟩
  · rintro ⟨p, s, h⟩
    -- the occurrence with the shortest part before it
    classical
    have hex : ∃ n, ∃ p s, l = p ++ sep ++ s ∧ p.length = n := ⟨_, p, s, h.symm, rfl⟩
    obtain ⟨p₀, s₀, h₀, hlen⟩ := Nat.find_spec hex
    have hsplit : splitOnce l sep = some (p₀, s₀) := splitOnce_eq_some.mpr ⟨h₀, fun p' s' h' =>
      hlen ▸ Nat.find_min' hex ⟨p', s', h', rfl⟩⟩
    rw [hsplit]
    rfl

lemma splitOnce_eq_none : splitOnce l sep = none ↔ ¬ sep <:+: l := by
  rw [← splitOnce_isSome_iff, Bool.not_eq_true, Option.isSome_eq_false_iff, Option.isNone_iff_eq_none]

lemma rsplitOnce_eq_none : rsplitOnce l sep = none ↔ ¬ sep <:+: l := by
  unfold rsplitOnce
  rw [Option.map_eq_none_iff, splitOnce_eq_none, List.reverse_infix]

/-- Splitting at one element. -/
lemma splitOnce_singleton : splitOnce l [a] = some (p, s) ↔ l = p ++ a :: s ∧ a ∉ p := by
  rw [splitOnce_eq_some]
  constructor
  · rintro ⟨rfl, hfirst⟩
    refine ⟨by simp, fun ha => ?_⟩
    obtain ⟨x, y, rfl⟩ := List.append_of_mem ha
    have hle := hfirst x (y ++ [a] ++ s) (by simp)
    rw [List.length_append, List.length_cons] at hle
    omega
  · rintro ⟨rfl, ha⟩
    refine ⟨by simp, fun p' s' h => ?_⟩
    by_contra hlt
    -- a shorter first part would have the element inside `p`
    rw [List.append_assoc, List.append_eq_append_iff] at h
    rcases h with ⟨x, rfl, hx⟩ | ⟨x, rfl, hx⟩
    · simp at hlt
    · cases x with
      | nil => simp at hlt
      | cons b x =>
          rw [List.singleton_append, List.cons_append, List.cons.injEq] at hx
          obtain ⟨rfl, -⟩ := hx
          simp at ha

lemma rsplitOnce_singleton : rsplitOnce l [a] = some (p, s) ↔ l = p ++ a :: s ∧ a ∉ s := by
  have hrev : rsplitOnce l [a] = some (p, s)
      ↔ splitOnce l.reverse [a] = some (s.reverse, p.reverse) := by
    rw [rsplitOnce_eq_some, splitOnce_eq_some]
    constructor
    · rintro ⟨rfl, hlast⟩
      refine ⟨by simp, fun p' s' h' => ?_⟩
      simpa using hlast s'.reverse p'.reverse (by simpa using congrArg List.reverse h')
    · rintro ⟨h, hfirst⟩
      refine ⟨by simpa using congrArg List.reverse h, fun p' s' h' => ?_⟩
      simpa using hfirst s'.reverse p'.reverse (by simp [h'])
  rw [hrev, splitOnce_singleton]
  constructor
  · rintro ⟨h, ha⟩
    exact ⟨by simpa using congrArg List.reverse h, by simpa using ha⟩
  · rintro ⟨rfl, ha⟩
    exact ⟨by simp, by simpa using ha⟩

/-- The last occurrence of an element splits a list in one way. -/
lemma append_cons_inj {p' s' : List α} (h : p ++ a :: s = p' ++ a :: s') (hs : a ∉ s)
    (hs' : a ∉ s') : p = p' ∧ s = s' := by
  have hleft : rsplitOnce (p ++ a :: s) [a] = some (p, s) := rsplitOnce_singleton.mpr ⟨rfl, hs⟩
  have hright : rsplitOnce (p ++ a :: s) [a] = some (p', s') := rsplitOnce_singleton.mpr ⟨h, hs'⟩
  exact Prod.mk.inj (Option.some.inj (hleft.symm.trans hright))

/-- A separator is found last where its last element does not occur after it. -/
lemma rsplitOnce_concat {t : List α} (ha : a ∉ s) :
    rsplitOnce (p ++ (t ++ [a]) ++ s) (t ++ [a]) = some (p, s) := by
  rw [rsplitOnce_eq_some]
  refine ⟨rfl, fun p' s' h => ?_⟩
  by_contra hlt
  have hsplit : (p ++ t) ++ a :: s = (p' ++ t) ++ a :: s' := by simpa using h
  rw [List.append_eq_append_iff] at hsplit
  rcases hsplit with ⟨x, -, hx⟩ | ⟨x, -, hx⟩
  · -- the other occurrence ends in the rest
    cases x with
    | nil =>
        obtain ⟨-, rfl⟩ := List.cons.inj hx
        exact hlt le_rfl
    | cons b x =>
        obtain ⟨-, rfl⟩ := List.cons.inj hx
        exact ha (List.mem_append_right _ List.mem_cons_self)
  · have hlength := congrArg List.length hx
    simp only [List.length_cons, List.length_append] at hlength
    omega

omit [DecidableEq α] in
lemma singleton_infix_iff : [a] <:+: l ↔ a ∈ l := by
  constructor
  · rintro ⟨p, s, rfl⟩
    simp
  · intro h
    obtain ⟨p, s, rfl⟩ := List.append_of_mem h
    exact ⟨p, s, by simp⟩

lemma splitOnce_singleton_none : splitOnce l [a] = none ↔ a ∉ l := by
  rw [splitOnce_eq_none, singleton_infix_iff]

lemma rsplitOnce_singleton_none : rsplitOnce l [a] = none ↔ a ∉ l := by
  rw [rsplitOnce_eq_none, singleton_infix_iff]

/-- `dropPrefix?` on a list that has the prefix. -/
lemma dropPrefix?_eq_some : l.dropPrefix? sep = some s ↔ l = sep ++ s := by
  rw [List.dropPrefix?_eq_some_iff]
  constructor
  · rintro ⟨p, rfl, hp⟩
    rw [eq_of_beq hp]
  · rintro rfl
    exact ⟨sep, rfl, BEq.rfl⟩

lemma dropSuffix?_eq_some : l.dropSuffix? sep = some p ↔ l = p ++ sep := by
  rw [List.dropSuffix?_eq_some_iff]
  constructor
  · rintro ⟨s, rfl, hs⟩
    rw [eq_of_beq hs]
  · rintro rfl
    exact ⟨sep, rfl, BEq.rfl⟩

lemma dropPrefix?_eq_none : l.dropPrefix? sep = none ↔ ¬ sep <+: l := by
  rw [Option.eq_none_iff_forall_ne_some]
  constructor
  · rintro h ⟨s, rfl⟩
    exact h s (dropPrefix?_eq_some.mpr rfl)
  · intro h s hs
    exact h ⟨s, (dropPrefix?_eq_some.mp hs).symm⟩

end Once

/-! ### Everywhere -/

section Everywhere

variable [DecidableEq α] {l p s : List α} {a : α}

/-- Splitting everywhere peels off the part before the first occurrence. -/
lemma splitOn_append_cons (ha : a ∉ p) : (p ++ a :: s).splitOn a = p :: s.splitOn a := by
  induction p with
  | nil => simp [List.splitOn, List.splitOnP_cons_eq_if_modifyHead]
  | cons b p ih =>
      rw [List.mem_cons, not_or] at ha
      have hb : (b == a) = false := beq_false_of_ne (Ne.symm ha.1)
      have ih := ih ha.2
      unfold List.splitOn at ih ⊢
      rw [List.cons_append, List.splitOnP_cons_eq_if_modifyHead, if_neg (by simpa using hb), ih]
      rfl

lemma splitOn_of_not_mem (ha : a ∉ l) : l.splitOn a = [l] := by
  induction l with
  | nil => rfl
  | cons b l ih =>
      rw [List.mem_cons, not_or] at ha
      have hb : (b == a) = false := beq_false_of_ne (Ne.symm ha.1)
      have ih := ih ha.2
      unfold List.splitOn at ih ⊢
      rw [List.splitOnP_cons_eq_if_modifyHead, if_neg (by simpa using hb), ih]
      rfl

lemma splitOn_ne_nil : l.splitOn a ≠ [] := List.splitOnP_ne_nil _ _

/-- The parts are made of the list's elements. -/
lemma mem_of_mem_splitOn {part : List α} {b : α} (hpart : part ∈ l.splitOn a) (hb : b ∈ part) :
    b ∈ l := by
  induction l generalizing part with
  | nil =>
      rw [List.splitOn_nil, List.mem_singleton] at hpart
      exact hpart ▸ hb
  | cons c l ih =>
      unfold List.splitOn at ih hpart
      rw [List.splitOnP_cons_eq_if_modifyHead] at hpart
      split at hpart
      · rcases List.mem_cons.mp hpart with rfl | hpart
        · cases hb
        · exact List.mem_cons_of_mem c (ih hpart hb)
      · cases hparts : List.splitOnP (· == a) l with
        | nil => exact absurd hparts (List.splitOnP_ne_nil _ _)
        | cons first parts =>
            rw [hparts, List.modifyHead_cons] at hpart
            rcases List.mem_cons.mp hpart with rfl | hpart
            · rcases List.mem_cons.mp hb with rfl | hb
              · exact List.mem_cons_self
              · exact List.mem_cons_of_mem c (ih (hparts ▸ List.mem_cons_self) hb)
            · exact List.mem_cons_of_mem c (ih (hparts ▸ List.mem_cons_of_mem _ hpart) hb)

/-- The first part begins with the first element, unless that is a separator. -/
lemma exists_splitOn_cons {b : α} (hb : b ≠ a) :
    ∃ part parts, (b :: l).splitOn a = (b :: part) :: parts := by
  unfold List.splitOn
  rw [List.splitOnP_cons_eq_if_modifyHead, if_neg (by simpa using hb)]
  cases hparts : List.splitOnP (· == a) l with
  | nil => exact absurd hparts (List.splitOnP_ne_nil _ _)
  | cons part parts => exact ⟨part, parts, rfl⟩

/-- The last part ends with the last element, unless that is a separator. -/
lemma exists_splitOn_concat {b : α} (hb : b ≠ a) :
    ∃ parts part, (l ++ [b]).splitOn a = parts ++ [part ++ [b]] := by
  induction l with
  | nil =>
      refine ⟨[], [], ?_⟩
      rw [List.nil_append, splitOn_of_not_mem (by simpa using Ne.symm hb)]
      rfl
  | cons c l ih =>
      obtain ⟨parts, part, ih⟩ := ih
      unfold List.splitOn at ih ⊢
      rw [List.cons_append, List.splitOnP_cons_eq_if_modifyHead, ih]
      split
      · exact ⟨[] :: parts, part, rfl⟩
      · cases parts with
        | nil => exact ⟨[], c :: part, rfl⟩
        | cons first parts => exact ⟨(c :: first) :: parts, part, rfl⟩

/-- Splitting commutes with a map that keeps the separator apart. -/
lemma splitOn_map {f : α → α} (h : ∀ b ∈ l, f b = a ↔ b = a) :
    (l.map f).splitOn a = (l.splitOn a).map (·.map f) := by
  induction l with
  | nil => rfl
  | cons b l ih =>
      have ih := ih fun c hc => h c (List.mem_cons_of_mem b hc)
      have hb : (f b == a) = (b == a) := by
        rw [Bool.eq_iff_iff, beq_iff_eq, beq_iff_eq]
        exact h b List.mem_cons_self
      unfold List.splitOn at ih ⊢
      rw [List.map_cons, List.splitOnP_cons_eq_if_modifyHead, List.splitOnP_cons_eq_if_modifyHead,
        hb, ih]
      split
      · rfl
      · cases List.splitOnP (· == a) l with
        | nil => rfl
        | cons part parts => rfl

end Everywhere

/-! ### Trimming -/

section Trim

variable {q : α → Bool} {l : List α}

/-- What satisfies `q` at either end is removed. -/
def trimBoth (q : α → Bool) (l : List α) : List α :=
  ((l.dropWhile q).reverse.dropWhile q).reverse

/-- Neither end satisfies `q`. -/
def Trimmed (q : α → Bool) (l : List α) : Prop :=
  (∀ a ∈ l.head?, q a = false) ∧ ∀ a ∈ l.getLast?, q a = false

lemma dropWhile_eq_self (h : ∀ a ∈ l.head?, q a = false) : l.dropWhile q = l := by
  cases l with
  | nil => rfl
  | cons a l => rw [List.dropWhile_cons_of_neg (by simpa using h a rfl)]

lemma head?_dropWhile_false {a : α} (h : a ∈ (l.dropWhile q).head?) : q a = false := by
  induction l with
  | nil => cases h
  | cons b l ih =>
      cases hb : q b with
      | true =>
          rw [List.dropWhile_cons_of_pos hb] at h
          exact ih h
      | false =>
          rw [List.dropWhile_cons_of_neg (by simpa using hb)] at h
          obtain rfl := Option.some.inj h
          exact hb

lemma trimBoth_of_trimmed (h : Trimmed q l) : trimBoth q l = l := by
  unfold trimBoth
  rw [dropWhile_eq_self h.1, dropWhile_eq_self (by simpa using h.2), List.reverse_reverse]

lemma trimmed_trimBoth (q : α → Bool) (l : List α) : Trimmed q (trimBoth q l) := by
  unfold trimBoth
  constructor
  · intro a ha
    -- the first element is the first one of a suffix that begins the same
    rw [List.head?_reverse] at ha
    obtain ⟨w, hw⟩ := List.dropWhile_suffix q (l := (l.dropWhile q).reverse)
    apply head?_dropWhile_false (l := l)
    rw [← List.getLast?_reverse, ← hw]
    rw [List.getLast?_append_of_ne_nil]
    · exact ha
    · rintro hnil
      rw [hnil] at ha
      cases ha
  · intro a ha
    rw [List.getLast?_reverse] at ha
    exact head?_dropWhile_false ha

lemma trimBoth_eq_self_iff : trimBoth q l = l ↔ Trimmed q l := by
  constructor
  · intro h
    rw [← h]
    exact trimmed_trimBoth q l
  · exact trimBoth_of_trimmed

@[simp] lemma trimBoth_trimBoth : trimBoth q (trimBoth q l) = trimBoth q l :=
  trimBoth_of_trimmed (trimmed_trimBoth q l)

lemma trimBoth_subset {a : α} (h : a ∈ trimBoth q l) : a ∈ l := by
  unfold trimBoth at h
  rw [List.mem_reverse] at h
  have := (List.dropWhile_sublist q).mem h
  rw [List.mem_reverse] at this
  exact (List.dropWhile_sublist q).mem this

lemma length_trimBoth_le : (trimBoth q l).length ≤ l.length := by
  unfold trimBoth
  rw [List.length_reverse]
  refine (List.dropWhile_sublist q).length_le.trans ?_
  rw [List.length_reverse]
  exact (List.dropWhile_sublist q).length_le

/-- What is removed at the front may be left out. -/
lemma trimBoth_append {p : List α} (h : ∀ a ∈ p, q a = true) :
    trimBoth q (p ++ l) = trimBoth q l := by
  unfold trimBoth
  rw [List.dropWhile_append_of_pos h]

/-- A trimmed front stays in front. -/
lemma exists_trimBoth_append {p : List α} (hp : Trimmed q p) (hne : p ≠ []) (l : List α) :
    ∃ l', trimBoth q (p ++ l) = p ++ l' := by
  have hhead : (p ++ l).dropWhile q = p ++ l := by
    refine dropWhile_eq_self fun a ha => ?_
    rw [List.head?_append_of_ne_nil _ hne] at ha
    exact hp.1 a ha
  have hlast : p.reverse.dropWhile q = p.reverse :=
    dropWhile_eq_self fun a ha => hp.2 a (by rwa [List.head?_reverse] at ha)
  unfold trimBoth
  rw [hhead, List.reverse_append, List.dropWhile_append, hlast]
  split
  · exact ⟨[], by rw [List.reverse_reverse, List.append_nil]⟩
  · exact ⟨(l.reverse.dropWhile q).reverse, by rw [List.reverse_append, List.reverse_reverse]⟩

end Trim

end Split
