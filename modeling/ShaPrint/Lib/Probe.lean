import Mathlib.Data.Finset.Card
import Mathlib.Data.Set.Function
import Mathlib.Logic.Function.Iterate
import Mathlib.Tactic

/-!
Looking for a free name by trying candidates in a fixed order, and the order most counters
try them in.

* `search`: at most `n` tries; `search_eq_some` and `search_eq_none` say which candidates
  were tried.
* `search_isSome`: more tries than names are taken always find a free one, as long as no
  candidate comes up twice.
* `cyclicSucc`: the next number of `1, …, max`, back to `1` after the last;
  `cyclicSucc_injOn`: it comes back no earlier.
-/

namespace Probe

variable {α : Type*} (next : α → α) (taken : α → Bool)

/-- At most `n` tries from the candidate `a`: the free name, and the candidate after the
last one tried. -/
def search : ℕ → α → Option α × α
  | 0, a => (none, a)
  | n + 1, a => if taken a then search n (next a) else (some a, next a)

variable {next taken}

/-- What is found is free, and the tries before it were taken. -/
lemma search_eq_some {n : ℕ} {a b : α} (h : (search next taken n a).1 = some b) :
    taken b = false ∧ ∃ k < n, b = next^[k] a ∧ ∀ i < k, taken (next^[i] a) = true := by
  induction n generalizing a with
  | zero => cases h
  | succ n ih =>
      rw [search] at h
      split_ifs at h with ha
      · obtain ⟨hb, k, hk, rfl, hbefore⟩ := ih h
        refine ⟨hb, k + 1, by omega, rfl, fun i hi => ?_⟩
        cases i with
        | zero => exact ha
        | succ i => exact hbefore i (by omega)
      · obtain rfl : a = b := Option.some.inj h
        exact ⟨by simpa using ha, 0, by omega, rfl, fun i hi => absurd hi (by omega)⟩

/-- Nothing is found where every try was taken. -/
lemma search_eq_none {n : ℕ} {a : α} (h : (search next taken n a).1 = none) :
    ∀ k < n, taken (next^[k] a) = true := by
  induction n generalizing a with
  | zero => exact fun k hk => absurd hk (by omega)
  | succ n ih =>
      rw [search] at h
      split_ifs at h with ha
      intro k hk
      cases k with
      | zero => exact ha
      | succ k => exact ih h k (by omega)

variable (next taken) in
/-- The candidate left is one that was about to be tried. -/
lemma search_snd (n : ℕ) (a : α) : ∃ k ≤ n, (search next taken n a).2 = next^[k] a := by
  induction n generalizing a with
  | zero => exact ⟨0, le_rfl, rfl⟩
  | succ n ih =>
      rw [search]
      split_ifs with ha
      · obtain ⟨k, hk, h⟩ := ih (next a)
        exact ⟨k + 1, by omega, h⟩
      · exact ⟨1, by omega, rfl⟩

/-- With fewer names taken than tries, a free one is found. -/
theorem search_isSome [DecidableEq α] {n : ℕ} {a : α} {names : Finset α}
    (hnames : ∀ b, taken b = true → b ∈ names) (hcard : names.card < n)
    (hinj : Set.InjOn (fun k => next^[k] a) (Set.Iio n)) :
    ∃ b, (search next taken n a).1 = some b := by
  rcases hsearch : (search next taken n a).1 with _ | b
  · -- `n` different candidates were all taken
    exfalso
    have hle : (Finset.range n).card ≤ names.card := by
      refine Finset.card_le_card_of_injOn (fun k => next^[k] a) (fun k hk => ?_) ?_
      · exact hnames _ (search_eq_none hsearch k (by simpa using hk))
      · intro i hi j hj hij
        exact hinj (by simpa using hi) (by simpa using hj) hij
    rw [Finset.card_range] at hle
    omega
  · exact ⟨b, rfl⟩

/-! ### A cyclic counter -/

/-- The number after `id` in `1, …, max`, back to `1` after the last. -/
def cyclicSucc (max id : ℤ) : ℤ := if id = max then 1 else id + 1

lemma cyclicSucc_mem {max id : ℤ} (h : 1 ≤ id ∧ id ≤ max) :
    1 ≤ cyclicSucc max id ∧ cyclicSucc max id ≤ max := by
  unfold cyclicSucc
  split_ifs <;> omega

lemma cyclicSucc_iterate_mem {max id : ℤ} (h : 1 ≤ id ∧ id ≤ max) (k : ℕ) :
    1 ≤ (cyclicSucc max)^[k] id ∧ (cyclicSucc max)^[k] id ≤ max := by
  induction k generalizing id with
  | zero => exact h
  | succ k ih => exact ih (cyclicSucc_mem h)

/-- Counting `k` on is addition modulo the number of numbers. -/
lemma cyclicSucc_iterate {max id : ℤ} (h : 1 ≤ id ∧ id ≤ max) (k : ℕ) :
    (cyclicSucc max)^[k] id = (id - 1 + k) % max + 1 := by
  induction k generalizing id with
  | zero =>
      rw [Nat.cast_zero, add_zero, Int.emod_eq_of_lt (by omega) (by omega)]
      simp
  | succ k ih =>
      rw [Function.iterate_succ_apply, ih (cyclicSucc_mem h)]
      unfold cyclicSucc
      push_cast
      split_ifs with hid
      · subst hid
        have : id - 1 + ((k : ℤ) + 1) = 1 - 1 + (k : ℤ) + id := by ring
        rw [this, Int.add_emod_right]
      · ring_nf

/-- Within `max` steps no number comes up twice. -/
theorem cyclicSucc_injOn {max id : ℤ} (h : 1 ≤ id ∧ id ≤ max) {n : ℕ} (hn : (n : ℤ) ≤ max) :
    Set.InjOn (fun k => (cyclicSucc max)^[k] id) (Set.Iio n) := by
  intro i hi j hj hij
  simp only [Set.mem_Iio] at hi hj
  simp only [cyclicSucc_iterate h] at hij
  -- two summands below `max` with the same remainder are equal
  have hmod : (id - 1 + i) ≡ (id - 1 + j) [ZMOD max] := by
    unfold Int.ModEq
    omega
  have hij' := Int.ModEq.add_left_cancel' _ hmod
  unfold Int.ModEq at hij'
  rw [Int.emod_eq_of_lt (by omega) (by omega), Int.emod_eq_of_lt (by omega) (by omega)] at hij'
  exact_mod_cast hij'

end Probe
