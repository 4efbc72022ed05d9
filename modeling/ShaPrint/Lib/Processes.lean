import ShaPrint.Lib.StepSystem

/-!
Processes that interleave over a shared state.

A process is a local state; it moves one atomic section at a time, reading and
changing the shared state and its own, and may spawn further processes. The
environment changes the shared state between sections. Every interleaving of
every number of processes is a run of `Processes.system`.

* `Processes.World`, `Processes.Event`, `Processes.system`.
* `Processes.Stepped`, `Processes.stepped_of_step`: what a step can do, said once.
* `Processes.getElem?_after_move`, `Processes.forall_after_move`: where a process of
  the next world comes from.
* `Processes.AtMostOne`: a mutual exclusion, and how a step keeps it.
-/

/-- A kind of processes: the initial shared state, the local states a process may
start in, its atomic sections, and what the environment does. -/
structure Processes (σ κ ι ε : Type*) where
  init : σ
  starts : κ → Bool
  advance : σ → κ → ι → Option (σ × κ × List κ)
  outside : σ → ε → Option σ

namespace Processes

variable {σ κ ι ε : Type*}

/-- The shared state, and every process so far by the order of starting. -/
structure World (σ κ : Type*) where
  shared : σ
  processes : List κ

/-- A process starts, a process moves, or the environment acts. -/
inductive Event (κ ι ε : Type*) where
  | start (process : κ)
  | move (index : ℕ) (input : ι)
  | outside (event : ε)

/-- The process that an event moves. -/
def Event.mover : Event κ ι ε → Option ℕ
  | .move i _ => some i
  | _ => none

variable (P : Processes σ κ ι ε)

def step (w : World σ κ) : Event κ ι ε → Option (World σ κ)
  | .start k => if P.starts k then some ⟨w.shared, w.processes ++ [k]⟩ else none
  | .move i x =>
      (w.processes[i]?).bind fun k =>
        (P.advance w.shared k x).map fun (s, k', spawned) =>
          ⟨s, w.processes.set i k' ++ spawned⟩
  | .outside x => (P.outside w.shared x).map fun s => ⟨s, w.processes⟩

/-- The interleavings, from no processes. -/
def system : StepSystem (World σ κ) (Event κ ι ε) := ⟨⟨P.init, []⟩, P.step⟩

/-! ### What a step does -/

/-- The three kinds of steps. -/
inductive Stepped (w : World σ κ) : Event κ ι ε → World σ κ → Prop where
  | start (k : κ) (hstarts : P.starts k = true) :
      Stepped w (.start k) ⟨w.shared, w.processes ++ [k]⟩
  | move (i : ℕ) (x : ι) (k : κ) (s : σ) (k' : κ) (spawned : List κ)
      (hk : w.processes[i]? = some k) (hadvance : P.advance w.shared k x = some (s, k', spawned)) :
      Stepped w (.move i x) ⟨s, w.processes.set i k' ++ spawned⟩
  | outside (x : ε) (s : σ) (houtside : P.outside w.shared x = some s) :
      Stepped w (.outside x) ⟨s, w.processes⟩

theorem stepped_of_step {w t : World σ κ} {e : Event κ ι ε} (h : P.step w e = some t) :
    P.Stepped w e t := by
  cases e with
  | start k =>
      rw [step] at h
      split at h
      · rename_i hstarts
        obtain rfl := Option.some.inj h
        exact .start k hstarts
      · cases h
  | move i x =>
      rw [step, Option.bind_eq_some_iff] at h
      obtain ⟨k, hk, h⟩ := h
      obtain ⟨⟨s, k', spawned⟩, hadvance, rfl⟩ := Option.map_eq_some_iff.mp h
      exact .move i x k s k' spawned hk hadvance
  | outside x =>
      rw [step] at h
      obtain ⟨s, houtside, rfl⟩ := Option.map_eq_some_iff.mp h
      exact .outside x s houtside

section Lookup

open scoped List

variable {w : World σ κ} {i j : ℕ} {k k' m : κ} {spawned : List κ}

/-- The process that moved. -/
lemma getElem?_moved (hk : w.processes[i]? = some k) :
    (w.processes.set i k' ++ spawned)[i]? = some k' := by
  obtain ⟨hi, -⟩ := List.getElem?_eq_some_iff.mp hk
  rw [List.getElem?_append_left (by rwa [List.length_set]), List.getElem?_set_self hi]

/-- A process that did not move. -/
lemma getElem?_other (hm : w.processes[j]? = some m) (hne : j ≠ i) :
    (w.processes.set i k' ++ spawned)[j]? = some m := by
  obtain ⟨hj, -⟩ := List.getElem?_eq_some_iff.mp hm
  rw [List.getElem?_append_left (by rwa [List.length_set]), List.getElem?_set_ne hne.symm, hm]

/-- A process after a move is the one that moved, one that did not, or a spawned one. -/
lemma getElem?_after_move (hk : w.processes[i]? = some k)
    (hm : (w.processes.set i k' ++ spawned)[j]? = some m) :
    (j = i ∧ m = k') ∨ (j ≠ i ∧ w.processes[j]? = some m)
      ∨ (w.processes.length ≤ j ∧ m ∈ spawned) := by
  rcases Nat.lt_or_ge j w.processes.length with hj | hj
  · by_cases hji : j = i
    · subst hji
      rw [getElem?_moved hk] at hm
      exact .inl ⟨rfl, (Option.some.inj hm).symm⟩
    · rw [List.getElem?_append_left (by rwa [List.length_set]),
        List.getElem?_set_ne (Ne.symm hji)] at hm
      exact .inr (.inl ⟨hji, hm⟩)
  · rw [List.getElem?_append_right (by rwa [List.length_set])] at hm
    exact .inr (.inr ⟨hj, List.mem_of_getElem? hm⟩)

/-- A process after a start is an earlier one or the new one. -/
lemma getElem?_after_start (hm : (w.processes ++ [k])[j]? = some m) :
    w.processes[j]? = some m ∨ (j = w.processes.length ∧ m = k) := by
  rcases Nat.lt_or_ge j w.processes.length with hj | hj
  · rw [List.getElem?_append_left hj] at hm
    exact .inl hm
  · rw [List.getElem?_append_right hj] at hm
    obtain ⟨hlt, hget⟩ := List.getElem?_eq_some_iff.mp hm
    rw [List.length_singleton] at hlt
    refine .inr ⟨by omega, ?_⟩
    rw [← hget, List.getElem_singleton]

/-- What holds of every process after a move. -/
lemma forall_after_move {Q : κ → Prop} (hk : w.processes[i]? = some k)
    (hothers : ∀ (j : ℕ) (m : κ), j ≠ i → w.processes[j]? = some m → Q m) (hmoved : Q k')
    (hspawned : ∀ m ∈ spawned, Q m) :
    ∀ (j : ℕ) (m : κ), (w.processes.set i k' ++ spawned)[j]? = some m → Q m := by
  intro j m hm
  rcases getElem?_after_move hk hm with ⟨-, rfl⟩ | ⟨hne, hm⟩ | ⟨-, hm⟩
  · exact hmoved
  · exact hothers j m hne hm
  · exact hspawned m hm

/-- What holds of every process after a start. -/
lemma forall_after_start {Q : κ → Prop}
    (hothers : ∀ (j : ℕ) (m : κ), w.processes[j]? = some m → Q m) (hstarted : Q k) :
    ∀ (j : ℕ) (m : κ), (w.processes ++ [k])[j]? = some m → Q m := by
  intro j m hm
  rcases getElem?_after_start hm with hm | ⟨-, rfl⟩
  · exact hothers j m hm
  · exact hstarted

/-- How many elements satisfy `p`, after one of them is replaced. -/
lemma countP_set_add (p : κ → Bool) {l : List κ} (hk : l[i]? = some k) :
    (l.set i k').countP p + (p k).toNat = l.countP p + (p k').toNat := by
  induction l generalizing i with
  | nil => cases hk
  | cons a l ih =>
      cases i with
      | zero =>
          obtain rfl := Option.some.inj hk
          simp only [List.set_cons_zero, List.countP_cons]
          cases p a <;> cases p k' <;> simp
      | succ i =>
          have hrest := ih hk
          simp only [List.set_cons_succ, List.countP_cons]
          omega

/-- What a list yields, after an element is replaced by one that yields the same. -/
lemma filterMap_set_eq {β : Type*} {f : κ → Option β} {l : List κ} (hk : l[i]? = some k)
    (hsame : f k' = f k) : (l.set i k').filterMap f = l.filterMap f := by
  induction l generalizing i with
  | nil => cases hk
  | cons a l ih =>
      cases i with
      | zero =>
          obtain rfl := Option.some.inj hk
          rw [List.set_cons_zero, List.filterMap_cons, List.filterMap_cons, hsame]
      | succ i => rw [List.set_cons_succ, List.filterMap_cons, List.filterMap_cons, ih hk]

/-- What a list yields, after an element that yields nothing is replaced by one that yields
`b`. -/
lemma perm_filterMap_set {β : Type*} {f : κ → Option β} {b : β} {l : List κ} (hk : l[i]? = some k)
    (hnone : f k = none) (hsome : f k' = some b) :
    (l.set i k').filterMap f ~ l.filterMap f ++ [b] := by
  induction l generalizing i with
  | nil => cases hk
  | cons a l ih =>
      cases i with
      | zero =>
          obtain rfl := Option.some.inj hk
          rw [List.set_cons_zero, List.filterMap_cons_some hsome, List.filterMap_cons_none hnone]
          exact (List.perm_append_singleton _ _).symm
      | succ i =>
          rw [List.set_cons_succ, List.filterMap_cons, List.filterMap_cons]
          cases f a with
          | none => exact ih hk
          | some c => exact (ih hk).cons c

/-- What is counted is somewhere. -/
lemma toNat_le_countP (p : κ → Bool) {l : List κ} (hk : l[i]? = some k) :
    (p k).toNat ≤ l.countP p := by
  cases hp : p k with
  | false => exact Nat.zero_le _
  | true => exact List.countP_pos_iff.mpr ⟨k, List.mem_of_getElem? hk, hp⟩

/-- Some process satisfies `Q`. -/
def Some (processes : List κ) (Q : κ → Prop) : Prop :=
  ∃ (j : ℕ) (m : κ), processes[j]? = some m ∧ Q m

lemma some_after_start {Q : κ → Prop} (h : Some w.processes Q) : Some (w.processes ++ [k]) Q := by
  obtain ⟨j, m, hm, hQ⟩ := h
  obtain ⟨hj, -⟩ := List.getElem?_eq_some_iff.mp hm
  exact ⟨j, m, by rw [List.getElem?_append_left hj, hm], hQ⟩

lemma some_of_moved {Q : κ → Prop} (hk : w.processes[i]? = some k) (hQ : Q k') :
    Some (w.processes.set i k' ++ spawned) Q :=
  ⟨i, k', getElem?_moved hk, hQ⟩

/-- After a move there is still such a process, unless it was the one that moved. -/
lemma some_after_move {Q : κ → Prop} (hk : w.processes[i]? = some k) (h : Some w.processes Q)
    (hmoved : Q k → Q k') : Some (w.processes.set i k' ++ spawned) Q := by
  obtain ⟨j, m, hm, hQ⟩ := h
  by_cases hji : j = i
  · subst hji
    obtain rfl := Option.some.inj (hk.symm.trans hm)
    exact some_of_moved hk (hmoved hQ)
  · exact ⟨j, m, getElem?_other hm hji, hQ⟩

/-- Such a process after a move is the one that moved, one that did not, or a spawned
one. -/
lemma some_before_move {Q : κ → Prop} (hk : w.processes[i]? = some k)
    (h : Some (w.processes.set i k' ++ spawned) Q) :
    Q k' ∨ (∃ (j : ℕ) (m : κ), j ≠ i ∧ w.processes[j]? = some m ∧ Q m) ∨ ∃ m ∈ spawned, Q m := by
  obtain ⟨j, m, hm, hQ⟩ := h
  rcases getElem?_after_move hk hm with ⟨-, rfl⟩ | ⟨hne, hm⟩ | ⟨-, hm⟩
  · exact .inl hQ
  · exact .inr (.inl ⟨j, m, hne, hm, hQ⟩)
  · exact .inr (.inr ⟨m, hm, hQ⟩)

lemma some_before_start {Q : κ → Prop} (h : Some (w.processes ++ [k]) Q) :
    Some w.processes Q ∨ Q k := by
  obtain ⟨j, m, hm, hQ⟩ := h
  rcases getElem?_after_start hm with hm | ⟨-, rfl⟩
  · exact .inl ⟨j, m, hm, hQ⟩
  · exact .inr hQ

/-- At most one process satisfies `Q`. -/
def AtMostOne (processes : List κ) (Q : κ → Prop) : Prop :=
  ∀ (i j : ℕ) (k m : κ), processes[i]? = some k → processes[j]? = some m → Q k → Q m → i = j

lemma atMostOne_after_start {Q : κ → Prop} (h : AtMostOne w.processes Q) (hstarted : ¬ Q k) :
    AtMostOne (w.processes ++ [k]) Q := by
  intro i j m n hm hn hQm hQn
  rcases getElem?_after_start hm with hm | ⟨-, rfl⟩
  · rcases getElem?_after_start hn with hn | ⟨-, rfl⟩
    · exact h i j m n hm hn hQm hQn
    · exact absurd hQn hstarted
  · exact absurd hQm hstarted

/-- A move keeps the exclusion if the process was in already or found no other in. -/
lemma atMostOne_after_move {Q : κ → Prop} (hk : w.processes[i]? = some k)
    (h : AtMostOne w.processes Q)
    (henter : Q k' → Q k ∨ ∀ (j : ℕ) (m : κ), j ≠ i → w.processes[j]? = some m → ¬ Q m)
    (hspawned : ∀ m ∈ spawned, ¬ Q m) :
    AtMostOne (w.processes.set i k' ++ spawned) Q := by
  have hself : Q k' → ∀ (j : ℕ) (m : κ), j ≠ i → w.processes[j]? = some m → ¬ Q m := by
    intro hQ j m hne hm hQm
    rcases henter hQ with hQk | hnone
    · exact hne (h j i m k hm hk hQm hQk)
    · exact hnone j m hne hm hQm
  intro a b m n hm hn hQm hQn
  rcases getElem?_after_move hk hm with ⟨rfl, rfl⟩ | ⟨hne, hm'⟩ | ⟨-, hm'⟩
  · rcases getElem?_after_move hk hn with ⟨rfl, -⟩ | ⟨hne, hn'⟩ | ⟨-, hn'⟩
    · rfl
    · exact absurd hQn (hself hQm b n hne hn')
    · exact absurd hQn (hspawned n hn')
  · rcases getElem?_after_move hk hn with ⟨rfl, rfl⟩ | ⟨-, hn'⟩ | ⟨-, hn'⟩
    · exact absurd hQm (hself hQn a m hne hm')
    · exact h a b m n hm' hn' hQm hQn
    · exact absurd hQn (hspawned n hn')
  · exact absurd hQm (hspawned m hm')

end Lookup

end Processes
