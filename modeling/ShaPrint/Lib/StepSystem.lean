import Mathlib.Data.List.Induction

/-!
Guarded step systems: a step function that says which events a state admits,
the states a finite list of events leads to, and the two induction rules every
invariant of such a system is proved by.

* `run`: the state after a list of events, oldest first, `none` once an event
  is not admitted. It evaluates, so a concrete run is checked by computation.
* `run_induction`, `invariant`: what holds at the start and survives every
  admitted event holds at the end of every run, with and without the history;
  `runFrom_invariant` for a run that starts later.
* `Took`: a run contains a given step; `took_concat` says which steps one more
  event adds.
* `Met`: a condition held at some moment of a run.
* `StepsMeet`: every event of a run met a condition on the state it was taken
  in; `run_induction_of_stepsMeet` is the induction rule for such runs, and
  `MeetsFrom` decides it for a given run.
-/

/-- A step system: the initial state and the partial step function. -/
structure StepSystem (σ α : Type*) where
  init : σ
  step : σ → α → Option σ

namespace StepSystem

variable {σ α : Type*} (S : StepSystem σ α)

/-! ### Runs -/

/-- The state reached from `s` by the events `es`, oldest first. -/
def runFrom (s : σ) (es : List α) : Option σ := es.foldlM S.step s

/-- The state reached from the initial state by the events `es`. -/
def run (es : List α) : Option σ := S.runFrom S.init es

@[simp] lemma run_nil : S.run [] = some S.init := rfl

lemma runFrom_append (s : σ) (es fs : List α) :
    S.runFrom s (es ++ fs) = (S.runFrom s es).bind fun t => S.runFrom t fs := by
  simp [runFrom, List.foldlM_append, Option.bind_eq_bind]

lemma run_append (es fs : List α) :
    S.run (es ++ fs) = (S.run es).bind fun t => S.runFrom t fs :=
  S.runFrom_append S.init es fs

lemma runFrom_singleton (s : σ) (e : α) : S.runFrom s [e] = S.step s e := by
  simp [runFrom]

lemma runFrom_cons (s : σ) (e : α) (es : List α) :
    S.runFrom s (e :: es) = (S.step s e).bind fun t => S.runFrom t es := by
  rw [← List.singleton_append, runFrom_append, runFrom_singleton]

/-- A run ends with its last event: everything before it is a run as well. -/
lemma run_concat {es : List α} {e : α} {t : σ} :
    S.run (es ++ [e]) = some t ↔ ∃ s, S.run es = some s ∧ S.step s e = some t := by
  rw [run_append, Option.bind_eq_some_iff]
  simp only [runFrom_singleton]

/-! ### The induction rules -/

/-- What holds initially and survives every admitted event, given the history
so far, holds of every run. -/
theorem run_induction {P : List α → σ → Prop} (hinit : P [] S.init)
    (hstep : ∀ es s e t, S.run es = some s → P es s → S.step s e = some t →
      P (es ++ [e]) t)
    {es : List α} {s : σ} (h : S.run es = some s) : P es s := by
  induction es using List.reverseRecOn generalizing s with
  | nil =>
      rw [run_nil, Option.some.injEq] at h
      exact h ▸ hinit
  | append_singleton es e ih =>
      obtain ⟨t, ht, hs⟩ := S.run_concat.mp h
      exact hstep es t e s ht (ih ht) hs

/-- The history-free form: an invariant of the steps holds in every state
reached. -/
theorem invariant {I : σ → Prop} (hinit : I S.init)
    (hstep : ∀ s e t, I s → S.step s e = some t → I t)
    {es : List α} {s : σ} (h : S.run es = some s) : I s :=
  S.run_induction (P := fun _ s => I s) hinit (fun _ s e t _ => hstep s e t) h

/-- The form for a run from any state, by events of a given kind. -/
theorem runFrom_invariant {ok : α → Prop} {I : σ → Prop}
    (hstep : ∀ s e t, I s → ok e → S.step s e = some t → I t)
    {es : List α} {s t : σ} (hs : I s) (hok : ∀ e ∈ es, ok e)
    (h : S.runFrom s es = some t) : I t := by
  induction es generalizing s with
  | nil =>
      obtain rfl : s = t := Option.some.inj h
      exact hs
  | cons e es ih =>
      rw [runFrom_cons, Option.bind_eq_some_iff] at h
      obtain ⟨u, hu, ht⟩ := h
      exact ih (hstep s e u hs (hok e (by simp)) hu) (fun f hf => hok f (by simp [hf])) ht

/-! ### The steps of a run -/

/-- The run `es` contains the step from `s` to `t` by `e`. -/
def Took (es : List α) (s : σ) (e : α) (t : σ) : Prop :=
  ∃ pre post, es = pre ++ e :: post ∧ S.run pre = some s ∧ S.step s e = some t

lemma not_took_nil (s : σ) (e : α) (t : σ) : ¬ S.Took [] s e t := by
  rintro ⟨pre, post, h, -⟩
  simp at h

/-- One more event adds its own step and no other. -/
lemma took_concat {es : List α} {s : σ} {e : α} {t : σ} (hs : S.run es = some s)
    (ht : S.step s e = some t) {u : σ} {f : α} {v : σ} :
    S.Took (es ++ [e]) u f v ↔ S.Took es u f v ∨ (u = s ∧ f = e ∧ v = t) := by
  constructor
  · rintro ⟨pre, post, hes, hu, hv⟩
    rcases List.eq_nil_or_concat post with rfl | ⟨post', g, rfl⟩
    · obtain ⟨rfl, hf⟩ := List.append_inj' hes rfl
      obtain rfl : e = f := by simpa using hf
      obtain rfl : s = u := Option.some.inj (hs.symm.trans hu)
      exact .inr ⟨rfl, rfl, Option.some.inj (hv.symm.trans ht)⟩
    · have hes' : es ++ [e] = (pre ++ f :: post') ++ [g] := by simpa using hes
      exact .inl ⟨pre, post', (List.append_inj' hes' rfl).1, hu, hv⟩
  · rintro (⟨pre, post, rfl, hu, hv⟩ | ⟨rfl, rfl, rfl⟩)
    · exact ⟨pre, post ++ [e], by simp, hu, hv⟩
    · exact ⟨es, [], rfl, hs, ht⟩

/-! ### The moments of a run -/

/-- `P` held at some moment of the run `es`. -/
def Met (es : List α) (P : σ → Prop) : Prop := ∃ pre s, pre <+: es ∧ S.run pre = some s ∧ P s

variable {S} in
lemma Met.mono {es fs : List α} {P : σ → Prop} (h : S.Met es P) (hes : es <+: fs) :
    S.Met fs P := by
  obtain ⟨pre, s, hpre, hs, hP⟩ := h
  exact ⟨pre, s, hpre.trans hes, hs, hP⟩

variable {S} in
lemma Met.concat {es : List α} {P : σ → Prop} (h : S.Met es P) (e : α) : S.Met (es ++ [e]) P :=
  h.mono (List.prefix_append es [e])

lemma met_now {es : List α} {s : σ} {P : σ → Prop} (hs : S.run es = some s) (hP : P s) :
    S.Met es P :=
  ⟨es, s, List.prefix_rfl, hs, hP⟩

/-! ### Runs whose steps meet a condition -/

/-- Every event of the run `es` met the condition `ok` in the state it was
taken in. -/
def StepsMeet (ok : σ → α → Prop) (es : List α) : Prop :=
  ∀ pre e post s, es = pre ++ e :: post → S.run pre = some s → ok s e

variable {S}

lemma StepsMeet.of_append {ok : σ → α → Prop} {es fs : List α}
    (h : S.StepsMeet ok (es ++ fs)) : S.StepsMeet ok es := by
  rintro pre e post s rfl hs
  exact h pre e (post ++ fs) s (by simp) hs

lemma StepsMeet.last {ok : σ → α → Prop} {es : List α} {e : α} {s : σ}
    (h : S.StepsMeet ok (es ++ [e])) (hs : S.run es = some s) : ok s e :=
  h es e [] s rfl hs

lemma stepsMeet_nil (ok : σ → α → Prop) : S.StepsMeet ok [] := by
  intro pre e post s h
  simp at h

lemma StepsMeet.concat {ok : σ → α → Prop} {es : List α} {e : α} (h : S.StepsMeet ok es)
    (hlast : ∀ s, S.run es = some s → ok s e) : S.StepsMeet ok (es ++ [e]) := by
  intro pre f post s hes hs
  rcases List.eq_nil_or_concat post with rfl | ⟨post', g, rfl⟩
  · obtain ⟨rfl, hf⟩ := List.append_inj' hes rfl
    obtain rfl : e = f := by simpa using hf
    exact hlast s hs
  · have hes' : es ++ [e] = (pre ++ f :: post') ++ [g] := by simpa using hes
    exact h pre f post' s (List.append_inj' hes' rfl).1 hs

/-- The induction rule for runs whose steps all meet `ok`. -/
theorem run_induction_of_stepsMeet {ok : σ → α → Prop} {P : List α → σ → Prop}
    (hinit : P [] S.init)
    (hstep : ∀ es s e t, S.run es = some s → P es s → ok s e → S.step s e = some t →
      P (es ++ [e]) t)
    {es : List α} {s : σ} (h : S.run es = some s) (hok : S.StepsMeet ok es) : P es s := by
  refine S.run_induction (P := fun es s => S.StepsMeet ok es → P es s)
    (fun _ => hinit) (fun es s e t hs ih ht hok => ?_) h hok
  exact hstep es s e t hs (ih hok.of_append) (hok.last hs) ht

/-- The history-free form for runs whose steps all meet `ok`. -/
theorem invariant_of_stepsMeet {ok : σ → α → Prop} {I : σ → Prop} (hinit : I S.init)
    (hstep : ∀ s e t, I s → ok s e → S.step s e = some t → I t)
    {es : List α} {s : σ} (h : S.run es = some s) (hok : S.StepsMeet ok es) : I s :=
  run_induction_of_stepsMeet (P := fun _ s => I s) hinit
    (fun _ s e t _ => hstep s e t) h hok

/-! ### Checking a given run -/

variable (S)

/-- `StepsMeet` from a state on, checked event by event. -/
def MeetsFrom (ok : σ → α → Prop) : σ → List α → Prop
  | _, [] => True
  | s, e :: es => ok s e ∧ ∀ t ∈ S.step s e, MeetsFrom ok t es

instance decidableMeetsFrom (ok : σ → α → Prop) [∀ s e, Decidable (ok s e)] :
    ∀ s es, Decidable (S.MeetsFrom ok s es)
  | _, [] => inferInstanceAs (Decidable True)
  | s, e :: es =>
      haveI : ∀ t, Decidable (S.MeetsFrom ok t es) := fun t => decidableMeetsFrom ok t es
      inferInstanceAs (Decidable (ok s e ∧ ∀ t ∈ S.step s e, S.MeetsFrom ok t es))

variable {S}

lemma MeetsFrom.of_runFrom {ok : σ → α → Prop} {s t : σ} {pre es : List α}
    (h : S.MeetsFrom ok s (pre ++ es)) (ht : S.runFrom s pre = some t) :
    S.MeetsFrom ok t es := by
  induction pre generalizing s with
  | nil =>
      obtain rfl : s = t := Option.some.inj ht
      exact h
  | cons e pre ih =>
      rw [runFrom_cons, Option.bind_eq_some_iff] at ht
      obtain ⟨u, hu, ht⟩ := ht
      exact ih (h.2 u hu) ht

lemma stepsMeet_of_meetsFrom {ok : σ → α → Prop} {es : List α}
    (h : S.MeetsFrom ok S.init es) : S.StepsMeet ok es := by
  rintro pre e post s rfl hs
  exact (h.of_runFrom hs).1

end StepSystem
