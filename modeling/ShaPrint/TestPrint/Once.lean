import ShaPrint.TestPrint.Order

/-!
A guided test print submits exactly once for each confirmed decision.

* `Call.Sound`, `Traced`: the submissions of a call, by how far it is; every submission is one
  call's.
* `Attended`: a session that is checking has a call that will conclude it, unless the future of
  that call is dropped.
* `guided_of_run`: exactly one submission for each decision, in every run; and no session is
  stuck in the runs that drop no `send` of the open session.
-/

namespace ShaPrint.TestPrint

open Queue Processes

variable {hasNative : Bool} {s s' : Store} {c c' : Call} {x : Input} {w v : World} {e : Event}

/-! ### The submissions of a call -/

/-- What a call has caused, by how far it is. -/
def Call.Sound (c : Call) : Prop :=
  match c.phase with
  | .start => c.id = c.operation.id ∧ c.caused = []
  | .closed | .refused _ => c.caused = []
  | .rechecking _ _ _ => c.operation = .send c.id ∧ c.caused = []
  | .store _ | .refresh => (∃ target, c.operation = .open target) ∧ c.caused = []
  | .inspecting _ _ => (∀ id, c.operation ≠ .send id) ∧ c.caused = []
  | .release (.ok t) => t.submission = .blocked ∧ c.caused = []
  | .release (.error _) => c.caused = []
  | .waiting _ n => c.caused = [n]
  | .done (.ok t) =>
      ((∀ id, c.operation ≠ .send id) ∧ c.caused = [])
        ∨ (t.submission = .blocked ∧ c.caused = [])
        ∨ (t.submission.Concludes ∧ ∃ n, c.caused = [n])
  | .done (.error _) | .dropped => c.caused.length ≤ 1

/-- An admitted call has caused at most one submission. -/
lemma Call.Sound.length_le {run : ℕ} (h : c.Sound) (hrun : c.phase.run = some run) :
    c.caused.length ≤ 1 := by
  unfold Call.Sound at h
  cases hphase : c.phase with
  | inspecting run target =>
      rw [hphase] at h
      simp [h.2]
  | rechecking run target preview =>
      rw [hphase] at h
      simp [h.2]
  | waiting run n =>
      rw [hphase] at h
      simp [show c.caused = [n] from h]
  | _ =>
      rw [hphase] at hrun
      cases hrun

lemma Moved.sound (h : Moved s c x s' c') (hc : c.Sound) : c'.Sound := by
  have hstart : c.phase = .start → c.id = c.operation.id ∧ c.caused = [] := by
    intro hphase
    unfold Call.Sound at hc
    rw [hphase] at hc
    exact hc
  have hrefresh : c.phase = .refresh → (∃ target, c.operation = .open target) ∧ c.caused = [] := by
    intro hphase
    unfold Call.Sound at hc
    rw [hphase] at hc
    exact hc
  have hrechecking : ∀ {run target preview}, c.phase = .rechecking run target preview →
      c.operation = .send c.id ∧ c.caused = [] := by
    intro run target preview hphase
    unfold Call.Sound at hc
    rw [hphase] at hc
    exact hc
  cases h with
  | allot target hoperation hphase => exact ⟨⟨target, hoperation⟩, (hstart hphase).2⟩
  | store target hphase =>
      unfold Call.Sound at hc
      rw [hphase] at hc
      exact hc
  | close hoperation hphase => exact (hstart hphase).2
  | confirm t result symptom hoperation hphase =>
      obtain ⟨id, hoperation⟩ := hoperation
      refine .inl ⟨fun id' hsend => ?_, (hstart hphase).2⟩
      rw [hoperation] at hsend
      cases hsend
  | refuse e hphase =>
      rcases hphase with hphase | hphase
      · exact (hstart hphase).2
      · exact (hrefresh hphase).2
  | admitRefresh t hphase =>
      rcases hphase with ⟨hphase, id, hoperation⟩ | hphase
      · refine ⟨fun id' hsend => ?_, (hstart hphase).2⟩
        rw [hoperation] at hsend
        cases hsend
      · obtain ⟨⟨target, hopen⟩, hcaused⟩ := hrefresh hphase
        refine ⟨fun id' hsend => ?_, hcaused⟩
        rw [hopen] at hsend
        cases hsend
  | admitSend t hoperation hphase =>
      obtain ⟨id, hoperation⟩ := hoperation
      obtain ⟨hid, hcaused⟩ := hstart hphase
      refine ⟨?_, hcaused⟩
      change c.operation = .send c.id
      rw [hid, hoperation]
      rfl
  | stale run x hrun => exact hc.length_le hrun
  | publish t run target checks media x hphase =>
      unfold Call.Sound at hc
      rw [hphase] at hc
      exact .inl hc
  | staleSend run target preview x hphase => exact (hrechecking hphase).2
  | block t run target preview checks media x hphase => exact ⟨rfl, (hrechecking hphase).2⟩
  | submit t run target checks m hphase =>
      have hcaused := (hrechecking hphase).2
      change c.caused ++ _ = _
      rw [hcaused, List.nil_append]
  | release result hphase =>
      unfold Call.Sound at hc
      rw [hphase] at hc
      cases result with
      | ok t => exact .inr (.inl hc)
      | error e =>
          change c.caused.length ≤ 1
          rw [show c.caused = [] from hc]
          exact Nat.zero_le _
  | record t run n outcome x hphase houtcome =>
      unfold Call.Sound at hc
      rw [hphase] at hc
      exact .inr (.inr ⟨houtcome, n, hc⟩)
  | drop run hrun => exact hc.length_le hrun
  | dropSend run target preview hphase => exact hc.length_le (by rw [hphase]; rfl)

theorem sound_of_step (hw : ∀ (i : ℕ) (c : Call), w.processes[i]? = some c → c.Sound)
    (h : (guided hasNative).step w e = some v) :
    ∀ (i : ℕ) (c : Call), v.processes[i]? = some c → c.Sound := by
  rcases stepped_of_guided h with ⟨k, hstarts⟩ | ⟨i, x, k, s, k', spawned, hk, hadvance⟩ | ⟨o, s, hend⟩
  · obtain ⟨operation, rfl⟩ := new_of_starts hstarts
    exact forall_after_start hw ⟨rfl, rfl⟩
  · obtain ⟨hmoved, rfl⟩ := moved_of_advance hadvance
    exact forall_after_move hk (fun j m _ hm => hw j m hm) (hmoved.sound (hw i k hk))
      fun m hm => by cases hm
  · exact hw

/-- A section makes no submission, or one of its own. -/
lemma Moved.caused (h : Moved s c x s' c') :
    (c'.caused = c.caused ∧ s'.workers = s.workers)
      ∨ ∃ k, c'.caused = c.caused ++ [s.workers.length] ∧ s'.workers = s.workers ++ [k] := by
  cases h with
  | submit t run target checks m hphase => exact .inr ⟨_, rfl, rfl⟩
  | _ => exact .inl ⟨rfl, rfl⟩

/-- Every submission is one call's, and no other's. -/
structure Traced (w : World) : Prop where
  bounded : ∀ (i : ℕ) (c : Call), w.processes[i]? = some c → ∀ n ∈ c.caused,
    n < w.shared.workers.length
  single : ∀ n, AtMostOne w.processes (n ∈ ·.caused)
  made : ∀ n < w.shared.workers.length, Processes.Some w.processes (n ∈ ·.caused)

theorem traced_of_step (hw : Traced w) (h : (guided hasNative).step w e = some v) : Traced v := by
  have hspawned : ∀ {Q : Call → Prop}, ∀ m ∈ ([] : List Call), Q m := fun m hm => by cases hm
  rcases stepped_of_guided h with ⟨k, hstarts⟩ | ⟨i, x, k, s, k', spawned, hk, hadvance⟩ | ⟨o, s, hend⟩
  · obtain ⟨operation, rfl⟩ := new_of_starts hstarts
    have hnone : ∀ n, n ∉ (Call.new operation).caused := fun n hn => by cases hn
    exact ⟨forall_after_start hw.bounded fun n hn => absurd hn (hnone n),
      fun n => atMostOne_after_start (hw.single n) (hnone n),
      fun n hn => some_after_start (hw.made n hn)⟩
  · obtain ⟨hmoved, rfl⟩ := moved_of_advance hadvance
    rcases hmoved.caused with ⟨hcaused, hworkers⟩ | ⟨worker, hcaused, hworkers⟩
    · refine ⟨forall_after_move hk (fun j m _ hm => ?_) ?_ hspawned, fun n => ?_, fun n hn => ?_⟩
      · exact hworkers ▸ hw.bounded j m hm
      · rw [hcaused, hworkers]
        exact hw.bounded i k hk
      · exact atMostOne_after_move hk (hw.single n) (fun h => .inl (hcaused ▸ h)) hspawned
      · exact some_after_move hk (hw.made n (hworkers ▸ hn)) fun h => hcaused ▸ h
    · have hlength : s.workers.length = w.shared.workers.length + 1 := by simp [hworkers]
      refine ⟨forall_after_move hk (fun j m _ hm n hn => ?_) (fun n hn => ?_) hspawned,
        fun n => ?_, fun n hn => ?_⟩
      · have hlt := hw.bounded j m hm n hn
        simp only [hlength]
        omega
      · rw [hcaused] at hn
        simp only [hlength]
        rcases List.mem_append.mp hn with hn | hn
        · have hlt := hw.bounded i k hk n hn
          omega
        · rw [List.mem_singleton.mp hn]
          exact Nat.lt_succ_self _
      · refine atMostOne_after_move hk (hw.single n) (fun h => ?_) hspawned
        rw [hcaused] at h
        rcases List.mem_append.mp h with h | h
        · exact .inl h
        · refine .inr fun j m _ hm hn => ?_
          have hlt := hw.bounded j m hm n hn
          rw [List.mem_singleton.mp h] at hlt
          exact lt_irrefl _ hlt
      · simp only [hlength] at hn
        rcases Nat.lt_succ_iff_lt_or_eq.mp hn with hn | rfl
        · exact some_after_move hk (hw.made n hn) fun h => hcaused ▸ List.mem_append_left _ h
        · exact some_of_moved hk (hcaused ▸ List.mem_append_right _ (List.mem_singleton_self _))
  · obtain ⟨n, k, outcome, -, -, rfl⟩ := finished_of_outside hend
    exact ⟨by simpa using hw.bounded, hw.single, by simpa using hw.made⟩

/-! ### A checking session has its call -/

/-- A session that is checking has a call that will conclude it. -/
def Attended (w : World) : Prop :=
  ∀ t, w.shared.session = some t → t.submission = .checking →
    Processes.Some w.processes fun c => t.IsOf c ∧ c.phase.sending = true

/-- The event drops no `send` that the open session waits for. -/
def KeepsSend (w : World) : Event → Prop
  | .move i .dropped =>
      ∀ c ∈ w.processes[i]?, c.phase.sending = true → ∀ t ∈ w.shared.session, ¬t.IsOf c
  | _ => True

instance (w : World) : ∀ e, Decidable (KeepsSend w e)
  | .start _ | .outside _ => inferInstanceAs (Decidable True)
  | .move i .dropped => inferInstanceAs (Decidable (∀ c ∈ w.processes[i]?, _ → ∀ t ∈ _, _))
  | .move _ .go | .move _ (.inspected _ _) | .move _ .joined | .move _ .timedOut =>
      inferInstanceAs (Decidable True)

/-- A section leaves a checking session to its call, unless it drops the call. -/
lemma Moved.attended (h : Moved s c x s' c')
    (hkeeps : x = .dropped → c.phase.sending = true → ∀ t, s.session = some t → ¬t.IsOf c)
    {t' : Session} (ht' : s'.session = some t') (hchecking : t'.submission = .checking) :
    (t'.IsOf c' ∧ c'.phase.sending = true)
      ∨ ∃ t, s.session = some t ∧ t.submission = .checking ∧ t.sessionId = t'.sessionId
        ∧ t.run = t'.run ∧ ¬(t.IsOf c ∧ c.phase.sending = true) := by
  have hquiet : s.session = some t' → c.phase.sending = false → ∃ t, s.session = some t
      ∧ t.submission = .checking ∧ t.sessionId = t'.sessionId ∧ t.run = t'.run
      ∧ ¬(t.IsOf c ∧ c.phase.sending = true) := by
    intro hsession hsending
    exact ⟨t', hsession, hchecking, rfl, rfl, fun his => by rw [hsending] at his; cases his.2⟩
  have hgone : s.session = some t' → (¬t'.IsOf c) → ∃ t, s.session = some t
      ∧ t.submission = .checking ∧ t.sessionId = t'.sessionId ∧ t.run = t'.run
      ∧ ¬(t.IsOf c ∧ c.phase.sending = true) :=
    fun hsession hnot => ⟨t', hsession, hchecking, rfl, rfl, fun his => hnot his.1⟩
  have hnone : ∀ {run : ℕ}, c.phase.run = some run → s.current c run = none →
      s.session = some t' → ¬t'.IsOf c := by
    intro run hrun hcurrent hsession his
    exact current_eq_none hcurrent hsession ⟨his.1.symm, Option.some.inj (his.2.symm.trans hrun)⟩
  cases h with
  | allot target hoperation hphase => exact .inr (hquiet ht' (by rw [hphase]; rfl))
  | store target hphase =>
      obtain rfl := Option.some.inj ht'
      cases hchecking
  | close hoperation hphase =>
      exact .inr (hquiet (filter_session_eq_some ht').1 (by rw [hphase]; rfl))
  | confirm t result symptom hoperation hphase hsession hid hsubmission =>
      obtain rfl := Option.some.inj ht'
      rcases hsubmission with hsubmission | hsubmission <;>
        exact absurd (hsubmission.symm.trans hchecking) (by decide)
  | refuse e hphase => exact .inr (hquiet ht' (by rcases hphase with h | h <;> rw [h] <;> rfl))
  | admitRefresh t hphase hsession hid hsubmission =>
      obtain rfl := Option.some.inj ht'
      exact absurd hchecking hsubmission
  | admitSend t hoperation hphase hsession hid =>
      obtain rfl := Option.some.inj ht'
      exact .inl ⟨⟨hid.symm, rfl⟩, rfl⟩
  | stale run x hrun hguard hcurrent => exact .inr (hgone ht' (hnone hrun hcurrent ht'))
  | publish t run target checks media x hphase hsession hid hrun =>
      obtain rfl := Option.some.inj ht'
      exact .inr ⟨t, hsession, hchecking, rfl, rfl, fun his => by rw [hphase] at his; cases his.2⟩
  | staleSend run target preview x hphase hcurrent =>
      exact .inr (hgone ht' (hnone (by rw [hphase]; rfl) hcurrent ht'))
  | block t run target preview checks media x hphase =>
      obtain rfl := Option.some.inj ht'
      cases hchecking
  | submit t run target checks m hphase hsession hid hrun =>
      obtain rfl := Option.some.inj ht'
      exact .inl ⟨⟨hid.symm, congrArg Option.some hrun.symm⟩, rfl⟩
  | release result hphase => exact .inr (hquiet ht' (by rw [hphase]; rfl))
  | record t run n outcome x hphase houtcome =>
      obtain rfl := Option.some.inj ht'
      obtain rfl : outcome = .checking := hchecking
      rcases houtcome with h | h | h <;> cases h
  | drop run hrun =>
      cases hsending : c.phase.sending with
      | false => exact .inr (by simpa [hsending] using hquiet ht' hsending)
      | true => exact .inr (by simpa [hsending] using hgone ht' (hkeeps rfl hsending t' ht'))
  | dropSend run target preview hphase =>
      exact .inr (hgone ht' (hkeeps rfl (by rw [hphase]; rfl) t' ht'))

theorem attended_of_step (hw : Attended w) (hkeeps : KeepsSend w e)
    (h : (guided hasNative).step w e = some v) : Attended v := by
  rcases stepped_of_guided h with ⟨k, hstarts⟩ | ⟨i, x, k, s, k', spawned, hk, hadvance⟩ | ⟨o, s, hend⟩
  · exact fun t ht hchecking => some_after_start (hw t ht hchecking)
  · obtain ⟨hmoved, rfl⟩ := moved_of_advance hadvance
    have hkeeps' : x = .dropped → k.phase.sending = true →
        ∀ t, w.shared.session = some t → ¬t.IsOf k := by
      rintro rfl hsending t ht
      exact hkeeps k hk hsending t ht
    intro t' ht' hchecking
    rcases hmoved.attended hkeeps' ht' hchecking with hmover | ⟨t, ht, hchecking, hid, hrun, hnot⟩
    · exact some_of_moved hk hmover
    · have hattended : Processes.Some w.processes fun c => t'.IsOf c ∧ c.phase.sending = true := by
        obtain ⟨j, m, hm, his, hsending⟩ := hw t ht hchecking
        exact ⟨j, m, hm, ⟨his.1.trans hid, hrun ▸ his.2⟩, hsending⟩
      refine some_after_move hk hattended fun his => absurd ⟨⟨?_, ?_⟩, his.2⟩ hnot
      · exact his.1.1.trans hid.symm
      · exact hrun.symm ▸ his.1.2
  · obtain ⟨n, k, outcome, -, -, rfl⟩ := finished_of_outside hend
    exact hw

/-! ### Exactly one submission -/

/-- The step makes a submission for the open session, by a `send` for it: with the target and
the media the session shows, on checks read for this decision that make the printer eligible. -/
def MadeForOpen (u : World) (e : Event) (v : World) : Prop :=
  ∃ i checks m t c, e = .move i (.inspected checks (some m)) ∧ u.processes[i]? = some c
    ∧ u.shared.session = some t ∧ c.operation = .send t.sessionId ∧ t.requestedMedia = some m
    ∧ (Diagnostics.mk t.diagnostics.target checks).isRepairEligible = true
    ∧ v.shared.workers = u.shared.workers ++ [⟨t.sessionId, t.diagnostics.target, m, none⟩]

/-- The step is by a call for the open session, or by an `open` that replaces it. -/
def OwnChange (u : World) (e : Event) : Prop :=
  ∃ i x c, e = .move i x ∧ u.processes[i]? = some c
    ∧ (c.phase.storing = true ∨ ∃ t, u.shared.session = some t ∧ t.sessionId = c.id)

/-- One submission for each confirmed decision, in a run and the state it leads to. -/
structure OncePerDecision (S : StepSystem World Event) (es : List Event) (w : World) : Prop where
  oneInFlight : w.shared.workers.countP Worker.inFlight ≤ 1
  answered : ∀ (i : ℕ) (c : Call), w.processes[i]? = some c → ∀ id t, c.operation = .send id →
    c.phase = .done (.ok t) → (t.submission = .blocked ∧ c.caused = [])
      ∨ (t.submission.Concludes ∧ ∃ n, c.caused = [n])
  refused : ∀ (i : ℕ) (c : Call), w.processes[i]? = some c → ∀ e, c.phase = .refused e →
    c.caused = []
  caused : ∀ n < w.shared.workers.length,
    ∃! i : ℕ, ∃ c : Call, w.processes[i]? = some c ∧ n ∈ c.caused
  madeForOpen : ∀ u e v, S.Took es u e v →
    u.shared.workers.length < v.shared.workers.length → MadeForOpen u e v
  ownChanges : ∀ u e v, S.Took es u e v → v.shared.session ≠ u.shared.session → OwnChange u e
  ownIds : ∀ n, AtMostOne w.processes (Call.Owns n)

/-- Where no `send` runs, `refresh` is admitted to the open session. -/
def NotStuck (w : World) : Prop :=
  (∀ (i : ℕ) (c : Call), w.processes[i]? = some c → c.phase.sending = false) →
    ∀ t, w.shared.session = some t → ∀ c : Call, c.id = t.sessionId →
      ∃ run target, (refresh w.shared c).2.phase = .inspecting run target

/-- What holds of every reachable state. -/
structure Reached (w : World) : Prop where
  guarded : Guarded w
  ordered : Ordered w
  previewed : Previewed w
  sound : ∀ (i : ℕ) (c : Call), w.processes[i]? = some c → c.Sound
  traced : Traced w

theorem reached_of_run {es : List Event} (h : (guided hasNative).run es = some w) : Reached w := by
  refine StepSystem.invariant _ (I := Reached) ?_ (fun w e v hw hstep => ?_) h
  · have hnone : ∀ (i : ℕ) (c : Call), ([] : List Call)[i]? ≠ some c := fun i c hc => by cases hc
    refine ⟨rfl, ⟨?_, ?_, ?_, ?_, ?_, ?_⟩, ?_, ?_, ⟨?_, ?_, ?_⟩⟩
    · exact fun n i j c d hc => absurd hc (hnone i c)
    · exact fun i c hc => absurd hc (hnone i c)
    · exact fun t ht => by cases ht
    · exact fun i c hc => absurd hc (hnone i c)
    · exact fun i c hc => absurd hc (hnone i c)
    · exact fun id run i j c d hc => absurd hc (hnone i c)
    · exact fun i c hc => absurd hc (hnone i c)
    · exact fun i c hc => absurd hc (hnone i c)
    · exact fun i c hc => absurd hc (hnone i c)
    · exact fun n i j c d hc => absurd hc (hnone i c)
    · exact fun n hn => absurd hn (Nat.not_lt_zero n)
  · exact ⟨guarded_of_step hw.guarded hstep, ordered_of_step hw.ordered hstep,
      previewed_of_step hw.ordered hw.previewed hstep, sound_of_step hw.sound hstep,
      traced_of_step hw.traced hstep⟩

/-- A section that makes a submission decided for the open session. -/
lemma madeForOpen_of_step (hw : Reached w) (h : (guided hasNative).step w e = some v)
    (hmore : w.shared.workers.length < v.shared.workers.length) : MadeForOpen w e v := by
  rcases stepped_of_guided h with ⟨k, hstarts⟩ | ⟨i, x, k, s, k', spawned, hk, hadvance⟩ | ⟨o, s, hend⟩
  · exact absurd hmore (lt_irrefl _)
  · obtain ⟨hmoved, rfl⟩ := moved_of_advance hadvance
    cases hmoved with
    | submit t run target checks m hphase hsession hid hrun heligible =>
        have his : t.IsOf k := ⟨hid.symm, by rw [hphase, hrun]; rfl⟩
        obtain ⟨hmedia, rfl⟩ := hw.previewed i k hk run target (some m) hphase t hsession his
        have hsound := hw.sound i k hk
        unfold Call.Sound at hsound
        rw [hphase] at hsound
        exact ⟨i, checks, m, t, k, rfl, hk, hsession, hid ▸ hsound.1, hmedia, heligible, hid ▸ rfl⟩
    | _ => exact absurd hmore (lt_irrefl _)
  · obtain ⟨n, k, outcome, -, -, rfl⟩ := finished_of_outside hend
    simp at hmore

/-- A section that changes the session is one of its own. -/
lemma ownChange_of_step (h : (guided hasNative).step w e = some v)
    (hchange : v.shared.session ≠ w.shared.session) : OwnChange w e := by
  rcases stepped_of_guided h with ⟨k, hstarts⟩ | ⟨i, x, k, s, k', spawned, hk, hadvance⟩ | ⟨o, s, hend⟩
  · exact absurd rfl hchange
  · obtain ⟨hmoved, rfl⟩ := moved_of_advance hadvance
    refine ⟨i, x, k, rfl, hk, ?_⟩
    cases hmoved with
    | store target hphase => exact .inl (by rw [hphase]; rfl)
    | close hoperation hphase =>
        cases hsession : w.shared.session with
        | none => simp [hsession] at hchange
        | some t =>
            refine .inr ⟨t, rfl, ?_⟩
            by_contra hne
            simp [hsession, hne] at hchange
    | confirm t result symptom hoperation hphase hsession hid => exact .inr ⟨t, hsession, hid⟩
    | admitRefresh t hphase hsession hid => exact .inr ⟨t, hsession, hid⟩
    | admitSend t hoperation hphase hsession hid => exact .inr ⟨t, hsession, hid⟩
    | publish t run target checks media x hphase hsession hid => exact .inr ⟨t, hsession, hid⟩
    | block t run target preview checks media x hphase hsession hid =>
        exact .inr ⟨t, hsession, hid⟩
    | submit t run target checks m hphase hsession hid => exact .inr ⟨t, hsession, hid⟩
    | record t run n outcome x hphase houtcome hsession hid => exact .inr ⟨t, hsession, hid⟩
    | _ => exact absurd rfl hchange
  · obtain ⟨n, k, outcome, -, -, rfl⟩ := finished_of_outside hend
    exact absurd rfl hchange

theorem oncePerDecision_of_run {es : List Event} (h : (guided hasNative).run es = some w) :
    OncePerDecision (guided hasNative) es w := by
  have hw := reached_of_run h
  refine ⟨?_, fun i c hc id t hsend hdone => ?_, fun i c hc e hrefused => ?_, fun n hn => ?_,
    fun u e v htook => ?_, fun u e v htook => ?_, hw.ordered.owners⟩
  · have hguarded := hw.guarded
    have hle : w.shared.submitting.toNat ≤ 1 := Bool.toNat_le _
    unfold Guarded at hguarded
    omega
  · have hsound := hw.sound i c hc
    unfold Call.Sound at hsound
    rw [hdone] at hsound
    exact hsound.resolve_left fun hother => hother.1 id hsend
  · have hsound := hw.sound i c hc
    unfold Call.Sound at hsound
    rw [hrefused] at hsound
    exact hsound
  · obtain ⟨i, c, hc, hcaused⟩ := hw.traced.made n hn
    refine ⟨i, ⟨c, hc, hcaused⟩, ?_⟩
    rintro j ⟨d, hd, hcaused'⟩
    exact hw.traced.single n j i d c hd hc hcaused' hcaused
  · obtain ⟨pre, post, -, hrun, hstep⟩ := htook
    exact madeForOpen_of_step (reached_of_run hrun) hstep
  · obtain ⟨pre, post, -, -, hstep⟩ := htook
    exact ownChange_of_step hstep

theorem attended_of_run {es : List Event} (h : (guided hasNative).run es = some w)
    (hkeeps : (guided hasNative).StepsMeet KeepsSend es) : Attended w := by
  refine StepSystem.invariant_of_stepsMeet (I := Attended) ?_ (fun w e v hw hok hstep => ?_) h hkeeps
  · exact fun t ht => by cases ht
  · exact attended_of_step hw hok hstep

/-- A session that has its call whenever it is checking is not stuck. -/
lemma Attended.notStuck (h : Attended w) : NotStuck w := by
  intro hquiet t ht c hid
  have hchecking : t.submission ≠ .checking := by
    intro hchecking
    obtain ⟨i, d, hd, -, hsending⟩ := h t ht hchecking
    rw [hquiet i d hd] at hsending
    cases hsending
  refine ⟨t.run + 1, t.diagnostics.target, ?_⟩
  simp [refresh, ht, hid, hchecking, Option.filter]

/-- **Exactly one submission for each confirmed decision**, in every run. No session is stuck,
in the runs that drop no `send` while the open session waits for it. -/
theorem guided_of_run {es : List Event} (h : (guided hasNative).run es = some w) :
    OncePerDecision (guided hasNative) es w
      ∧ ((guided hasNative).StepsMeet KeepsSend es → NotStuck w) :=
  ⟨oncePerDecision_of_run h, fun hkeeps => (attended_of_run h hkeeps).notStuck⟩

/-! ### A send that is concluded, and one that is dropped -/

def receptionPrinter : PrinterName := ⟨"Reception", by decide, by decide, by decide, by decide⟩

def receptionQueue : ClientQueueName :=
  ⟨"Reception (ShaPrint 10.0.0.7-48631)".toList, by decide, by decide, by decide, by decide,
    by decide⟩

/-- The queue that is tested. -/
def reception : RecognisedClientQueue := ⟨receptionQueue, "10.0.0.7:48631".toList, receptionPrinter⟩

/-- Checks of a printer that can be used. -/
def healthyChecks : List LocalFinding :=
  [.spoolerReady, .queueMatching, .queueEmpty, .serverReachable, .serverIdentityMatching,
    .printerShared, .firewallInspectionUnavailable, .proxyRunning, .channelConfiguredUnobserved]

/-- What `inspect` reads, the printer having the first size of the catalogue. -/
def healthy : Input := .inspected healthyChecks mediaCatalog.head?

/-- A session is opened, previewed and sent, up to the wait for the submission. -/
def sendEvents : List Event :=
  [.start (.new (.open reception)), .move 0 .go, .move 0 .go, .move 0 .go, .move 0 healthy,
    .start (.new (.send 1)), .move 1 .go, .move 1 healthy]

/-- The submission ends before the call does. -/
theorem accepted_once : ∃ w,
    (guided true).run (sendEvents ++ [.outside (.finish 0 (some .accepted)), .move 1 .joined]) = some w
      ∧ OncePerDecision (guided true)
        (sendEvents ++ [.outside (.finish 0 (some .accepted)), .move 1 .joined]) w
      ∧ NotStuck w := by
  have hrun : (guided true).run
      (sendEvents ++ [.outside (.finish 0 (some .accepted)), .move 1 .joined]) = some _ := rfl
  have hkeeps : (guided true).StepsMeet KeepsSend
      (sendEvents ++ [.outside (.finish 0 (some .accepted)), .move 1 .joined]) :=
    StepSystem.stepsMeet_of_meetsFrom (by decide +kernel)
  obtain ⟨honce, hstuck⟩ := guided_of_run hrun
  exact ⟨_, hrun, honce, hstuck hkeeps⟩

/-- The deadline of the connection drops the call while the spooler is at work. When the
submission has ended too, the session goes on checking, and `refresh` is refused. -/
theorem dropped_send_stuck : ∃ w,
    (guided true).run (sendEvents ++ [.move 1 .dropped, .outside (.finish 0 (some .accepted))]) = some w
      ∧ (∀ k ∈ w.shared.workers, k.inFlight = false) ∧ ¬NotStuck w := by
  have hrun : (guided true).run
      (sendEvents ++ [.move 1 .dropped, .outside (.finish 0 (some .accepted))]) = some _ := rfl
  refine ⟨_, hrun, by decide +kernel, fun hstuck => ?_⟩
  have hquiet := hstuck ?_ _ rfl (.new (.refresh 1)) rfl
  · obtain ⟨run, target, hphase⟩ := hquiet
    cases hphase
  · intro i c hc
    rcases i with _ | _ | i
    · obtain rfl := Option.some.inj hc
      rfl
    · obtain rfl := Option.some.inj hc
      rfl
    · cases hc

end ShaPrint.TestPrint
