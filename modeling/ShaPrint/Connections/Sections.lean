import ShaPrint.Connections.Connections

/-!
What one section of a call can do, said once, and what the approval lock keeps.

* `Moved`: the sections; `moved_of_advance` is the inversion.
* `TrustData.change`: an approval or a removal as a change of the approvals.
* `Consistent`: at most one call is under the lock, the memory is the file whenever the
  lock is free, and what a call under the lock writes is the file with its own change;
  `consistent_of_run` holds it in every state reached.
-/

namespace ShaPrint.Connections

open Client Processes

/-! ### The sections -/

section Moved

variable (sha256 : Bytes → Vector UInt8 32)

/-- The sections of a call, by name. -/
inductive Moved (s : Shared) (operation : Operation) : Phase → Input → Shared → Phase → Prop where
  | starts : Moved s operation .start .go s (started operation)
  | unobserved {address : ServerAddress} {reviewed : Option String} (failure : ConnectFailure) :
      Moved s operation (.observe address reviewed) (.unconnected failure) s
        (.done (.error failure.error))
  | observes {address : ServerAddress} {reviewed : Option String} (certificate : Bytes) :
      Moved s operation (.observe address reviewed) (.presented certificate) s
        (observed address reviewed (fingerprint sha256 certificate))
  | locks {job : Job} (hfree : s.locked = false) :
      Moved s operation (.lock job) .go { s with locked := true } (.read job)
  | unreads {job : Job} (failure : ReadFailure) :
      Moved s operation (.read job) (.unread failure) s.release (.done (.error failure.error))
  | reads {job : Job} : Moved s operation (.read job) .go s (.refresh job s.file)
  | refreshes {job : Job} {latest : TrustData} :
      Moved s operation (.refresh job latest) .go
        { s with store := latest, locked := (refreshed latest job).inside } (refreshed latest job)
  | unsaves {address : ServerAddress} {approved : Option String} {updated : TrustData}
      (failure : SaveFailure) :
      Moved s operation (.persist address approved updated) (.unsaved failure) s.release
        (.done (.error failure.error))
  | saves {address : ServerAddress} {approved : Option String} {updated : TrustData} :
      Moved s operation (.persist address approved updated) .saved { s with file := updated }
        (.store address approved updated)
  | stores {address : ServerAddress} {approved : Option String} {updated : TrustData} :
      Moved s operation (.store address approved updated) .go { s with store := updated }.release
        (.done (.ok (stored address approved)))
  | unconnects {address : ServerAddress} {query : Query} {pinned : Option String}
      (failure : ConnectFailure) :
      Moved s operation (.connect address query pinned) (.unconnected failure) s
        (.done (query.unreached address pinned failure))
  | connects {address : ServerAddress} {query : Query} {pinned : Option String}
      (certificate : Bytes) :
      Moved s operation (.connect address query pinned) (.presented certificate) s
        (connected address query pinned certificate (fingerprint sha256 certificate))
  | interrupts {address : ServerAddress} {query : Query} {pinned : String}
      {certificate request : Bytes} (sent : ℕ) (failure : ExchangeFailure) :
      Moved s operation (.send address query pinned certificate request)
        (.interrupted sent failure) (s.transmit address certificate (request.take sent))
        (.done (query.answered address pinned (.error failure)))
  | answers {address : ServerAddress} {query : Query} {pinned : String}
      {certificate request : Bytes} (response : Bytes) :
      Moved s operation (.send address query pinned certificate request) (.answered response)
        (s.transmit address certificate request)
        (.done (query.answered address pinned (.ok response)))

/-- Every section is one of these. -/
theorem moved_of_advance {s s' : Shared} {operation : Operation} {phase phase' : Phase} {x : Input}
    (h : advance sha256 s operation phase x = some (s', phase')) :
    Moved sha256 s operation phase x s' phase' := by
  cases phase with
  | lock job =>
      cases x with
      | go =>
          rw [advance] at h
          split at h
          · cases h
          · obtain ⟨rfl, rfl⟩ := Prod.mk.inj (Option.some.inj h)
            exact .locks (Bool.eq_false_iff.mpr ‹_›)
      | _ => cases h
  | _ =>
      cases x <;> first
        | cases h; done
        | (obtain ⟨rfl, rfl⟩ := Prod.mk.inj (Option.some.inj h); constructor)

/-- A step of a call takes one of its sections. -/
lemma moved_of_step {file : TrustData} {w w' : World} {i : ℕ} {x : Input}
    (h : (connections sha256 file).step w (.move i x) = some w') :
    ∃ (k : Call) (s : Shared) (phase : Phase), w.processes[i]? = some k
      ∧ Moved sha256 w.shared k.operation k.phase x s phase
      ∧ w' = ⟨s, w.processes.set i ⟨k.operation, phase⟩ ++ []⟩ := by
  cases stepped_of_step (processes sha256 file) (e := .move i x) h with
  | move _ _ k s k' spawned hk hadvance =>
      obtain ⟨⟨s, phase⟩, hphase, heq⟩ := Option.map_eq_some_iff.mp hadvance
      cases heq
      exact ⟨k, s, phase, hk, moved_of_advance sha256 hphase, rfl⟩

/-- Nothing but the calls acts, and a new call is at its start. -/
lemma starts_of_step {file : TrustData} {w w' : World} {e : Event}
    (h : (connections sha256 file).step w e = some w') (he : e.mover = none) :
    ∃ operation, w' = ⟨w.shared, w.processes ++ [⟨operation, .start⟩]⟩ := by
  cases stepped_of_step (processes sha256 file) h with
  | start k hstarts =>
      obtain ⟨operation, phase⟩ := k
      cases phase with
      | start => exact ⟨operation, rfl⟩
      | _ => cases hstarts
  | move => cases he
  | outside x => cases x

end Moved

/-! ### Phases that hold no lock -/

@[simp] lemma inside_parsed {input : Chars} {next : ServerAddress → Phase}
    (h : ∀ address, (next address).inside = false) : (parsed input next).inside = false := by
  unfold parsed
  split
  · rfl
  · exact h _

lemma inside_started (operation : Operation) : (started operation).inside = false := by
  unfold started
  split
  · rfl
  · exact inside_parsed fun _ => rfl
  · exact inside_parsed fun _ => rfl
  · refine inside_parsed fun address => ?_
    split <;> rfl
  · split <;> rfl
  · exact inside_parsed fun _ => rfl

lemma inside_observed (address : ServerAddress) (reviewed : Option String) (live : String) :
    (observed address reviewed live).inside = false := by
  unfold observed
  split
  · rfl
  · split <;> rfl

lemma inside_connected (address : ServerAddress) (query : Query) (pinned : Option String)
    (certificate : Bytes) (live : String) :
    (connected address query pinned certificate live).inside = false := by
  unfold connected
  split
  · rfl
  · split
    · rfl
    · split <;> rfl

/-! ### Changes -/

namespace TrustData

/-- An approval, or a removal. -/
def change (data : TrustData) (address : String) : Option String → TrustData
  | none => data.remove address
  | some live => data.insert address live

@[simp] lemma fingerprint_change_self (data : TrustData) (address : String)
    (approved : Option String) :
    (data.change address approved).fingerprint address = approved := by
  cases approved <;> simp [change, fingerprint, insert, remove]

/-- A change leaves the other addresses alone. -/
lemma fingerprint_change_of_ne (data : TrustData) {address other : String}
    (approved : Option String) (h : other ≠ address) :
    (data.change address approved).fingerprint other = data.fingerprint other := by
  cases approved <;>
    simp [change, fingerprint, insert, remove, Std.ExtTreeMap.getElem?_insert,
      Std.ExtTreeMap.getElem?_erase, h.symm]

end TrustData

/-- What a call goes on with under the lock is the write of its own change. -/
lemma refreshed_inside {latest : TrustData} {job : Job} (h : (refreshed latest job).inside = true) :
    ∃ address approved, refreshed latest job
      = .persist address approved (latest.change (key address) approved) := by
  unfold refreshed at h ⊢
  split at h
  · cases h
  · split at h
    · cases h
    · rename_i address hheld
      exact ⟨address, none, if_neg hheld⟩
  · cases h
  · rename_i address live
    exact ⟨address, some live, rfl⟩
  · split at h <;> cases h

/-! ### The lock -/

/-- What a call under the lock knows of the file and the memory. -/
def Phase.Knows (s : Shared) : Phase → Prop
  | .read _ => s.store = s.file
  | .refresh _ latest => s.store = s.file ∧ latest = s.file
  | .persist address approved updated =>
      s.store = s.file ∧ updated = s.file.change (key address) approved
  | .store address approved updated =>
      s.file = updated ∧ updated = s.store.change (key address) approved
  | _ => True

lemma Phase.knows_of_outside {s : Shared} {phase : Phase} (h : phase.inside = false) :
    phase.Knows s := by
  cases phase with
  | read | refresh | persist | store => cases h
  | _ => trivial

/-- What a call knows depends on the file and the memory only. -/
lemma Phase.Knows.congr {s s' : Shared} {phase : Phase} (h : phase.Knows s)
    (hfile : s'.file = s.file) (hstore : s'.store = s.store) : phase.Knows s' := by
  cases phase <;> simp only [Phase.Knows, hfile, hstore] at h ⊢ <;> exact h

structure Consistent (w : World) : Prop where
  exclusive : AtMostOne w.processes fun k => k.phase.inside = true
  locked : ∀ (j : ℕ) (m : Call), w.processes[j]? = some m → m.phase.inside = true →
    w.shared.locked = true
  free : w.shared.locked = false → w.shared.store = w.shared.file
  knows : ∀ (j : ℕ) (m : Call), w.processes[j]? = some m → m.phase.Knows w.shared

lemma consistent_init (file : TrustData) : Consistent ⟨.new file, []⟩ where
  exclusive _ _ _ _ h := by simp at h
  locked _ _ h := by simp at h
  free _ := rfl
  knows _ _ h := by simp at h

namespace Consistent

variable {w : World} {i : ℕ} {k : Call} {s : Shared} {phase : Phase}

lemma after_start (h : Consistent w) (operation : Operation) :
    Consistent ⟨w.shared, w.processes ++ [⟨operation, .start⟩]⟩ where
  exclusive := atMostOne_after_start h.exclusive (by simp [Phase.inside])
  locked := forall_after_start (Q := fun m : Call => m.phase.inside = true → w.shared.locked = true)
    h.locked (by simp [Phase.inside])
  free := h.free
  knows := forall_after_start (Q := fun m : Call => m.phase.Knows w.shared) h.knows trivial

/-- A move of a call keeps the file and the memory for the others, or no other is under
the lock. -/
lemma after_move (h : Consistent w) (hk : w.processes[i]? = some k)
    (halone : k.phase.inside = true ∨ w.shared.locked = false
      ∨ s.file = w.shared.file ∧ s.store = w.shared.store ∧ s.locked = w.shared.locked)
    (henter : phase.inside = true → k.phase.inside = true ∨ w.shared.locked = false)
    (hlocked : phase.inside = true → s.locked = true)
    (hfree : s.locked = false → s.store = s.file) (hknows : phase.Knows s) :
    Consistent ⟨s, w.processes.set i ⟨k.operation, phase⟩ ++ []⟩ := by
  have hothers : ∀ (j : ℕ) (m : Call), j ≠ i → w.processes[j]? = some m →
      m.phase.inside = true →
      s.file = w.shared.file ∧ s.store = w.shared.store ∧ s.locked = w.shared.locked := by
    intro j m hne hm hin
    rcases halone with hin' | hunlocked | hframe
    · exact absurd (h.exclusive j i m k hm hk hin hin') hne
    · rw [h.locked j m hm hin] at hunlocked
      cases hunlocked
    · exact hframe
  constructor
  · refine atMostOne_after_move hk h.exclusive (fun hin => ?_) (by simp)
    refine (henter hin).imp id fun hunlocked j m _ hm hin' => ?_
    rw [h.locked j m hm hin'] at hunlocked
    cases hunlocked
  · refine forall_after_move (Q := fun m : Call => m.phase.inside = true → s.locked = true) hk
      (fun j m hne hm hin => ?_) hlocked (by simp)
    rw [(hothers j m hne hm hin).2.2]
    exact h.locked j m hm hin
  · exact hfree
  · refine forall_after_move (Q := fun m : Call => m.phase.Knows s) hk (fun j m hne hm => ?_) hknows
      (by simp)
    rcases hin : m.phase.inside with _ | _
    · exact Phase.knows_of_outside hin
    · obtain ⟨hfile, hstore, -⟩ := hothers j m hne hm hin
      exact (h.knows j m hm).congr hfile hstore

/-- A call that moves outside the lock and leaves the approvals alone. -/
lemma after_quiet (h : Consistent w) (hk : w.processes[i]? = some k)
    (hfile : s.file = w.shared.file) (hstore : s.store = w.shared.store)
    (hlock : s.locked = w.shared.locked) (hout : phase.inside = false) :
    Consistent ⟨s, w.processes.set i ⟨k.operation, phase⟩ ++ []⟩ := by
  refine h.after_move hk (.inr (.inr ⟨hfile, hstore, hlock⟩)) ?_ ?_ ?_
    (Phase.knows_of_outside hout)
  · simp [hout]
  · simp [hout]
  · rw [hfile, hstore, hlock]
    exact h.free

/-- A call under the lock that leaves with the memory equal to the file. -/
lemma after_leave (h : Consistent w) (hk : w.processes[i]? = some k)
    (hin : k.phase.inside = true) (hout : phase.inside = false) (hsame : s.store = s.file) :
    Consistent ⟨s, w.processes.set i ⟨k.operation, phase⟩ ++ []⟩ :=
  h.after_move hk (.inl hin) (by simp [hout]) (by simp [hout]) (fun _ => hsame)
    (Phase.knows_of_outside hout)

/-- A call that stays under the lock. -/
lemma after_stay (h : Consistent w) (hk : w.processes[i]? = some k)
    (hin : k.phase.inside = true) (hlocked : s.locked = true) (hknows : phase.Knows s) :
    Consistent ⟨s, w.processes.set i ⟨k.operation, phase⟩ ++ []⟩ :=
  h.after_move hk (.inl hin) (fun _ => .inl hin) (fun _ => hlocked) (by simp [hlocked]) hknows

end Consistent

/-- Every section keeps the file, the memory and the lock in order. -/
lemma consistent_of_moved {sha256 : Bytes → Vector UInt8 32} {w : World} {i : ℕ}
    {operation : Operation} {phase phase' : Phase} {x : Input} {s : Shared} (h : Consistent w)
    (hk : w.processes[i]? = some ⟨operation, phase⟩)
    (hmoved : Moved sha256 w.shared operation phase x s phase') :
    Consistent ⟨s, w.processes.set i ⟨operation, phase'⟩ ++ []⟩ := by
  have hknows := h.knows i _ hk
  have hlocked := h.locked i _ hk
  cases hmoved with
  | starts => exact h.after_quiet hk rfl rfl rfl (inside_started operation)
  | unobserved failure => exact h.after_quiet hk rfl rfl rfl rfl
  | observes certificate => exact h.after_quiet hk rfl rfl rfl (inside_observed _ _ _)
  | locks hfree =>
      exact h.after_move hk (.inr (.inl hfree)) (fun _ => .inr hfree) (fun _ => rfl)
        (fun hfree' => nomatch hfree') (h.free hfree)
  | unreads failure => exact h.after_leave hk rfl rfl hknows
  | reads => exact h.after_stay hk rfl (hlocked rfl) ⟨hknows, rfl⟩
  | refreshes =>
      rename_i job latest
      obtain ⟨-, hlatest⟩ := hknows
      rcases hin : (refreshed latest job).inside with _ | _
      · exact h.after_leave hk rfl hin hlatest
      · obtain ⟨address, approved, hphase⟩ := refreshed_inside hin
        refine h.after_stay hk rfl rfl ?_
        rw [hphase]
        exact ⟨hlatest, by rw [hlatest]⟩
  | unsaves failure => exact h.after_leave hk rfl rfl hknows.1
  | saves => exact h.after_stay hk rfl (hlocked rfl) ⟨rfl, by rw [hknows.1, hknows.2]⟩
  | stores => exact h.after_leave hk rfl rfl hknows.1.symm
  | unconnects failure => exact h.after_quiet hk rfl rfl rfl rfl
  | connects certificate => exact h.after_quiet hk rfl rfl rfl (inside_connected _ _ _ _ _)
  | interrupts sent failure => exact h.after_quiet hk rfl rfl rfl rfl
  | answers response => exact h.after_quiet hk rfl rfl rfl rfl

theorem consistent_of_step {sha256 : Bytes → Vector UInt8 32} {file : TrustData} {w w' : World}
    {e : Event} (h : Consistent w) (hstep : (connections sha256 file).step w e = some w') :
    Consistent w' := by
  rcases he : e.mover with _ | i
  · obtain ⟨operation, rfl⟩ := starts_of_step sha256 hstep he
    exact h.after_start operation
  · cases e with
    | move j x =>
        obtain ⟨k, s, phase, hk, hmoved, rfl⟩ := moved_of_step sha256 hstep
        exact consistent_of_moved h hk hmoved
    | _ => cases he

/-- The file, the memory and the lock are in order in every state reached. -/
theorem consistent_of_run {sha256 : Bytes → Vector UInt8 32} {file : TrustData} {w : World}
    {es : List Event} (h : (connections sha256 file).run es = some w) : Consistent w :=
  (connections sha256 file).invariant (consistent_init file)
    (fun _ _ _ hs hstep => consistent_of_step hs hstep) h

end ShaPrint.Connections
