import ShaPrint.Connections.Sections

/-!
What the approvals are worth over all interleavings.

* `Held`: a condition on the approvals at some moment since a call began.
* `Presented`, `Reviewed`: an approval that was reviewed and seen at its address.
* `Phase.Traced`: where the local variables of a call come from; `traced_of_run` holds it
  for every call of every run.
* `SendsPinned`, `EntersReviewed`, `WritesAt`: the claims about one step.
* `trust_pinning`: requests are sent to pinned servers only, approvals enter through
  reviews only, none is lost, and the memory follows the file.
-/

namespace ShaPrint.Connections

open Client Processes

section Pinning

variable (sha256 : Bytes → Vector UInt8 32) (file : TrustData)

/-! ### Where a call's variables come from -/

/-- `P` held of the shared state at some moment since call `i` began. -/
def Held (es : List Event) (i : ℕ) (P : Shared → Prop) : Prop :=
  (connections sha256 file).Met es fun u => i < u.processes.length ∧ P u.shared

/-- A server at the address presented the certificate to call `i`, which awaited it for a
review or an approval. -/
def Presented (es : List Event) (i : ℕ) (address : ServerAddress) (certificate : Bytes) : Prop :=
  ∃ (u t : World) (operation : Operation) (reviewed : Option String),
    (connections sha256 file).Took es u (.move i (.presented certificate)) t
      ∧ u.processes[i]? = some ⟨operation, .observe address reviewed⟩

/-- Call `i` approves, at the address, a fingerprint that was reviewed and that a server
there presented during the call. -/
def Reviewed (es : List Event) (i : ℕ) (operation : Operation) (address : ServerAddress)
    (live : String) : Prop :=
  ∃ (input : Chars) (observed : String) (certificate : Bytes),
    operation = .approve input observed ∧ ServerAddress.parse input = .ok address
      ∧ live = toAsciiUpper observed ∧ live = fingerprint sha256 certificate
      ∧ Presented sha256 file es i address certificate

/-- The change that a call makes. -/
def Changes (es : List Event) (i : ℕ) (operation : Operation) (address : ServerAddress) :
    Option String → Prop
  | some live => Reviewed sha256 file es i operation address live
  | none => ∃ input, operation = .forget input ∧ ServerAddress.parse input = .ok address

/-- The call returned from an approval or a removal at the address. -/
def Decided (operation : Operation) (result : Except AppError Answer) (address : ServerAddress)
    (approved : Option String) : Prop :=
  (∃ answer, result = .ok answer) ∧ ∃ input, ServerAddress.parse input = .ok address
    ∧ ((∃ observed, operation = .approve input observed ∧ approved = some (toAsciiUpper observed))
      ∨ (operation = .forget input ∧ approved = none))

/-- The call is a query at the address. -/
def Asks (operation : Operation) (address : ServerAddress) (query : Query) : Prop :=
  ∃ input, operation = .query input query ∧ ServerAddress.parse input = .ok address

/-- The approvals, in the file and in memory, had this fingerprint at the address. -/
def Shared.Pins (address : ServerAddress) (pinned : String) (s : Shared) : Prop :=
  s.file.fingerprint (key address) = some pinned ∧ s.store.fingerprint (key address) = some pinned

def Job.Traced (es : List Event) (i : ℕ) (operation : Operation) : Job → Prop
  | .list => operation = .list
  | .forget address => Changes sha256 file es i operation address none
  | .inspect _ _ => ∃ input, operation = .inspect input
  | .approve address live => Reviewed sha256 file es i operation address live
  | .query address asked => Asks operation address asked

/-- Where the local variables of a call come from. -/
def Phase.Traced (es : List Event) (i : ℕ) (operation : Operation) : Phase → Prop
  | .start => True
  | .observe address (some reviewed) =>
      ∃ input, operation = .approve input reviewed ∧ ServerAddress.parse input = .ok address
  | .observe _ none => ∃ input, operation = .inspect input
  | .lock job | .read job | .refresh job _ => job.Traced sha256 file es i operation
  | .persist address approved _ => Changes sha256 file es i operation address approved
  | .store address approved _ =>
      Changes sha256 file es i operation address approved
        ∧ Held sha256 file es i fun s => s.file.fingerprint (key address) = approved
  | .connect address query pinned =>
      Asks operation address query
        ∧ ∀ p, pinned = some p → Held sha256 file es i (Shared.Pins address p)
  | .send address query _ certificate _ =>
      Asks operation address query
        ∧ Held sha256 file es i (Shared.Pins address (fingerprint sha256 certificate))
  | .done result => ∀ address approved, Decided operation result address approved →
      Held sha256 file es i fun s => s.file.fingerprint (key address) = approved

variable {sha256 file}

lemma Presented.concat {es : List Event} {i : ℕ} {address : ServerAddress} {certificate : Bytes}
    (h : Presented sha256 file es i address certificate) (e : Event) :
    Presented sha256 file (es ++ [e]) i address certificate := by
  obtain ⟨u, t, operation, reviewed, ⟨pre, post, hes, hu, ht⟩, hk⟩ := h
  exact ⟨u, t, operation, reviewed, ⟨pre, post ++ [e], by rw [hes]; simp, hu, ht⟩, hk⟩

lemma Reviewed.concat {es : List Event} {i : ℕ} {operation : Operation} {address : ServerAddress}
    {live : String} (h : Reviewed sha256 file es i operation address live) (e : Event) :
    Reviewed sha256 file (es ++ [e]) i operation address live := by
  obtain ⟨input, observed, certificate, hop, hparse, hlive, hcertificate, hpresented⟩ := h
  exact ⟨input, observed, certificate, hop, hparse, hlive, hcertificate, hpresented.concat e⟩

lemma Changes.concat {es : List Event} {i : ℕ} {operation : Operation} {address : ServerAddress}
    {approved : Option String} (h : Changes sha256 file es i operation address approved)
    (e : Event) : Changes sha256 file (es ++ [e]) i operation address approved := by
  cases approved with
  | none => exact h
  | some live => exact Reviewed.concat h e

lemma Job.Traced.concat {es : List Event} {i : ℕ} {operation : Operation} {job : Job}
    (h : job.Traced sha256 file es i operation) (e : Event) :
    job.Traced sha256 file (es ++ [e]) i operation := by
  cases job with
  | approve => exact Reviewed.concat h e
  | _ => exact h

/-- A longer run traces no less. -/
lemma Phase.Traced.concat {es : List Event} {i : ℕ} {operation : Operation} {phase : Phase}
    (h : phase.Traced sha256 file es i operation) (e : Event) :
    phase.Traced sha256 file (es ++ [e]) i operation := by
  cases phase with
  | start => trivial
  | observe address reviewed => cases reviewed <;> exact h
  | lock | read | refresh => exact Job.Traced.concat h e
  | persist => exact Changes.concat h e
  | store => exact ⟨h.1.concat e, h.2.concat e⟩
  | connect => exact ⟨h.1, fun p hp => (h.2 p hp).concat e⟩
  | send => exact ⟨h.1, h.2.concat e⟩
  | done => exact fun address approved hdecided => (h address approved hdecided).concat e

/-- A failed call has decided nothing. -/
lemma traced_failed {es : List Event} {i : ℕ} {operation : Operation} (error : AppError) :
    (Phase.done (.error error)).Traced sha256 file es i operation := by
  rintro address approved ⟨⟨answer, hanswer⟩, -⟩
  cases hanswer

/-- A query decides nothing. -/
lemma traced_asked {es : List Event} {i : ℕ} {operation : Operation} {address : ServerAddress}
    {query : Query} (h : Asks operation address query) (result : Except AppError Answer) :
    (Phase.done result).Traced sha256 file es i operation := by
  obtain ⟨input, rfl, -⟩ := h
  rintro address approved ⟨-, input, -, ⟨observed, hop, -⟩ | ⟨hop, -⟩⟩
  · cases hop
  · cases hop

lemma traced_parsed {es : List Event} {i : ℕ} {operation : Operation} {input : Chars}
    {next : ServerAddress → Phase}
    (h : ∀ address, ServerAddress.parse input = .ok address →
      (next address).Traced sha256 file es i operation) :
    (parsed input next).Traced sha256 file es i operation := by
  unfold parsed
  split
  · exact traced_failed _
  · exact h _ ‹_›

lemma traced_started (es : List Event) (i : ℕ) (operation : Operation) :
    (started operation).Traced sha256 file es i operation := by
  unfold started
  split
  · exact rfl
  · rename_i input
    exact traced_parsed fun address haddress => ⟨input, rfl, haddress⟩
  · rename_i input
    exact traced_parsed fun address _ => ⟨input, rfl⟩
  · rename_i input reviewed
    refine traced_parsed fun address haddress => ?_
    split
    · exact traced_failed _
    · exact ⟨input, rfl, haddress⟩
  · rename_i input printerName
    split
    · rintro address approved ⟨-, input', -, ⟨observed, hop, -⟩ | ⟨hop, -⟩⟩
      · cases hop
      · cases hop
    · rename_i address haddress
      exact ⟨input, rfl, haddress⟩
  · rename_i input query _
    exact traced_parsed fun address haddress => ⟨input, rfl, haddress⟩

lemma traced_observed {es : List Event} {i : ℕ} {operation : Operation} {address : ServerAddress}
    {reviewed : Option String} {certificate : Bytes}
    (h : (Phase.observe address reviewed).Traced sha256 file es i operation)
    (hpresented : Presented sha256 file es i address certificate) :
    (observed address reviewed (fingerprint sha256 certificate)).Traced sha256 file es i
      operation := by
  unfold observed
  split
  · exact h
  · rename_i reviewed
    obtain ⟨input, hop, hparse⟩ := h
    split
    · exact traced_failed _
    · rename_i hlive
      exact ⟨input, reviewed, certificate, hop, hparse, not_not.mp hlive, rfl, hpresented⟩

/-- What a call goes on with after reading the approvals, `latest`. -/
lemma traced_refreshed {es : List Event} {i : ℕ} {operation : Operation} {job : Job}
    {latest : TrustData} (h : job.Traced sha256 file es i operation)
    (hheld : Held sha256 file es i fun s => s.file = latest ∧ s.store = latest) :
    (refreshed latest job).Traced sha256 file es i operation := by
  have hmet : ∀ {P : Shared → Prop}, (∀ s : Shared, s.file = latest → s.store = latest → P s) →
      Held sha256 file es i P := by
    intro P hP
    obtain ⟨pre, u, hpre, hu, hi, hfile, hstore⟩ := hheld
    exact ⟨pre, u, hpre, hu, hi, hP u.shared hfile hstore⟩
  cases job with
  | list =>
      obtain rfl : operation = .list := h
      rintro address approved ⟨-, input, -, ⟨observed, hop, -⟩ | ⟨hop, -⟩⟩
      · cases hop
      · cases hop
  | forget address =>
      rw [refreshed]
      split
      · rename_i habsent
        obtain ⟨input, rfl, hparse⟩ := h
        rintro address' approved ⟨-, input', hparse', ⟨observed, hop, -⟩ | ⟨hop, rfl⟩⟩
        · cases hop
        · obtain rfl : input = input' := Operation.forget.inj hop
          obtain rfl : address = address' := Except.ok.inj (hparse.symm.trans hparse')
          exact hmet fun s hfile _ => by rw [hfile]; exact habsent
      · exact h
  | inspect address live =>
      obtain ⟨input, rfl⟩ := h
      rintro address approved ⟨-, input, -, ⟨observed, hop, -⟩ | ⟨hop, -⟩⟩
      · cases hop
      · cases hop
  | approve address live => exact h
  | query address query =>
      rw [refreshed]
      split
      · exact traced_failed _
      · refine ⟨h, fun p hp => hmet fun s hfile hstore => ⟨?_, ?_⟩⟩
        · rw [hfile, hp]
        · rw [hstore, hp]

lemma traced_connected {es : List Event} {i : ℕ} {operation : Operation} {address : ServerAddress}
    {query : Query} {pinned : Option String} {certificate : Bytes}
    (h : (Phase.connect address query pinned).Traced sha256 file es i operation) :
    (connected address query pinned certificate (fingerprint sha256 certificate)).Traced
      sha256 file es i operation := by
  obtain ⟨hasks, hheld⟩ := h
  unfold connected
  split
  · exact traced_asked hasks _
  · rename_i pinned
    split
    · exact traced_asked hasks _
    · rename_i hlive
      split
      · exact traced_failed _
      · refine ⟨hasks, ?_⟩
        rw [not_not.mp hlive]
        exact hheld pinned rfl

/-- What a call has decided once the file and the memory are written. -/
lemma traced_stored {es : List Event} {i : ℕ} {operation : Operation} {address : ServerAddress}
    {approved : Option String} {updated : TrustData} {result : Except AppError Answer}
    (h : (Phase.store address approved updated).Traced sha256 file es i operation) :
    (Phase.done result).Traced sha256 file es i operation := by
  obtain ⟨hchanges, hheld⟩ := h
  rintro address' approved' ⟨-, input', hparse', hdecided⟩
  cases approved with
  | none =>
      obtain ⟨input, rfl, hparse⟩ := hchanges
      rcases hdecided with ⟨observed, hop, -⟩ | ⟨hop, rfl⟩
      · cases hop
      · obtain rfl : input = input' := Operation.forget.inj hop
        obtain rfl : address = address' := Except.ok.inj (hparse.symm.trans hparse')
        exact hheld
  | some live =>
      obtain ⟨input, observed, certificate, rfl, hparse, rfl, -⟩ := hchanges
      rcases hdecided with ⟨observed', hop, rfl⟩ | ⟨hop, -⟩
      · obtain ⟨rfl, rfl⟩ := Operation.approve.inj hop
        obtain rfl : address = address' := Except.ok.inj (hparse.symm.trans hparse')
        exact hheld
      · cases hop

/-- The variables of every call of a run are traced. -/
theorem traced_of_run {es : List Event} {w : World}
    (h : (connections sha256 file).run es = some w) :
    ∀ (j : ℕ) (m : Call), w.processes[j]? = some m → m.phase.Traced sha256 file es j m.operation := by
  refine StepSystem.run_induction (connections sha256 file)
    (P := fun es w => ∀ (j : ℕ) (m : Call), w.processes[j]? = some m →
      m.phase.Traced sha256 file es j m.operation) ?_ ?_ h
  · intro j m hm
    simp [connections, Processes.system] at hm
  · intro es w e t hw ih hstep
    have hrun : (connections sha256 file).run (es ++ [e]) = some t :=
      (connections sha256 file).run_concat.mpr ⟨w, hw, hstep⟩
    have hconsistent := consistent_of_run hw
    cases e with
    | start k =>
        obtain ⟨operation, rfl⟩ := starts_of_step sha256 hstep rfl
        intro j m hm
        rcases getElem?_after_start hm with hm | ⟨-, rfl⟩
        · exact (ih j m hm).concat _
        · trivial
    | outside x => cases x
    | move i x =>
        obtain ⟨⟨operation, phase⟩, s, phase', hk, hmoved, rfl⟩ := moved_of_step sha256 hstep
        have hlength : i < (w.processes.set i ⟨operation, phase'⟩ ++ []).length := by
          obtain ⟨hi, -⟩ := List.getElem?_eq_some_iff.mp hk
          simpa using hi
        have hnow : ∀ {P : Shared → Prop}, P s → Held sha256 file (es ++ [.move i x]) i P :=
          fun hP => (connections sha256 file).met_now hrun ⟨hlength, hP⟩
        have hphase := (ih i _ hk).concat (.move i x)
        have hknows := hconsistent.knows i _ hk
        intro j m hm
        rcases getElem?_after_move hk hm with ⟨rfl, rfl⟩ | ⟨-, hm⟩ | ⟨-, hm⟩
        · dsimp only at hmoved hphase hknows ⊢
          cases hmoved with
          | starts => exact traced_started _ _ operation
          | unobserved failure => exact traced_failed _
          | observes certificate =>
              exact traced_observed hphase
                ⟨w, _, operation, _, ⟨es, [], rfl, hw, hstep⟩, hk⟩
          | locks => exact hphase
          | unreads failure => exact traced_failed _
          | reads => exact hphase
          | refreshes => exact traced_refreshed hphase (hnow ⟨hknows.2.symm, rfl⟩)
          | unsaves failure => exact traced_failed _
          | saves =>
              refine ⟨hphase, hnow ?_⟩
              rw [hknows.2, TrustData.fingerprint_change_self]
          | stores => exact traced_stored hphase
          | unconnects failure => exact traced_asked hphase.1 _
          | connects certificate => exact traced_connected hphase
          | interrupts sent failure => exact traced_asked hphase.1 _
          | answers response => exact traced_asked hphase.1 _
        · exact (ih j m hm).concat _
        · cases hm

end Pinning

/-! ### What one step of a run does -/

section Claims

variable (sha256 : Bytes → Vector UInt8 32) (file : TrustData)

/-- A step writes on a connection only for a query, and only if the approvals had the
fingerprint that the server presents at a moment since the query began. -/
def SendsPinned (es : List Event) (w : World) (e : Event) (w' : World) : Prop :=
  w'.shared.sent = w.shared.sent ∨ ∃ i x k address query certificate bytes,
    e = .move i x ∧ w.processes[i]? = some k ∧ Asks k.operation address query
      ∧ w'.shared.sent = w.shared.sent ++ [⟨address, certificate, bytes⟩]
      ∧ Held sha256 file es i (Shared.Pins address (fingerprint sha256 certificate))

/-- An entry that a step brings into the file or the memory is an approval of the call
that takes the step. -/
def EntersReviewed (es : List Event) (w : World) (e : Event) (w' : World) : Prop :=
  ∀ entry live,
    (w'.shared.file.fingerprint entry = some live ∧ w.shared.file.fingerprint entry ≠ some live)
      ∨ (w'.shared.store.fingerprint entry = some live
        ∧ w.shared.store.fingerprint entry ≠ some live) →
    ∃ i x k address, e = .move i x ∧ w.processes[i]? = some k ∧ entry = key address
      ∧ Reviewed sha256 file es i k.operation address live

/-- The event is the write of a call's change for the address. -/
def WritesAt (w : World) (e : Event) (entry : String) : Prop :=
  ∃ i k address approved updated, e = .move i .saved ∧ w.processes[i]? = some k
    ∧ k.phase = .persist address approved updated ∧ key address = entry

variable {sha256 file} {es : List Event} {w w' : World} {e : Event}

lemma sendsPinned_of_step (h : (connections sha256 file).run es = some w)
    (hstep : (connections sha256 file).step w e = some w') :
    SendsPinned sha256 file es w e w' := by
  cases e with
  | start k =>
      obtain ⟨operation, rfl⟩ := starts_of_step sha256 hstep rfl
      exact .inl rfl
  | outside x => cases x
  | move i x =>
      obtain ⟨⟨operation, phase⟩, s, phase', hk, hmoved, rfl⟩ := moved_of_step sha256 hstep
      have htraced := traced_of_run h i _ hk
      dsimp only at hmoved htraced
      cases hmoved with
      | interrupts sent failure =>
          exact .inr ⟨i, _, _, _, _, _, _, rfl, hk, htraced.1, rfl, htraced.2⟩
      | answers response =>
          exact .inr ⟨i, _, _, _, _, _, _, rfl, hk, htraced.1, rfl, htraced.2⟩
      | _ => exact .inl rfl

/-- A changed address has the approval of the change, and no other is changed. -/
lemma fingerprint_change (data : TrustData) (address entry : String) (approved : Option String) :
    (data.change address approved).fingerprint entry
      = if entry = address then approved else data.fingerprint entry := by
  split
  · subst entry
    exact TrustData.fingerprint_change_self _ _ _
  · exact TrustData.fingerprint_change_of_ne _ _ ‹_›

/-- An entry that a change brings in is its approval. -/
lemma reviewed_of_change {i : ℕ} {operation : Operation} {address : ServerAddress}
    {approved : Option String} {data : TrustData} {entry live : String}
    (h : Changes sha256 file es i operation address approved)
    (hafter : (data.change (key address) approved).fingerprint entry = some live)
    (hbefore : data.fingerprint entry ≠ some live) :
    entry = key address ∧ Reviewed sha256 file es i operation address live := by
  rw [fingerprint_change] at hafter
  split at hafter
  · subst hafter
    exact ⟨‹_›, h⟩
  · exact absurd hafter hbefore

lemma entersReviewed_of_step (h : (connections sha256 file).run es = some w)
    (hstep : (connections sha256 file).step w e = some w') :
    EntersReviewed sha256 file es w e w' := by
  cases e with
  | start k =>
      obtain ⟨operation, rfl⟩ := starts_of_step sha256 hstep rfl
      rintro entry live (⟨hafter, hbefore⟩ | ⟨hafter, hbefore⟩)
      · exact absurd hafter hbefore
      · exact absurd hafter hbefore
  | outside x => cases x
  | move i x =>
      obtain ⟨⟨operation, phase⟩, s, phase', hk, hmoved, rfl⟩ := moved_of_step sha256 hstep
      have htraced := traced_of_run h i _ hk
      have hknows := (consistent_of_run h).knows i _ hk
      dsimp only at hmoved htraced hknows
      intro entry live hentry
      cases hmoved with
      | refreshes =>
          -- the memory becomes the file, which it was
          obtain ⟨hsame, rfl⟩ := hknows
          rw [hsame] at hentry
          rcases hentry with ⟨hafter, hbefore⟩ | ⟨hafter, hbefore⟩
          · exact absurd hafter hbefore
          · exact absurd hafter hbefore
      | saves =>
          obtain ⟨hsame, rfl⟩ := hknows
          rcases hentry with ⟨hafter, hbefore⟩ | ⟨hafter, hbefore⟩
          · obtain ⟨hentry, hreviewed⟩ := reviewed_of_change htraced hafter hbefore
            exact ⟨i, _, _, _, rfl, hk, hentry, hreviewed⟩
          · exact absurd hafter hbefore
      | stores =>
          obtain ⟨hfile, rfl⟩ := hknows
          rcases hentry with ⟨hafter, hbefore⟩ | ⟨hafter, hbefore⟩
          · exact absurd hafter hbefore
          · obtain ⟨hentry, hreviewed⟩ := reviewed_of_change htraced.1 hafter hbefore
            exact ⟨i, _, _, _, rfl, hk, hentry, hreviewed⟩
      | _ =>
          rcases hentry with ⟨hafter, hbefore⟩ | ⟨hafter, hbefore⟩
          · exact absurd hafter hbefore
          · exact absurd hafter hbefore

/-- A step that writes nothing for an address leaves its approval in the file. -/
lemma file_of_step (h : (connections sha256 file).run es = some w)
    (hstep : (connections sha256 file).step w e = some w') {entry : String}
    (hquiet : ¬ WritesAt w e entry) :
    w'.shared.file.fingerprint entry = w.shared.file.fingerprint entry := by
  cases e with
  | start k =>
      obtain ⟨operation, rfl⟩ := starts_of_step sha256 hstep rfl
      rfl
  | outside x => cases x
  | move i x =>
      obtain ⟨⟨operation, phase⟩, s, phase', hk, hmoved, rfl⟩ := moved_of_step sha256 hstep
      have hknows := (consistent_of_run h).knows i _ hk
      dsimp only at hmoved hknows
      cases hmoved with
      | saves =>
          rename_i address approved updated
          have hne : entry ≠ key address := by
            rintro rfl
            exact hquiet ⟨i, _, address, approved, updated, rfl, hk, rfl, rfl⟩
          dsimp only
          rw [hknows.2, fingerprint_change, if_neg hne]
      | _ => rfl

/-- What the file holds for an address stays until a call writes for that address. -/
theorem file_of_runFrom {post : List Event} {u : World} {entry : String}
    (hu : (connections sha256 file).run es = some u)
    (hw : (connections sha256 file).run (es ++ post) = some w)
    (hquiet : ∀ mid f rest v, post = mid ++ f :: rest →
      (connections sha256 file).run (es ++ mid) = some v → ¬ WritesAt v f entry) :
    w.shared.file.fingerprint entry = u.shared.file.fingerprint entry := by
  induction post using List.reverseRecOn generalizing w with
  | nil =>
      rw [List.append_nil] at hw
      obtain rfl := Option.some.inj (hu.symm.trans hw)
      rfl
  | append_singleton post f ih =>
      rw [← List.append_assoc] at hw
      obtain ⟨v, hv, hstep⟩ := (connections sha256 file).run_concat.mp hw
      calc w.shared.file.fingerprint entry
          = v.shared.file.fingerprint entry :=
            file_of_step hv hstep (hquiet post f [] v rfl hv)
        _ = u.shared.file.fingerprint entry :=
            ih hv fun mid g rest x hpost => hquiet mid g (rest ++ [f]) x (by rw [hpost]; simp)

/-- A write that fails leaves the memory equal to the file. -/
lemma store_of_unsaved (h : (connections sha256 file).run es = some w) {i : ℕ}
    {failure : SaveFailure}
    (hstep : (connections sha256 file).step w (.move i (.unsaved failure)) = some w') :
    w'.shared.store = w'.shared.file := by
  obtain ⟨⟨operation, phase⟩, s, phase', hk, hmoved, rfl⟩ := moved_of_step sha256 hstep
  have hknows := (consistent_of_run h).knows i _ hk
  dsimp only at hmoved hknows
  cases hmoved with
  | unsaves => exact hknows.1

end Claims

/-! ### A run -/

def reviewedCertificate : Bytes := [1, 2, 3]

/-- The hash of the certificate. -/
def reviewedHash (_ : Bytes) : Vector UInt8 32 :=
  #v[3, 144, 88, 198, 242, 192, 203, 73, 44, 83, 59, 10, 77, 20, 239, 119, 204, 15, 120, 171, 204,
    206, 213, 40, 125, 132, 161, 162, 1, 28, 251, 129]

/-- A server is approved, and a listing of its printers is about to be written to it. -/
def approvedThenAsked : List Event :=
  [.start ⟨.approve "printer.local".toList
      "03:90:58:C6:F2:C0:CB:49:2C:53:3B:0A:4D:14:EF:77:CC:0F:78:AB:CC:CE:D5:28:7D:84:A1:A2:01:1C:FB:81",
      .start⟩,
    .move 0 .go, .move 0 (.presented reviewedCertificate), .move 0 .go, .move 0 .go, .move 0 .go,
    .move 0 .saved, .move 0 .go, .start ⟨.query "Printer.local:48631".toList .printers, .start⟩,
    .move 1 .go, .move 1 .go, .move 1 .go, .move 1 .go, .move 1 (.presented reviewedCertificate)]

end ShaPrint.Connections
