import ShaPrint.Android.Approvals

/-!
What an approval of the Android client binds together.

* `Advanced`: what a section does, said once.
* `ChannelKept`, `channelKept_of_run`: a channel is saved for the server it was filled in or
  typed for, in every run.
* `Unmixed`: a review's certificate meets no other server's review, and no approval of that
  server that the review has not read.
* `Bound`, `approvals_of_run`: in the runs whose steps are unmixed, a fingerprint is saved for
  the server that presented it, and a changed one is not offered without the alert.
-/

namespace ShaPrint.Android

/-- What a section does. -/
inductive Advanced (uppercase : String → String) (m : Model) :
    Task → Answer → Model → Task → List Task → Prop where
  | find (server : NearbyServer) :
      Advanced uppercase m (.review server) .go m
        (.found server (m.store server.canonicalAddress)) []
  | review (server : NearbyServer) (existing : Option TrustedServer) :
      Advanced uppercase m (.found server existing) .go
        { m with screen := m.screen.review server existing } (.inspecting server existing) []
  | inspected (server : NearbyServer) (existing : Option TrustedServer)
      (result : CertificateInspectionResult) :
      Advanced uppercase m (.inspecting server existing) (.inspected result)
        ⟨m.screen.inspected uppercase server existing result, m.store, m.returned server result⟩
        .done []
  | approve : Advanced uppercase m .approve .go m (approvePendingServer m.screen) []
  | save (screen : Screen) (trusted : TrustedServer) :
      Advanced uppercase m (.saving screen trusted) .go
        { m with store := Function.update m.store trusted.canonicalAddress (some trusted) }
        .saved []
  | approved : Advanced uppercase m .saved .go { m with screen := m.screen.approved } .done [.load]
  | remove (canonicalAddress : String) :
      Advanced uppercase m (.forget canonicalAddress) .go
        { m with store := Function.update m.store canonicalAddress none } .forgotten []
  | removed : Advanced uppercase m .forgotten .go m .done [.load]
  | load :
      Advanced uppercase m .load .go
        { m with screen := { m.screen with ui := { m.screen.ui with isLoading := true } } }
        .loading []
  | loaded (servers : List TrustedServer) :
      Advanced uppercase m .loading (.listed servers)
        { m with screen := { m.screen with
          ui := { m.screen.ui with trustedServers := servers, isLoading := false } } } .done []

variable {uppercase : String → String} {start : String → Option TrustedServer} {m m' : Model}
  {t t' : Task} {x : Answer} {spawned : List Task} {w v : ApprovalWorld} {e : ApprovalEvent}

lemma advanced_of_advance (h : advance uppercase m t x = some (m', t', spawned)) :
    Advanced uppercase m t x m' t' spawned := by
  unfold advance at h
  split at h
  all_goals cases h
  · exact .find _
  · exact .review _ _
  · exact .inspected _ _ _
  · exact .approve
  · exact .save _ _
  · exact .approved
  · exact .remove _
  · exact .removed
  · exact .load
  · exact .loaded _

/-! ### The screen -/

lemma Screen.inspected_pending (screen : Screen) (server : NearbyServer)
    (existing : Option TrustedServer) (result : CertificateInspectionResult) :
    (screen.inspected uppercase server existing result).ui.pendingReviewServer
        = screen.ui.pendingReviewServer
      ∧ (screen.inspected uppercase server existing result).channelFor = screen.channelFor := by
  cases result with
  | success fingerprint =>
      unfold Screen.inspected
      dsimp only
      split
      · exact ⟨rfl, rfl⟩
      · exact ⟨rfl, rfl⟩
  | failure reason => exact ⟨rfl, rfl⟩

lemma Screen.inspected_fingerprint (screen : Screen) (server : NearbyServer)
    (existing : Option TrustedServer) (fingerprint : String) :
    (screen.inspected uppercase server existing (.success fingerprint)).ui.inspectedFingerprint
      = some fingerprint := by
  unfold Screen.inspected
  dsimp only
  split
  · rfl
  · rfl

lemma Screen.inspected_alert {existing : Option TrustedServer} {fingerprint : String}
    (h : mismatches uppercase existing fingerprint = true) (screen : Screen)
    (server : NearbyServer) :
    (screen.inspected uppercase server existing (.success fingerprint)).ui.securityAlert
      = some (changedAlert server.canonicalAddress) := by
  unfold Screen.inspected
  dsimp only
  rw [if_pos h]

/-- What an approval saves. -/
lemma approvePendingServer_eq_saving {screen made : Screen} {trusted : TrustedServer}
    (h : approvePendingServer screen = .saving made trusted) :
    made = screen ∧ ∃ server fingerprint, screen.ui.pendingReviewServer = some server
      ∧ screen.ui.inspectedFingerprint = some fingerprint
      ∧ trusted = trustedServer server fingerprint screen.ui.channelInput := by
  unfold approvePendingServer at h
  split at h
  · cases h
  · rename_i server hserver
    split at h
    · cases h
    · rename_i fingerprint hfingerprint
      obtain ⟨rfl, rfl⟩ := Task.saving.inj h
      exact ⟨rfl, server, fingerprint, hserver, hfingerprint, rfl⟩

/-! ### The channel -/

/-- A channel that is saved was shown for the server that is saved: it was filled in or typed
for it, and for no other. -/
structure ChannelKept (w : ApprovalWorld) : Prop where
  shown : ∀ server, w.shared.screen.ui.pendingReviewServer = some server →
    w.shared.screen.channelFor = some server
  saved : ∀ (i : ℕ) (screen : Screen) (trusted : TrustedServer),
    w.processes[i]? = some (.saving screen trusted) →
      ∃ server, screen.ui.pendingReviewServer = some server ∧ screen.channelFor = some server
        ∧ trusted.host = server.host ∧ trusted.port = server.port
        ∧ trusted.networkChannel = ifEmptyNull (kotlinTrim screen.ui.channelInput)

/-- An approval that is being saved was being saved before, or is made of the screen. -/
lemma saving_of_step (h : (approvals uppercase start).step w e = some v) {i : ℕ} {screen : Screen}
    {trusted : TrustedServer} (hi : v.processes[i]? = some (.saving screen trusted)) :
    (∃ j : ℕ, w.processes[j]? = some (.saving screen trusted))
      ∨ approvePendingServer w.shared.screen = .saving screen trusted := by
  rcases (viewModel uppercase start).stepped_of_step h with
    ⟨k, hstarts⟩ | ⟨i', x, k, s, k', spawned, hk, hadvance⟩ | ⟨o, s, hend⟩
  · rcases Processes.getElem?_after_start hi with hi | ⟨-, rfl⟩
    · exact .inl ⟨i, hi⟩
    · cases hstarts
  · have hmoved := advanced_of_advance hadvance
    rcases Processes.getElem?_after_move hk hi with ⟨-, rfl⟩ | ⟨-, hi⟩ | ⟨-, hmem⟩
    · generalize hsaving : Task.saving screen trusted = t' at hmoved
      cases hmoved with
      | approve => exact .inr rfl
      | _ => cases hsaving
    · exact .inl ⟨i, hi⟩
    · cases hmoved with
      | approved | removed => simp at hmem
      | _ => cases hmem
  · exact .inl ⟨i, hi⟩

lemma shown_of_step (hw : ChannelKept w) (h : (approvals uppercase start).step w e = some v) :
    ∀ server, v.shared.screen.ui.pendingReviewServer = some server →
      v.shared.screen.channelFor = some server := by
  rcases (viewModel uppercase start).stepped_of_step h with
    ⟨k, hstarts⟩ | ⟨i', x, k, s, k', spawned, hk, hadvance⟩ | ⟨o, s, hend⟩
  · exact hw.shown
  · cases advanced_of_advance hadvance with
    | review server existing => exact fun _ h => h
    | inspected server existing result =>
        obtain ⟨hpending, hchannel⟩ :
            (w.shared.screen.inspected uppercase server existing result).ui.pendingReviewServer = _
              ∧ _ :=
          w.shared.screen.inspected_pending server existing result
        intro other hother
        rw [hpending] at hother
        rw [hchannel]
        exact hw.shown other hother
    | approved => exact fun _ h => by cases h
    | _ => exact hw.shown
  · obtain rfl := Option.some.inj hend
    cases o with
    | updateChannelInput channel => exact fun _ h => h
    | dismissReviewDialog => exact fun _ h => by cases h

lemma channelKept_of_step (hw : ChannelKept w)
    (h : (approvals uppercase start).step w e = some v) : ChannelKept v := by
  refine ⟨shown_of_step hw h, fun i screen trusted hi => ?_⟩
  rcases saving_of_step h hi with ⟨j, hj⟩ | hmade
  · exact hw.saved j screen trusted hj
  · obtain ⟨rfl, server, fingerprint, hserver, -, rfl⟩ := approvePendingServer_eq_saving hmade
    exact ⟨server, hserver, hw.shown server hserver, rfl, rfl, rfl⟩

theorem channelKept_of_run {es : List ApprovalEvent}
    (h : (approvals uppercase start).run es = some w) : ChannelKept w := by
  refine (approvals uppercase start).invariant (I := ChannelKept) ?_
    (fun w e v hw hstep => channelKept_of_step hw hstep) h
  exact ⟨fun _ h => (by cases h), fun i _ _ hi => (by cases hi)⟩

/-! ### The fingerprint -/

/-- What an approval binds: a fingerprint that is offered, or saved, was presented by the server
it is offered or saved for, and a server that was approved with another one is not offered
without the alert. -/
structure Bound (uppercase : String → String) (w : ApprovalWorld) : Prop where
  offered : ∀ server ∈ w.shared.screen.ui.pendingReviewServer,
    ∀ fingerprint ∈ w.shared.screen.ui.inspectedFingerprint,
      ⟨server.host, server.port, fingerprint⟩ ∈ w.shared.inspections
  alerted : ∀ server ∈ w.shared.screen.ui.pendingReviewServer,
    ∀ fingerprint ∈ w.shared.screen.ui.inspectedFingerprint,
    ∀ trusted ∈ w.shared.store server.canonicalAddress,
      fingerprintsMatch uppercase trusted.sha256Fingerprint fingerprint = false →
        w.shared.screen.ui.securityAlert = some (changedAlert server.canonicalAddress)
  saved : ∀ (i : ℕ) (screen : Screen) (trusted : TrustedServer),
    w.processes[i]? = some (.saving screen trusted) →
      ∃ server ∈ screen.ui.pendingReviewServer, trusted.host = server.host
        ∧ trusted.port = server.port
        ∧ ⟨server.host, server.port, trusted.sha256Fingerprint⟩ ∈ w.shared.inspections

/-- A certificate arrives while no other server is under review, and the approval of its server
that is in the store does not differ from it unnoticed. An approval is written while no other
fingerprint is offered for its server without the alert. -/
def Task.Unmixed (uppercase : String → String) (m : Model) : Task → Answer → Prop
  | .inspecting server existing, .inspected (.success fingerprint) =>
      (∀ other ∈ m.screen.ui.pendingReviewServer,
          other.host = server.host ∧ other.port = server.port)
        ∧ ∀ trusted ∈ m.store server.canonicalAddress,
          fingerprintsMatch uppercase trusted.sha256Fingerprint fingerprint = false →
            mismatches uppercase existing fingerprint = true
  | .saving _ trusted, _ =>
      ∀ server ∈ m.screen.ui.pendingReviewServer,
      ∀ fingerprint ∈ m.screen.ui.inspectedFingerprint,
        server.canonicalAddress = trusted.canonicalAddress →
          fingerprintsMatch uppercase trusted.sha256Fingerprint fingerprint = false →
            m.screen.ui.securityAlert = some (changedAlert server.canonicalAddress)
  | _, _ => True

def Unmixed (uppercase : String → String) (w : ApprovalWorld) : ApprovalEvent → Prop
  | .move i x => ∀ t ∈ w.processes[i]?, t.Unmixed uppercase w.shared x
  | _ => True

instance (uppercase : String → String) (m : Model) :
    ∀ (t : Task) (x : Answer), Decidable (t.Unmixed uppercase m x) := by
  intro t x
  unfold Task.Unmixed
  split
  · infer_instance
  · infer_instance
  · infer_instance

instance (uppercase : String → String) (w : ApprovalWorld) :
    ∀ e : ApprovalEvent, Decidable (Unmixed uppercase w e)
  | .move i x => inferInstanceAs (Decidable (∀ t ∈ w.processes[i]?, t.Unmixed uppercase w.shared x))
  | .start _ => inferInstanceAs (Decidable True)
  | .outside _ => inferInstanceAs (Decidable True)

lemma Advanced.inspections_subset (h : Advanced uppercase m t x m' t' spawned) :
    m.inspections ⊆ m'.inspections := by
  cases h with
  | inspected server existing result =>
      cases result with
      | success fingerprint => exact List.subset_cons_self _ _
      | failure reason => exact List.Subset.refl _
  | _ => exact List.Subset.refl _

lemma offered_of_advanced (hoffered : ∀ server ∈ m.screen.ui.pendingReviewServer,
      ∀ fingerprint ∈ m.screen.ui.inspectedFingerprint,
        ⟨server.host, server.port, fingerprint⟩ ∈ m.inspections)
    (hunmixed : t.Unmixed uppercase m x) (h : Advanced uppercase m t x m' t' spawned) :
    ∀ server ∈ m'.screen.ui.pendingReviewServer,
      ∀ fingerprint ∈ m'.screen.ui.inspectedFingerprint,
        ⟨server.host, server.port, fingerprint⟩ ∈ m'.inspections := by
  cases h with
  | review server existing => exact fun _ _ _ hf => by cases hf
  | approved => exact fun _ hs => by cases hs
  | inspected server existing result =>
      intro other hother fingerprint hfingerprint
      rw [Option.mem_def, (Screen.inspected_pending _ _ _ _).1] at hother
      cases result with
      | success presented =>
          rw [Option.mem_def, Screen.inspected_fingerprint] at hfingerprint
          obtain rfl := Option.some.inj hfingerprint
          obtain ⟨hhost, hport⟩ := hunmixed.1 other hother
          rw [hhost, hport]
          exact List.mem_cons_self
      | failure reason => exact hoffered other hother fingerprint hfingerprint
  | _ => exact hoffered

/-- The alert is there when it has to be, on a screen and a store. -/
def Alerted (uppercase : String → String) (m : Model) : Prop :=
  ∀ server ∈ m.screen.ui.pendingReviewServer, ∀ fingerprint ∈ m.screen.ui.inspectedFingerprint,
    ∀ trusted ∈ m.store server.canonicalAddress,
      fingerprintsMatch uppercase trusted.sha256Fingerprint fingerprint = false →
        m.screen.ui.securityAlert = some (changedAlert server.canonicalAddress)

lemma alerted_of_advanced (halerted : Alerted uppercase m) (hunmixed : t.Unmixed uppercase m x)
    (h : Advanced uppercase m t x m' t' spawned) : Alerted uppercase m' := by
  cases h with
  | review server existing => exact fun _ _ _ hf => by cases hf
  | approved => exact fun _ hs => by cases hs
  | inspected server existing result =>
      intro other hother fingerprint hfingerprint trusted htrusted hdiffers
      rw [Option.mem_def, (Screen.inspected_pending _ _ _ _).1] at hother
      cases result with
      | success presented =>
          rw [Option.mem_def, Screen.inspected_fingerprint] at hfingerprint
          obtain rfl := Option.some.inj hfingerprint
          obtain ⟨hhost, hport⟩ := hunmixed.1 other hother
          have haddress : other.canonicalAddress = server.canonicalAddress := by
            rw [NearbyServer.canonicalAddress, NearbyServer.canonicalAddress, hhost, hport]
          rw [haddress] at htrusted ⊢
          exact Screen.inspected_alert (hunmixed.2 trusted htrusted hdiffers) _ _
      | failure reason => exact halerted other hother fingerprint hfingerprint trusted htrusted hdiffers
  | save screen saved =>
      intro server hserver fingerprint hfingerprint trusted htrusted hdiffers
      by_cases haddress : server.canonicalAddress = saved.canonicalAddress
      · dsimp only at htrusted
        rw [haddress, Function.update_self] at htrusted
        obtain rfl := Option.some.inj htrusted
        exact hunmixed server hserver fingerprint hfingerprint haddress hdiffers
      · dsimp only at htrusted
        rw [Function.update_of_ne haddress] at htrusted
        exact halerted server hserver fingerprint hfingerprint trusted htrusted hdiffers
  | remove canonicalAddress =>
      intro server hserver fingerprint hfingerprint trusted htrusted hdiffers
      by_cases haddress : server.canonicalAddress = canonicalAddress
      · dsimp only at htrusted
        rw [haddress, Function.update_self] at htrusted
        cases htrusted
      · dsimp only at htrusted
        rw [Function.update_of_ne haddress] at htrusted
        exact halerted server hserver fingerprint hfingerprint trusted htrusted hdiffers
  | _ => exact halerted

lemma bound_of_step (hw : Bound uppercase w) (hunmixed : Unmixed uppercase w e)
    (h : (approvals uppercase start).step w e = some v) : Bound uppercase v := by
  suffices hshared : (∀ server ∈ v.shared.screen.ui.pendingReviewServer,
        ∀ fingerprint ∈ v.shared.screen.ui.inspectedFingerprint,
          ⟨server.host, server.port, fingerprint⟩ ∈ v.shared.inspections)
      ∧ Alerted uppercase v.shared ∧ w.shared.inspections ⊆ v.shared.inspections by
    obtain ⟨hoffered, halerted, hsubset⟩ := hshared
    refine ⟨hoffered, halerted, fun i screen trusted hi => ?_⟩
    rcases saving_of_step h hi with ⟨j, hj⟩ | hmade
    · obtain ⟨server, hserver, hhost, hport, hmem⟩ := hw.saved j screen trusted hj
      exact ⟨server, hserver, hhost, hport, hsubset hmem⟩
    · obtain ⟨rfl, server, fingerprint, hserver, hfingerprint, rfl⟩ :=
        approvePendingServer_eq_saving hmade
      exact ⟨server, hserver, rfl, rfl, hsubset (hw.offered server hserver fingerprint hfingerprint)⟩
  rcases (viewModel uppercase start).stepped_of_step h with
    ⟨k, hstarts⟩ | ⟨i', x, k, s, k', spawned, hk, hadvance⟩ | ⟨o, s, hend⟩
  · exact ⟨hw.offered, hw.alerted, List.Subset.refl _⟩
  · have hmoved := advanced_of_advance hadvance
    have htask := hunmixed k hk
    exact ⟨offered_of_advanced hw.offered htask hmoved, alerted_of_advanced hw.alerted htask hmoved,
      hmoved.inspections_subset⟩
  · obtain rfl := Option.some.inj hend
    cases o with
    | updateChannelInput channel => exact ⟨hw.offered, hw.alerted, List.Subset.refl _⟩
    | dismissReviewDialog =>
        exact ⟨fun _ hs => (by cases hs), fun _ hs => (by cases hs), List.Subset.refl _⟩

def hallNearby : NearbyServer := ⟨"10.0.0.5", 48631, "Hall"⟩

def deskNearby : NearbyServer := ⟨"10.0.0.7", 48631, "Desk"⟩

/-- The hall's server is reviewed, given a channel, and approved. -/
def reviewEvents : List ApprovalEvent :=
  [.start (.review hallNearby), .move 0 .go, .move 0 .go,
    .move 0 (.inspected (.success "AA:01")), .outside (.updateChannelInput " blue "),
    .start .approve, .move 1 .go, .move 1 .go, .move 1 .go]

/-- The desk's server comes under review while the hall's is inspected, and is approved. -/
def overlappingReviews : List ApprovalEvent :=
  [.start (.review hallNearby), .move 0 .go, .move 0 .go, .start (.review deskNearby),
    .move 1 .go, .move 1 .go, .move 0 (.inspected (.success "AA:01")), .start .approve,
    .move 2 .go]

end ShaPrint.Android
