import ShaPrint.Legacy.Import

/-!
The user's own channel beside any number of imports, over every interleaving and every start.

* `Locked`: one configuration at a time.
* `Durable`: a channel that was stored is found again, in the memory or on the disk.
* `Backed`: whatever says that the previous channel was imported is right.
* `First`: a previous channel that was stored is the first of all, where no import takes the
  lock of an app that has a channel by then.
* `preserved_of_run`: what such a run promises (`interrupted_import_replaces`).
-/

namespace ShaPrint.Legacy

open Channel Processes

/-! ### What is promised -/

/-- Some previous channel was stored. -/
def HasLegacy (stores : List (Origin × String)) : Prop := ∃ t ∈ stores, t.1 = .legacy

/-- What a run promises: a channel of the user is not replaced, a previous one is stored once at
most, what a call reports was stored, and an inspection changes nothing. -/
structure Preserved (X : Services) (setup : Setup) (es : List Event) (w : World) : Prop where
  userKept : ∀ pre channel post, w.shared.stores = pre ++ (.legacy, channel) :: post →
    ∀ t ∈ pre, t.1 ≠ .user
  once : w.shared.stores.countP (fun t => t.1 = .legacy) ≤ 1
  reported : ∀ (i : ℕ) (c : Call) report, w.processes[i]? = some c →
    c.phase = .done (.ok (.report report)) → report.channel = .imported →
      HasLegacy w.shared.stores
  inspected : ∀ u i x v (c : Call), (imports X setup).Took es u (.move i x) v →
    u.processes[i]? = some c → c.operation = .inspect → v.shared = u.shared

/-- An import that awaits the lock, having seen no channel. -/
def Phase.awaitsImport : Phase → Bool
  | .lock (.legacy _) _ => true
  | _ => false

/-- An import that takes the lock finds no channel still. -/
def Apart (w : World) : Event → Prop
  | .move i _ => ∀ c ∈ w.processes[i]?, c.phase.awaitsImport = true →
      w.shared.memory.isConfigured = false
  | _ => True

instance (w : World) : ∀ e, Decidable (Apart w e)
  | .start _ => inferInstanceAs (Decidable True)
  | .outside _ => inferInstanceAs (Decidable True)
  | .move i _ => inferInstanceAs (Decidable (∀ c ∈ w.processes[i]?, c.phase.awaitsImport = true →
      w.shared.memory.isConfigured = false))

/-- A record is read as it was written. -/
def RecordsRead (X : Services) : Prop :=
  ∀ verifier (secret : Option Bytes) bytes,
    X.toVec (recordOf verifier (secret.map Hex.encode)) = some bytes →
      X.fromSlice bytes = some (recordOf verifier (secret.map Hex.encode))

/-! ### One configuration at a time -/

/-- A call of this start that holds the lock. -/
def Holder (life : ℕ) (c : Call) : Prop := c.life = life ∧ c.phase.holds = true

structure Locked (w : World) : Prop where
  one : AtMostOne w.processes (Holder w.shared.life)
  locked : ∀ (i : ℕ) (c : Call), w.processes[i]? = some c → Holder w.shared.life c →
    w.shared.locked = true
  later : ∀ (i : ℕ) (c : Call), w.processes[i]? = some c → w.shared.life < c.life →
    c.phase = .start

variable {X : Services} {setup : Setup} {s s' : App} {c c' : Call} {x : Input} {phase : Phase}
  {w v : World} {e : Event}

lemma start_of_starts (h : (calls X setup).starts c = true) : c.phase = .start := by
  cases hphase : c.phase with
  | start => rfl
  | _ => simp [calls, hphase] at h

lemma moved_of_advance {spawned : List Call}
    (h : (calls X setup).advance s c x = some (s', c', spawned)) :
    ∃ phase, c.life = s.life ∧ Moved X setup s c s' phase ∧ c' = { c with phase := phase }
      ∧ spawned = [] := by
  simp only [calls] at h
  split_ifs at h with hlife
  obtain ⟨⟨t, phase⟩, hresume, heq⟩ := Option.map_eq_some_iff.mp h
  obtain ⟨rfl, hrest⟩ := Prod.mk.inj heq
  obtain ⟨rfl, rfl⟩ := Prod.mk.inj hrest
  exact ⟨phase, hlife, moved_of_resume hresume, rfl, rfl⟩

/-- What happens beside the calls. -/
lemma outside_cases {o : Outside} (h : (calls X setup).outside s o = some s') :
    (∃ memory, openWithCredentialFile X setup s.disk = .ok memory
      ∧ s' = { s with memory := memory, locked := false, last := none, life := s.life + 1 })
    ∨ ∃ marker, marker ≠ .record true ∧ s' = { s with marker := marker } := by
  cases o with
  | restart =>
      simp only [calls, outside] at h
      split at h
      · rename_i memory hopen
        exact .inl ⟨memory, hopen, (Option.some.inj h).symm⟩
      · cases h
  | damage removed =>
      refine .inr ⟨_, ?_, (Option.some.inj h).symm⟩
      cases removed <;> simp

lemma Moved.life (h : Moved X setup s c s' phase) : s'.life = s.life := by cases h <;> rfl

/-- A phase that holds the lock is entered by the lock or from another one. -/
lemma Moved.holds (h : Moved X setup s c s' phase) (hholds : phase.holds = true) :
    c.phase.holds = true ∨ s.locked = false := by
  cases h with
  | look _ hwas hfree => simp [hfree] at hholds
  | publish => cases hholds
  | lock purpose channel hphase hfree => exact .inr hfree
  | stored purpose channel writes salt configured disk hphase => exact .inl (by rw [hphase]; rfl)
  | unstored => cases hholds
  | install purpose configured _ hphase hfree => simp [hfree] at hholds
  | wrote => cases hholds

/-- The lock is given up by its holder only. -/
lemma Moved.locked (h : Moved X setup s c s' phase) (hlocked : s.locked = true) :
    s'.locked = true ∨ c.phase.holds = true := by
  cases h with
  | unstored purpose channel writes salt e disk hphase => exact .inr (by rw [hphase]; rfl)
  | install purpose configured _ hphase => exact .inr (by rw [hphase]; rfl)
  | lock => exact .inl rfl
  | _ => exact .inl hlocked

/-- The lock is held where a section leaves its call in it. -/
lemma Moved.holder_locked (h : Moved X setup s c s' phase) (hholds : phase.holds = true)
    (hheld : c.phase.holds = true → s.locked = true) : s'.locked = true := by
  cases h with
  | look _ hwas hfree => simp [hfree] at hholds
  | publish => cases hholds
  | lock => rfl
  | stored purpose channel writes salt configured disk hphase => exact hheld (by rw [hphase]; rfl)
  | unstored => cases hholds
  | install purpose configured _ hphase hfree => simp [hfree] at hholds
  | wrote => cases hholds

theorem locked_of_step (hw : Locked w) (h : (calls X setup).step w e = some v) : Locked v := by
  rcases stepped_of_step _ h with
    ⟨k, hstarts⟩ | ⟨i, x, k, s, k', spawned, hk, hadvance⟩ | ⟨o, s, hend⟩
  · have hstart := start_of_starts hstarts
    have hnot : ∀ life, ¬Holder life k := by
      rintro life ⟨-, hholds⟩
      rw [hstart] at hholds
      cases hholds
    exact ⟨atMostOne_after_start hw.one (hnot _),
      forall_after_start hw.locked fun hholder => absurd hholder (hnot _),
      forall_after_start hw.later fun _ => hstart⟩
  · obtain ⟨phase, hlife, hmoved, rfl, rfl⟩ := moved_of_advance hadvance
    have hsame := hmoved.life
    refine ⟨?_, ?_, ?_⟩
    · show AtMostOne _ (Holder s.life)
      rw [hsame]
      refine atMostOne_after_move hk hw.one ?_ (by simp)
      rintro ⟨-, hholds⟩
      rcases hmoved.holds hholds with hwas | hfree
      · exact .inl ⟨hlife, hwas⟩
      · exact .inr fun j m _ hm hholder => by simp [hw.locked j m hm hholder] at hfree
    · show ∀ (j : ℕ) (m : Call), _ → Holder s.life m → s.locked = true
      rw [hsame]
      refine forall_after_move hk (fun j m hne hm hholder => ?_) (fun hholder => ?_) (by simp)
      · rcases hmoved.locked (hw.locked j m hm hholder) with hlocked | hholds
        · exact hlocked
        · exact absurd (hw.one j i m k hm hk hholder ⟨hlife, hholds⟩) hne
      · exact hmoved.holder_locked hholder.2 fun hholds => hw.locked i k hk ⟨hlife, hholds⟩
    · show ∀ (j : ℕ) (m : Call), _ → s.life < m.life → m.phase = .start
      rw [hsame]
      refine forall_after_move hk (fun j m _ hm => hw.later j m hm) (fun hlt => ?_) (by simp)
      exact absurd hlife hlt.ne'
  · rcases outside_cases hend with ⟨memory, -, rfl⟩ | ⟨marker, -, rfl⟩
    · -- nobody has moved in a start that has just begun
      have hnone : ∀ (i : ℕ) (c : Call), w.processes[i]? = some c →
          ¬Holder (w.shared.life + 1) c := by
        rintro i c hc ⟨hlife, hholds⟩
        rw [hw.later i c hc (by omega)] at hholds
        cases hholds
      refine ⟨?_, ?_, ?_⟩
      · exact fun i j c m hc hm hholder => absurd hholder (hnone i c hc)
      · exact fun i c hc hholder => absurd hholder (hnone i c hc)
      · exact fun i c hc hlt => hw.later i c hc (Nat.lt_of_succ_lt hlt)
    · exact ⟨hw.one, hw.locked, hw.later⟩

/-! ### A channel that was stored is found again -/

/-- The verifier file holds a record. -/
def Kept (X : Services) (disk : Disk) : Prop :=
  ∃ bytes verifier, ∃ secret : Option Bytes, disk.verifierFile = some bytes
    ∧ X.fromSlice bytes = some (recordOf verifier (secret.map Hex.encode))

lemma keepCredential_verifierFile {writes : Writes} {disk kept : Disk} {channel : String}
    (h : keepCredential setup writes disk channel = .ok kept) :
    kept.verifierFile = disk.verifierFile := by
  rw [keepCredential] at h
  by_cases hnames : setup.namesCredentialFile = true
  · rw [if_pos hnames] at h
    cases hpersist : persistMachineCredential writes.credential disk channel with
    | ok d =>
        simp only [hpersist, Except.ok.injEq] at h
        subst h
        unfold persistMachineCredential at hpersist
        split_ifs at hpersist
        obtain ⟨-, -, rfl⟩ := except_map_eq_ok.mp hpersist
        rfl
    | error e =>
        simp only [hpersist] at h
        split_ifs at h
        rw [← Except.ok.inj h]
  · rw [if_neg hnames] at h
    rw [← Except.ok.inj h]

/-- A configuration that succeeds has written its verifier, and one that fails has not. -/
lemma configure_cases {writes : Writes} {salt : Option Salt} {disk disk' : Disk} {channel : String}
    {result : Except AppError NetworkChannel}
    (h : configure X setup writes salt disk channel = (result, disk')) :
    (∃ verifier, ∃ secret : Option Bytes, ∃ bytes,
        X.toVec (recordOf verifier (secret.map Hex.encode)) = some bytes
          ∧ disk'.verifierFile = some bytes ∧ result = .ok ⟨some verifier, some channel⟩)
      ∨ disk'.verifierFile = disk.verifierFile ∧ ∃ e, result = .error e := by
  unfold configure at h
  split_ifs at h with hempty
  · obtain ⟨rfl, rfl⟩ := Prod.mk.inj h
    exact .inr ⟨rfl, _, rfl⟩
  cases salt with
  | none =>
      obtain ⟨rfl, rfl⟩ := Prod.mk.inj h
      exact .inr ⟨rfl, _, rfl⟩
  | some s =>
      cases hsecret : protectSecret X setup.platform channel with
      | error e =>
          simp only [hsecret, Prod.mk.injEq] at h
          obtain ⟨rfl, rfl⟩ := h
          exact .inr ⟨rfl, e, rfl⟩
      | ok secret =>
          obtain rfl := protectSecret_eq_ok hsecret
          cases hkept : keepCredential setup writes disk channel with
          | error e =>
              simp only [hsecret, hkept, Prod.mk.injEq] at h
              obtain ⟨rfl, rfl⟩ := h
              exact .inr ⟨rfl, e, rfl⟩
          | ok kept =>
              cases hpersist : persist X writes.verifier kept ⟨s, channelDigest X s channel⟩
                  ((protectedCopy X setup.platform channel).map Hex.encode) with
              | error e =>
                  simp only [hsecret, hkept, hpersist, Prod.mk.injEq] at h
                  obtain ⟨rfl, rfl⟩ := h
                  exact .inr ⟨keepCredential_verifierFile hkept, e, rfl⟩
              | ok stored =>
                  simp only [hsecret, hkept, hpersist, Prod.mk.injEq] at h
                  obtain ⟨rfl, rfl⟩ := h
                  unfold persist at hpersist
                  split at hpersist
                  · cases hpersist
                  · rename_i bytes hwrite
                    obtain ⟨-, -, rfl⟩ := except_map_eq_ok.mp hpersist
                    exact .inl ⟨_, _, bytes, hwrite, rfl, rfl⟩

/-- A record is found by the next start. -/
lemma isConfigured_of_open {disk : Disk} {memory : NetworkChannel} (hkept : Kept X disk)
    (h : openWithCredentialFile X setup disk = .ok memory) : memory.isConfigured = true := by
  obtain ⟨bytes, verifier, secret, hfile, hread⟩ := hkept
  obtain ⟨⟨found, copy⟩, hrecord, hopen⟩ := except_do_eq_ok.mp h
  have hfound : found = some verifier := by
    simp only [hfile, readVerifierFile, hread, recordVerifier_recordOf, except_ok_do] at hrecord
    split at hrecord
    · exact (congrArg Prod.fst (Except.ok.inj hrecord)).symm
    · obtain ⟨secret, -, hpair⟩ := except_do_eq_ok.mp hrecord
      exact (congrArg Prod.fst (Except.ok.inj hpair)).symm
  subst hfound
  cases copy with
  | some copy =>
      rw [← Except.ok.inj hopen]
      rfl
  | none =>
      obtain ⟨secret, -, hchannel⟩ := except_do_eq_ok.mp hopen
      rw [← Except.ok.inj hchannel]
      rfl

/-- A call of this start between its files and the memory. -/
def Installer (life : ℕ) (c : Call) : Prop := c.life = life ∧ c.phase.installs = true

/-- Once a channel is stored, the disk has one, and the memory has one or is about to. -/
structure Durable (X : Services) (w : World) : Prop where
  disk : w.shared.stores ≠ [] → Kept X w.shared.disk
  memory : w.shared.stores ≠ [] → w.shared.memory.isConfigured = true
    ∨ Processes.Some w.processes (Installer w.shared.life)
  installs : ∀ (i : ℕ) (c : Call), w.processes[i]? = some c → ∀ purpose configured,
    c.phase = .install purpose configured → configured.isConfigured = true

/-- What a section that installs nothing does to the channel. -/
lemma Moved.durable (hX : RecordsRead X) (h : Moved X setup s c s' phase) :
    (s'.stores = s.stores ∧ s'.disk.verifierFile = s.disk.verifierFile ∧ s'.memory = s.memory
        ∧ c.phase.installs = false ∧ phase.installs = false)
      ∨ (Kept X s'.disk ∧ s'.memory = s.memory ∧ ∃ purpose verifier secret,
          phase = .install purpose ⟨some verifier, secret⟩)
      ∨ (s'.stores = s.stores ∧ s'.disk = s.disk ∧ phase.installs = false
          ∧ ∃ purpose, c.phase = .install purpose s'.memory) := by
  cases h with
  | look _ hwas hfree =>
      refine .inl ⟨rfl, rfl, rfl, ?_, ?_⟩
      · cases hphase : c.phase <;> simp_all [Phase.storing, Phase.installs]
      · cases phase <;> simp_all [Phase.holds, Phase.installs]
  | publish report hwas =>
      refine .inl ⟨rfl, rfl, rfl, ?_, rfl⟩
      cases hphase : c.phase <;> simp_all [Phase.storing, Phase.installs]
  | lock purpose channel hphase => exact .inl ⟨rfl, rfl, rfl, by rw [hphase]; rfl, rfl⟩
  | stored purpose channel writes salt configured disk hphase hrun =>
      rcases configure_cases hrun with
        ⟨verifier, secret, bytes, hwrite, hfile, hresult⟩ | ⟨-, e, he⟩
      · obtain rfl := Except.ok.inj hresult
        exact .inr (.inl ⟨⟨bytes, verifier, secret, hfile, hX _ _ _ hwrite⟩, rfl, purpose, verifier,
          _, rfl⟩)
      · cases he
  | unstored purpose channel writes salt e disk hphase hrun =>
      rcases configure_cases hrun with ⟨verifier, secret, bytes, -, -, hresult⟩ | ⟨hfile, -⟩
      · cases hresult
      · exact .inl ⟨rfl, hfile, rfl, by rw [hphase]; rfl, rfl⟩
  | install purpose configured _ hphase hfree =>
      refine .inr (.inr ⟨rfl, rfl, ?_, purpose, hphase⟩)
      cases phase <;> simp_all [Phase.holds, Phase.installs]
  | wrote snapshot write hphase => exact .inl ⟨rfl, rfl, rfl, by rw [hphase]; rfl, rfl⟩

lemma Kept.congr {disk disk' : Disk} (h : Kept X disk)
    (hfile : disk'.verifierFile = disk.verifierFile) : Kept X disk' := by
  obtain ⟨bytes, verifier, secret, hbytes, hread⟩ := h
  exact ⟨bytes, verifier, secret, hfile.trans hbytes, hread⟩

theorem durable_of_step (hX : RecordsRead X) (hw : Durable X w)
    (h : (calls X setup).step w e = some v) : Durable X v := by
  rcases stepped_of_step _ h with
    ⟨k, hstarts⟩ | ⟨i, x, k, s, k', spawned, hk, hadvance⟩ | ⟨o, s, hend⟩
  · refine ⟨hw.disk, fun hne => (hw.memory hne).imp_right some_after_start, ?_⟩
    refine forall_after_start hw.installs fun purpose configured hphase => ?_
    rw [start_of_starts hstarts] at hphase
    cases hphase
  · obtain ⟨phase, hlife, hmoved, rfl, rfl⟩ := moved_of_advance hadvance
    have hsame := hmoved.life
    rcases hmoved.durable hX with ⟨hstores, hfile, hmemory, hwas, hnot⟩
      | ⟨hkept, hmemory, purpose, verifier, secret, rfl⟩ | ⟨hstores, hdisk, hnot, purpose, hphase⟩
    · refine ⟨fun hne => (hw.disk (hstores ▸ hne)).congr hfile, fun hne => ?_, ?_⟩
      · show s.memory.isConfigured = true ∨ Processes.Some _ (Installer s.life)
        rw [hmemory, hsame]
        refine (hw.memory (hstores ▸ hne)).imp_right fun hsome => some_after_move hk hsome ?_
        rintro ⟨-, hinstalls⟩
        rw [hwas] at hinstalls
        cases hinstalls
      · refine forall_after_move hk (fun j m _ hm => hw.installs j m hm) ?_ (by simp)
        rintro purpose configured rfl
        cases hnot
    · refine ⟨fun _ => hkept, fun _ => .inr (some_of_moved hk ⟨hlife.trans hsame.symm, rfl⟩), ?_⟩
      refine forall_after_move hk (fun j m _ hm => hw.installs j m hm) ?_ (by simp)
      rintro purpose' configured hphase
      obtain ⟨-, rfl⟩ := Phase.install.inj hphase
      rfl
    · refine ⟨fun hne => hdisk ▸ hw.disk (hstores ▸ hne),
        fun _ => .inl (hw.installs i k hk purpose _ hphase), ?_⟩
      refine forall_after_move hk (fun j m _ hm => hw.installs j m hm) ?_ (by simp)
      rintro purpose configured rfl
      cases hnot
  · rcases outside_cases hend with ⟨memory, hopen, rfl⟩ | ⟨marker, -, rfl⟩
    · exact ⟨hw.disk, fun hne => .inl (isConfigured_of_open (hw.disk hne) hopen), hw.installs⟩
    · exact ⟨hw.disk, hw.memory, hw.installs⟩

/-! ### Who says that the channel was imported -/

/-- What a record or a call says of an import is so. -/
structure Backed (w : World) : Prop where
  marker : w.shared.marker = .record true → HasLegacy w.shared.stores
  told : ∀ (i : ℕ) (c : Call), w.processes[i]? = some c → c.phase.saysImported = true →
    HasLegacy w.shared.stores
  inspects : ∀ (i : ℕ) (c : Call), w.processes[i]? = some c → c.operation = .inspect →
    c.phase.storing = false

lemma HasLegacy.append {stores : List (Origin × String)} (h : HasLegacy stores)
    (more : List (Origin × String)) : HasLegacy (stores ++ more) := by
  obtain ⟨t, ht, horigin⟩ := h
  exact ⟨t, List.mem_append_left _ ht, horigin⟩

/-- A section leaves the stored channels, or adds one. -/
lemma Moved.hasLegacy (h : Moved X setup s c s' phase) (hlegacy : HasLegacy s.stores) :
    HasLegacy s'.stores := by
  cases h with
  | stored => exact hlegacy.append _
  | _ => exact hlegacy

/-- What a section says of an import, it was told, or it has stored the channel. -/
lemma Moved.told (h : Moved X setup s c s' phase) (himported : phase.saysImported = true) :
    c.phase.saysImported = true ∨ s.marker = .record true ∨ HasLegacy s'.stores := by
  cases h with
  | look _ hwas hfree hinspect hsaid => exact (hsaid himported).imp_right .inl
  | publish report hwas hoperation hsaid => exact .inl (hsaid (of_decide_eq_true himported))
  | lock => cases himported
  | stored purpose channel =>
      cases purpose with
      | user => cases himported
      | legacy snapshot =>
          exact .inr (.inr ⟨_, List.mem_append_right _ (List.mem_singleton_self _), rfl⟩)
  | unstored => cases himported
  | install purpose configured _ hphase hfree hsaid => exact .inl (hsaid himported)
  | wrote snapshot write hphase => exact .inl (by rw [hphase]; rfl)

/-- The record is changed by an import that is done with its channel. -/
lemma Moved.marker (h : Moved X setup s c s' phase) :
    s'.marker = s.marker ∨ c.phase.saysImported = true := by
  cases h with
  | wrote snapshot write hphase => exact .inr (by rw [hphase]; rfl)
  | _ => exact .inl rfl

/-- An inspection changes nothing, and stores nothing later. -/
lemma Moved.inspect (h : Moved X setup s c s' phase) (hoperation : c.operation = .inspect)
    (hstoring : c.phase.storing = false) : s' = s ∧ phase.storing = false := by
  cases h with
  | look _ hwas hfree hinspect => exact ⟨rfl, hinspect hoperation⟩
  | publish report hwas hnot => exact absurd hoperation hnot
  | lock purpose channel hphase => rw [hphase] at hstoring; cases hstoring
  | stored purpose channel writes salt configured disk hphase =>
      rw [hphase] at hstoring; cases hstoring
  | unstored purpose channel writes salt e disk hphase => rw [hphase] at hstoring; cases hstoring
  | install purpose configured _ hphase => rw [hphase] at hstoring; cases hstoring
  | wrote snapshot write hphase => rw [hphase] at hstoring; cases hstoring

theorem backed_of_step (hw : Backed w) (h : (calls X setup).step w e = some v) : Backed v := by
  rcases stepped_of_step _ h with
    ⟨k, hstarts⟩ | ⟨i, x, k, s, k', spawned, hk, hadvance⟩ | ⟨o, s, hend⟩
  · have hstart := start_of_starts hstarts
    refine ⟨hw.marker, forall_after_start hw.told fun himported => ?_,
      forall_after_start hw.inspects fun _ => by rw [hstart]; rfl⟩
    rw [hstart] at himported
    cases himported
  · obtain ⟨phase, hlife, hmoved, rfl, rfl⟩ := moved_of_advance hadvance
    refine ⟨fun hmarker => ?_, ?_, ?_⟩
    · rcases hmoved.marker with hsame | himported
      · exact hmoved.hasLegacy (hw.marker (hsame ▸ hmarker))
      · exact hmoved.hasLegacy (hw.told i k hk himported)
    · refine forall_after_move hk
        (fun j m _ hm himported => hmoved.hasLegacy (hw.told j m hm himported))
        (fun himported => ?_) (by simp)
      rcases hmoved.told himported with hsaid | hmarker | hlegacy
      · exact hmoved.hasLegacy (hw.told i k hk hsaid)
      · exact hmoved.hasLegacy (hw.marker hmarker)
      · exact hlegacy
    · exact forall_after_move hk (fun j m _ hm => hw.inspects j m hm)
        (fun hoperation => (hmoved.inspect hoperation (hw.inspects i k hk hoperation)).2) (by simp)
  · rcases outside_cases hend with ⟨memory, -, rfl⟩ | ⟨marker, hmarker, rfl⟩
    · exact ⟨hw.marker, hw.told, hw.inspects⟩
    · exact ⟨fun hrecord => absurd hrecord hmarker, hw.told, hw.inspects⟩

/-- A section of an inspection changes nothing. -/
lemma shared_of_inspect (hw : Backed w) {i : ℕ} (hc : w.processes[i]? = some c)
    (hoperation : c.operation = .inspect) (h : (calls X setup).step w (.move i x) = some v) :
    v.shared = w.shared := by
  cases stepped_of_step _ h with
  | move i x k s k' spawned hk hadvance =>
      obtain rfl := Option.some.inj (hc.symm.trans hk)
      obtain ⟨phase, -, hmoved, -, -⟩ := moved_of_advance hadvance
      exact (hmoved.inspect hoperation (hw.inspects i c hc hoperation)).1

/-! ### A previous channel comes first -/

/-- All channels but the first are the user's, and an import that holds the lock of an app finds
no channel still. -/
structure First (w : World) : Prop where
  tail : ∀ t ∈ w.shared.stores.tail, t.1 = .user
  empty : ∀ (i : ℕ) (c : Call), w.processes[i]? = some c → c.life = w.shared.life →
    ∀ snapshot channel, c.phase = .persist (.legacy snapshot) channel →
      w.shared.memory.isConfigured = false

/-- A call that holds the lock with an app that has no channel is the first to store one. -/
lemma stores_eq_nil (hlocked : Locked w) (hdurable : Durable X w) {i : ℕ}
    (hk : w.processes[i]? = some c) (hholder : Holder w.shared.life c)
    (hinstalls : c.phase.installs = false) (hempty : w.shared.memory.isConfigured = false) :
    w.shared.stores = [] := by
  by_contra hne
  rcases hdurable.memory hne with hconfigured | ⟨j, m, hm, hlife, hm'⟩
  · simp [hempty] at hconfigured
  · have hholds : m.phase.holds = true := by
      cases hphase : m.phase <;> simp_all [Phase.installs, Phase.holds]
    obtain rfl := hlocked.one i j c m hk hm hholder ⟨hlife, hholds⟩
    obtain rfl := Option.some.inj (hk.symm.trans hm)
    rw [hinstalls] at hm'
    cases hm'

/-- The memory is changed by the holder of the lock. -/
lemma Moved.memory (h : Moved X setup s c s' phase) :
    s'.memory = s.memory ∨ c.phase.holds = true := by
  cases h with
  | install purpose configured _ hphase => exact .inr (by rw [hphase]; rfl)
  | _ => exact .inl rfl

/-- One more channel is stored, or none. -/
lemma Moved.stores (h : Moved X setup s c s' phase) :
    s'.stores = s.stores ∨ ∃ purpose channel, c.phase = .persist purpose channel
      ∧ s'.stores = s.stores ++ [(purpose.origin, channel)] := by
  cases h with
  | stored purpose channel writes salt configured disk hphase =>
      exact .inr ⟨purpose, channel, hphase, rfl⟩
  | _ => exact .inl rfl

/-- An import holds the lock where it took it just now. -/
lemma Moved.persist (h : Moved X setup s c s' phase) {purpose : Purpose} {channel : String}
    (hphase : phase = .persist purpose channel) :
    c.phase = .lock purpose channel ∧ s'.memory = s.memory := by
  subst hphase
  cases h with
  | look _ hwas hfree => cases hfree
  | lock purpose channel hphase hfree => exact ⟨hphase, rfl⟩
  | install purpose configured _ hphase hfree => cases hfree

theorem first_of_step (hlocked : Locked w) (hdurable : Durable X w) (hw : First w)
    (hok : Apart w e) (h : (calls X setup).step w e = some v) : First v := by
  rcases stepped_of_step _ h with
    ⟨k, hstarts⟩ | ⟨i, x, k, s, k', spawned, hk, hadvance⟩ | ⟨o, s, hend⟩
  · refine ⟨hw.tail, forall_after_start hw.empty fun _ snapshot channel hphase => ?_⟩
    rw [start_of_starts hstarts] at hphase
    cases hphase
  · obtain ⟨phase, hlife, hmoved, rfl, rfl⟩ := moved_of_advance hadvance
    have hsame := hmoved.life
    constructor
    · show ∀ t ∈ s.stores.tail, t.1 = .user
      rcases hmoved.stores with hstores | ⟨purpose, channel, hphase, hstores⟩
      · rw [hstores]
        exact hw.tail
      · rw [hstores]
        cases purpose with
        | user =>
            intro t ht
            rw [List.tail_append] at ht
            split_ifs at ht
            · cases ht
            · rcases List.mem_append.mp ht with ht | ht
              · exact hw.tail t ht
              · rw [List.mem_singleton.mp ht]
                rfl
        | legacy snapshot =>
            have hempty := hw.empty i k hk hlife snapshot channel hphase
            have hnil := stores_eq_nil hlocked hdurable hk ⟨hlife, by rw [hphase]; rfl⟩
              (by rw [hphase]; rfl) hempty
            rw [hnil]
            exact fun t ht => by cases ht
    · show ∀ (j : ℕ) (m : Call), _ → m.life = s.life → ∀ snapshot channel,
        m.phase = .persist (.legacy snapshot) channel → s.memory.isConfigured = false
      rw [hsame]
      refine forall_after_move hk (fun j m hne hm hlife' snapshot channel hphase => ?_)
        (fun _ snapshot channel hphase => ?_) (by simp)
      · rcases hmoved.memory with hmemory | hholds
        · rw [hmemory]
          exact hw.empty j m hm hlife' snapshot channel hphase
        · exact absurd (hlocked.one j i m k hm hk ⟨hlife', by rw [hphase]; rfl⟩ ⟨hlife, hholds⟩) hne
      · obtain ⟨hlock, hmemory⟩ := hmoved.persist hphase
        rw [hmemory]
        exact hok k hk (by rw [hlock]; rfl)
  · rcases outside_cases hend with ⟨memory, -, rfl⟩ | ⟨marker, -, rfl⟩
    · refine ⟨hw.tail, fun i c hc hlife snapshot channel hphase => ?_⟩
      -- the calls of a start that has just begun have not moved
      have hstart := hlocked.later i c hc (by rw [hlife]; exact Nat.lt_succ_self _)
      rw [hstart] at hphase
      cases hphase
    · exact ⟨hw.tail, hw.empty⟩

/-! ### Over every run -/

lemma stores_installed : (installed X setup).stores = [] := rfl

/-- Where every channel but the first is the user's, no previous one replaced the user's. -/
lemma userKept_of_tail {stores pre post : List (Origin × String)} {channel : String}
    (htail : ∀ t ∈ stores.tail, t.1 = .user) (h : stores = pre ++ (.legacy, channel) :: post) :
    pre = [] := by
  cases pre with
  | nil => rfl
  | cons t pre =>
      have hmem : (Origin.legacy, channel) ∈ stores.tail := by
        rw [h]
        simp
      cases htail _ hmem

lemma once_of_tail {stores : List (Origin × String)} (htail : ∀ t ∈ stores.tail, t.1 = .user) :
    stores.countP (fun t => t.1 = .legacy) ≤ 1 := by
  cases stores with
  | nil => exact Nat.zero_le 1
  | cons t stores =>
      have hnone : stores.countP (fun t => t.1 = .legacy) = 0 := by
        refine List.countP_eq_zero.mpr fun u hu => ?_
        rw [htail u hu]
        decide
      rw [List.countP_cons, hnone]
      split_ifs <;> simp

/-- What holds of every run: the lock, the disk, and the reports. -/
lemma sound_of_run (hX : RecordsRead X) {es : List Event} (h : (imports X setup).run es = some w) :
    Locked w ∧ Durable X w ∧ Backed w := by
  refine (imports X setup).invariant (I := fun w => Locked w ∧ Durable X w ∧ Backed w) ?_ ?_ h
  · refine ⟨⟨?_, ?_, ?_⟩, ⟨?_, ?_, ?_⟩, ⟨?_, ?_, ?_⟩⟩
    · rintro i j c m hc
      cases hc
    · rintro i c hc
      cases hc
    · rintro i c hc
      cases hc
    · exact fun hne => absurd stores_installed hne
    · exact fun hne => absurd stores_installed hne
    · rintro i c hc
      cases hc
    · rintro hmarker
      cases hmarker
    · rintro i c hc
      cases hc
    · rintro i c hc
      cases hc
  · rintro w e v ⟨hlocked, hdurable, hbacked⟩ hstep
    exact ⟨locked_of_step hlocked hstep, durable_of_step hX hdurable hstep,
      backed_of_step hbacked hstep⟩

lemma first_of_run (hX : RecordsRead X) {es : List Event}
    (h : (imports X setup).run es = some w) (hok : (imports X setup).StepsMeet Apart es) :
    First w := by
  refine StepSystem.run_induction_of_stepsMeet (P := fun _ w => First w) ?_ ?_ h hok
  · refine ⟨fun t ht => ?_, ?_⟩
    · rw [show (imports X setup).init.shared.stores = [] from stores_installed] at ht
      cases ht
    · rintro i c hc
      cases hc
  · intro es w e v hrun hfirst hapart hstep
    obtain ⟨hlocked, hdurable, -⟩ := sound_of_run hX hrun
    exact first_of_step hlocked hdurable hfirst hapart hstep

/-- **The user's channel is kept**: in every run in which no import takes the lock of an app
that has a channel by then. -/
theorem preserved_of_run (X : Services) (setup : Setup) (es : List Event) (w : World)
    (hX : RecordsRead X) (h : (imports X setup).run es = some w)
    (hok : (imports X setup).StepsMeet Apart es) : Preserved X setup es w where
  userKept pre channel post hstores t ht := by
    rw [userKept_of_tail (first_of_run hX h hok).tail hstores] at ht
    cases ht
  once := once_of_tail (first_of_run hX h hok).tail
  reported i c report hc hphase himported := by
    obtain ⟨-, -, hbacked⟩ := sound_of_run hX h
    refine hbacked.told i c hc ?_
    rw [hphase]
    exact decide_eq_true himported
  inspected u i x v c htook hc hoperation := by
    obtain ⟨pre, post, -, hu, hstep⟩ := htook
    obtain ⟨-, -, hbacked⟩ := sound_of_run hX hu
    exact shared_of_inspect hbacked hc hoperation hstep

/-! ### An import, and one that is interrupted -/

def previousApp : LegacySnapshot := ⟨true, .readable "secret", false, false⟩

/-- An import up to where it awaits the lock. -/
def decideEvents : List Event :=
  [.start ⟨.apply, 0, .start⟩, .move 0 (.loaded (.ok previousApp)), .move 0 (.marker (.ok true)),
    .move 0 .go]

/-- A call stores its channel. -/
def storeEvents (i : ℕ) : List Event :=
  [.move i .go, .move i (.stored {} (some ⟨List.replicate 16 0, rfl⟩)), .move i .go]

/-- The user configures a channel. -/
def configureEvents (i : ℕ) : List Event :=
  [.start ⟨.configure "mine", 0, .start⟩, .move i .go] ++ storeEvents i

lemma recordsRead_of_dependable {channel : String} (hX : Dependable X channel) : RecordsRead X := by
  intro verifier secret bytes hwrite
  obtain ⟨bytes', hwrite', hread⟩ := hX.records verifier secret
  obtain rfl := Option.some.inj (hwrite'.symm.trans hwrite)
  exact hread

/-- The app of the user on Windows. -/
def windowsApp : Setup := ⟨.windows, false, none⟩

theorem import_then_configure_preserved :
    ∃ w, (imports (servicesFor "secret" secretDigest) windowsApp).run
        (decideEvents ++ storeEvents 0 ++ [.move 0 (.wrote .written)] ++ configureEvents 1) = some w
      ∧ w.shared.stores = [(.legacy, "secret"), (.user, "mine")]
      ∧ Preserved (servicesFor "secret" secretDigest) windowsApp
        (decideEvents ++ storeEvents 0 ++ [.move 0 (.wrote .written)] ++ configureEvents 1) w :=
  ⟨_, rfl, rfl, preserved_of_run _ _ _ _
    (recordsRead_of_dependable (servicesFor_dependable (by decide))) rfl
      (StepSystem.stepsMeet_of_meetsFrom (by decide))⟩

/-- The user configures a channel after an import has decided, and the import replaces it. -/
theorem interrupted_import_replaces :
    ∃ w, (imports (servicesFor "secret" secretDigest) windowsApp).run
        (decideEvents ++ configureEvents 1 ++ storeEvents 0) = some w
      ∧ ¬Preserved (servicesFor "secret" secretDigest) windowsApp
        (decideEvents ++ configureEvents 1 ++ storeEvents 0) w := by
  refine ⟨_, rfl, fun h => ?_⟩
  exact h.userKept [(.user, "mine")] "secret" [] rfl _ (List.mem_singleton_self _) rfl

end ShaPrint.Legacy
