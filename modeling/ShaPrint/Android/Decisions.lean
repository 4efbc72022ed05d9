import ShaPrint.Android.TrustStore

/-!
Whether the trust store of the Android client keeps every decision, when calls interleave.

* `loadServer_apply`: what a call leaves, for every address.
* `coherent_apply_iff`: a call leaves the index coherent if and only if the index it has read
  lists every other address whose entry loads then.
* `Written`, `written_of_run`: the entries are those of the calls in the order of writing.
* `serialised_of_run`: a run whose calls wrote with an index that was still current loses
  nothing; `overlapping_saves_lose`: two saves that overlap do.
-/

namespace ShaPrint.Android

open scoped List

/-- What the calls leave, one after the other. -/
def replay (found : String → Option TrustedServer) (order : List Operation) :
    String → Option TrustedServer :=
  order.foldl (fun m operation => Function.update m operation.address operation.leaves) found

/-- The operation of a call that is done. -/
def Call.completed (c : Call) : Option Operation := if c.isDone then some c.operation else none

section

variable {N : Type} {X : Platform N} {p : Preferences} {operation : Operation} {nonce : N}
  {index : Finset String}

/-- What a call leaves at every address. -/
lemma loadServer_apply (hcrypto : ∀ n t, X.decrypt (X.encrypt n t) = some t) :
    loadServer X (p.apply operation (operation.entry X nonce) index)
      = Function.update (loadServer X p) operation.address operation.leaves := by
  have hstrings : (p.apply operation (operation.entry X nonce) index).strings
      = Function.update p.strings (serverKey operation.address)
        ((operation.entry X nonce).map .json) := rfl
  funext a
  rw [loadServer, hstrings]
  by_cases ha : a = operation.address
  · subst ha
    rw [Function.update_self, Function.update_self]
    cases operation with
    | save server => exact readServer_serverJson X hcrypto nonce server
    | remove canonicalAddress => rfl
  · have hkey : serverKey a ≠ serverKey operation.address := fun h => ha (serverKey_injective h)
    rw [Function.update_of_ne hkey, Function.update_of_ne ha, loadServer]

/-- When a call leaves the index coherent. -/
lemma coherent_apply_iff (hcrypto : ∀ n t, X.decrypt (X.encrypt n t) = some t) :
    Coherent X (p.apply operation (operation.entry X nonce) index)
      ↔ ∀ a, a ≠ operation.address → (loadServer X p a).isSome = true → a ∈ index := by
  have hindex : (p.apply operation (operation.entry X nonce) index).index
      = operation.editIndex index := rfl
  unfold Coherent
  rw [loadServer_apply hcrypto, hindex]
  constructor
  · intro h a hne ha
    have hmem := h a (by rwa [Function.update_of_ne hne])
    cases operation with
    | save server => exact (Finset.mem_insert.mp hmem).resolve_left hne
    | remove canonicalAddress => exact Finset.mem_of_mem_erase hmem
  · intro h a ha
    by_cases hself : a = operation.address
    · rw [hself, Function.update_self] at ha
      cases operation with
      | save server => exact hself ▸ Finset.mem_insert_self _ _
      | remove canonicalAddress => cases ha
    · rw [Function.update_of_ne hself] at ha
      have hmem := h a hself ha
      cases operation with
      | save server => exact Finset.mem_insert_of_mem hmem
      | remove canonicalAddress => exact Finset.mem_erase_of_ne_of_mem hself hmem

lemma mem_getTrustedServers {server : TrustedServer} :
    server ∈ getTrustedServers X p ↔ ∃ a ∈ p.index, loadServer X p a = some server :=
  Multiset.mem_filterMap (loadServer X p) p.index.val

/-- The list of a coherent store has every server that is found, and no other. -/
lemma Coherent.mem_getTrustedServers (h : Coherent X p) {server : TrustedServer} :
    server ∈ getTrustedServers X p ↔ ∃ a, loadServer X p a = some server := by
  rw [Android.mem_getTrustedServers]
  constructor
  · rintro ⟨a, -, ha⟩
    exact ⟨a, ha⟩
  · rintro ⟨a, ha⟩
    exact ⟨a, h a (by rw [ha]; rfl), ha⟩

end

/-! ### The order of writing -/

section

variable {N : Type} {X : Platform N} {start : Preferences} {w v : TrustWorld}
  {e : TrustEvent N}

/-- An entry that a call is about to write is the one of its operation. -/
def Call.Sound (X : Platform N) (c : Call) : Prop :=
  ∀ entry index, c.phase = .read entry index → ∃ nonce, entry = c.operation.entry X nonce

/-- The state of a run: the calls are sound, and the entries are those of the calls that are
done, in some order. -/
structure Written (X : Platform N) (start : Preferences) (w : TrustWorld) : Prop where
  sound : ∀ (i : ℕ) (c : Call), w.processes[i]? = some c → c.Sound X
  order : ∃ order : List Operation, w.processes.filterMap Call.completed ~ order
    ∧ loadServer X w.shared = replay (loadServer X start) order

/-- What a section of a call does. -/
lemma advance_cases {p p' : Preferences} {c c' : Call} {nonce : N} {spawned : List Call}
    (h : (trustCalls X start).advance p c nonce = some (p', c', spawned)) :
    spawned = [] ∧
      ((c.phase = .start ∧ p' = p
          ∧ c' = { c with phase := .read (c.operation.entry X nonce) p.index })
        ∨ ∃ entry index, c.phase = .read entry index ∧ p' = p.apply c.operation entry index
          ∧ c' = { c with phase := .done }) := by
  obtain ⟨⟨q, d⟩, hresume, heq⟩ := Option.map_eq_some_iff.mp h
  obtain ⟨hq, heq⟩ := Prod.mk.inj heq
  obtain ⟨hd, hspawned⟩ := Prod.mk.inj heq
  unfold Call.resume at hresume
  refine ⟨hspawned.symm, ?_⟩
  cases hphase : c.phase with
  | start =>
      rw [hphase] at hresume
      obtain ⟨hp, hc⟩ := Prod.mk.inj (Option.some.inj hresume)
      exact .inl ⟨rfl, hq.symm.trans hp.symm, hd.symm.trans hc.symm⟩
  | read entry index =>
      rw [hphase] at hresume
      obtain ⟨hp, hc⟩ := Prod.mk.inj (Option.some.inj hresume)
      exact .inr ⟨entry, index, rfl, hq.symm.trans hp.symm, hd.symm.trans hc.symm⟩
  | done =>
      rw [hphase] at hresume
      cases hresume

lemma written_of_step (hcrypto : ∀ n t, X.decrypt (X.encrypt n t) = some t)
    (hw : Written X start w) (h : (trustStore X start).step w e = some v) :
    Written X start v := by
  obtain ⟨order, hperm, hload⟩ := hw.order
  rcases (trustCalls X start).stepped_of_step h with
    ⟨k, hstarts⟩ | ⟨i, nonce, k, s, k', spawned, hk, hadvance⟩ | ⟨o, s, hend⟩
  · have hphase : k.phase = .start := by simpa [trustCalls] using hstarts
    refine ⟨Processes.forall_after_start hw.sound ?_, order, ?_, hload⟩
    · intro entry index hread
      rw [hphase] at hread
      cases hread
    · have hcompleted : k.completed = none := by simp [Call.completed, Call.isDone, hphase]
      rw [List.filterMap_append, List.filterMap_cons_none hcompleted, List.filterMap_nil,
        List.append_nil]
      exact hperm
  · have hothers := fun (j : ℕ) (m : Call) (_ : j ≠ i) hm => hw.sound j m hm
    obtain ⟨rfl, ⟨hphase, rfl, rfl⟩ | ⟨entry, index, hphase, rfl, rfl⟩⟩ := advance_cases hadvance
    · refine ⟨Processes.forall_after_move hk hothers ?_ (by simp), order, ?_, hload⟩
      · intro entry index hread
        obtain ⟨rfl, rfl⟩ := Phase.read.inj hread
        exact ⟨nonce, rfl⟩
      · rw [List.append_nil, Processes.filterMap_set_eq hk]
        · exact hperm
        · simp [Call.completed, Call.isDone, hphase]
    · obtain ⟨made, rfl⟩ := hw.sound i k hk entry index hphase
      refine ⟨Processes.forall_after_move hk hothers ?_ (by simp), order ++ [k.operation], ?_, ?_⟩
      · intro entry index hread
        cases hread
      · have hbefore : k.completed = none := by simp [Call.completed, Call.isDone, hphase]
        rw [List.append_nil]
        exact (Processes.perm_filterMap_set hk hbefore rfl).trans (hperm.append_right _)
      · rw [loadServer_apply hcrypto, hload, replay, replay, List.foldl_append]
        rfl
  · exact o.elim

theorem written_of_run (hcrypto : ∀ n t, X.decrypt (X.encrypt n t) = some t)
    {es : List (TrustEvent N)} (h : (trustStore X start).run es = some w) :
    Written X start w := by
  refine (trustStore X start).invariant (I := Written X start) ?_
    (fun w e v hw hstep => written_of_step hcrypto hw hstep) h
  exact ⟨fun i c hc => (by cases hc), [], .refl _, rfl⟩

/-! ### Runs that lose nothing -/

/-- A call that writes has read an index that lists every other address whose entry loads
now: no entry that another call has added since is left out. -/
def WritesCurrent (X : Platform N) (w : TrustWorld) (e : TrustEvent N) : Prop :=
  ∀ i ∈ e.mover, ∀ c ∈ w.processes[i]?, ∀ entry index, c.phase = .read entry index →
    ∀ a, a ≠ c.operation.address → (loadServer X w.shared a).isSome = true → a ∈ index

/-- There is an order of the calls that leaves what the store finds, and the store lists what
it finds. -/
def Serialised (X : Platform N) (start : Preferences) (w : TrustWorld) : Prop :=
  ∃ order : List Operation, order ~ w.processes.map Call.operation
    ∧ (∀ a, loadServer X w.shared a = replay (loadServer X start) order a)
    ∧ ∀ server, server ∈ getTrustedServers X w.shared
      ↔ ∃ a, loadServer X w.shared a = some server

lemma coherent_of_step (hcrypto : ∀ n t, X.decrypt (X.encrypt n t) = some t)
    (hw : Written X start w) (hcoherent : Coherent X w.shared) (hcurrent : WritesCurrent X w e)
    (h : (trustStore X start).step w e = some v) : Coherent X v.shared := by
  rcases (trustCalls X start).stepped_of_step h with
    ⟨k, hstarts⟩ | ⟨i, nonce, k, s, k', spawned, hk, hadvance⟩ | ⟨o, s, hend⟩
  · exact hcoherent
  · obtain ⟨-, ⟨-, rfl, -⟩ | ⟨entry, index, hphase, rfl, -⟩⟩ := advance_cases hadvance
    · exact hcoherent
    · obtain ⟨made, rfl⟩ := hw.sound i k hk entry index hphase
      exact (coherent_apply_iff hcrypto).mpr (hcurrent i rfl k hk _ index hphase)
  · exact o.elim

/-- The index that a call is about to write from is still the one in the store. -/
def Call.latest (p : Preferences) (c : Call) : Bool :=
  match c.phase with
  | .read _ index => index == p.index
  | _ => true

/-- A call that writes has read the index that is in the store. -/
def WritesLatest (w : TrustWorld) (e : TrustEvent N) : Prop :=
  ∀ i ∈ e.mover, ∀ c ∈ w.processes[i]?, c.latest w.shared = true

instance (w : TrustWorld) (e : TrustEvent N) : Decidable (WritesLatest w e) :=
  inferInstanceAs (Decidable (∀ i ∈ e.mover, ∀ c ∈ w.processes[i]?, c.latest w.shared = true))

lemma WritesLatest.writesCurrent (h : WritesLatest w e) (hcoherent : Coherent X w.shared) :
    WritesCurrent X w e := by
  intro i hi c hc entry index hphase a _ ha
  have hlatest := h i hi c hc
  rw [Call.latest, hphase, beq_iff_eq] at hlatest
  rw [hlatest]
  exact hcoherent a ha

/-- Calls that do not overlap write with a current index. -/
lemma stepsMeet_writesCurrent (hcrypto : ∀ n t, X.decrypt (X.encrypt n t) = some t)
    (hstart : Coherent X start) {es : List (TrustEvent N)}
    (h : (trustStore X start).StepsMeet WritesLatest es) :
    (trustStore X start).StepsMeet (WritesCurrent X) es := by
  rintro pre e post s rfl hs
  have hcoherent : Coherent X s.shared := by
    refine StepSystem.run_induction_of_stepsMeet (S := trustStore X start)
      (P := fun _ w => Coherent X w.shared) hstart ?_ hs h.of_append
    intro es w e v hrun hw hok hstep
    exact coherent_of_step hcrypto (written_of_run hcrypto hrun) hw (hok.writesCurrent hw) hstep
  exact (h pre e post s rfl hs).writesCurrent hcoherent

/-- **A run whose calls write with a current index loses no decision.** -/
theorem serialised_of_run (hcrypto : ∀ n t, X.decrypt (X.encrypt n t) = some t)
    (hstart : Coherent X start) {es : List (TrustEvent N)}
    (h : (trustStore X start).run es = some w)
    (hcurrent : (trustStore X start).StepsMeet (WritesCurrent X) es)
    (hdone : ∀ (i : ℕ) (c : Call), w.processes[i]? = some c → c.isDone = true) :
    Serialised X start w := by
  obtain ⟨order, hperm, hload⟩ := (written_of_run hcrypto h).order
  have hcoherent : Coherent X w.shared := by
    refine StepSystem.run_induction_of_stepsMeet (S := trustStore X start)
      (P := fun _ w => Coherent X w.shared) hstart ?_ h hcurrent
    intro es w e v hrun hw hok hstep
    exact coherent_of_step hcrypto (written_of_run hcrypto hrun) hw hok hstep
  have hall : w.processes.filterMap Call.completed = w.processes.map Call.operation := by
    rw [← List.filterMap_eq_map]
    refine List.filterMap_congr fun c hc => ?_
    obtain ⟨i, hi⟩ := List.mem_iff_getElem?.mp hc
    exact if_pos (hdone i c hi)
  refine ⟨order, ?_, fun a => congrFun hload a, fun server => hcoherent.mem_getTrustedServers⟩
  exact hall ▸ hperm.symm

end

/-! ### Two servers -/

def hallServer : TrustedServer := ⟨"10.0.0.5", 48631, "Hall", "AA:01", some "blue", true⟩

def deskServer : TrustedServer := ⟨"10.0.0.7", 48631, "Desk", "BB:02", none, true⟩

/-- A platform whose encryption marks a text. -/
def markingPlatform : Platform Unit where
  encrypt _ t := String.ofList ('=' :: t.toList)
  decrypt s := some (String.ofList s.toList.tail)
  toInt _ := none

lemma markingPlatform_crypto (n : Unit) (t : String) :
    markingPlatform.decrypt (markingPlatform.encrypt n t) = some t := by
  simp [markingPlatform]

def emptyStore : Preferences := ⟨fun _ => none, none⟩

lemma coherent_emptyStore : Coherent markingPlatform emptyStore := fun a ha => by cases ha

/-- One server is approved, then another. -/
def twoSaves : List (TrustEvent Unit) :=
  [.start ⟨.save hallServer, .start⟩, .move 0 (), .move 0 (),
    .start ⟨.save deskServer, .start⟩, .move 1 (), .move 1 ()]

theorem twoSaves_serialised : ∃ w,
    (trustStore markingPlatform emptyStore).run twoSaves = some w
      ∧ Serialised markingPlatform emptyStore w := by
  have hrun : (trustStore markingPlatform emptyStore).run twoSaves = some _ := rfl
  refine ⟨_, hrun, serialised_of_run markingPlatform_crypto coherent_emptyStore hrun
    (stepsMeet_writesCurrent markingPlatform_crypto coherent_emptyStore
      (StepSystem.stepsMeet_of_meetsFrom (by decide +kernel))) ?_⟩
  rintro (_ | _ | i) c hc
  · obtain rfl := Option.some.inj hc
    rfl
  · obtain rfl := Option.some.inj hc
    rfl
  · cases hc

/-- Two saves have both read the index before either wrote it. -/
def overlapped : TrustWorld :=
  ⟨(emptyStore.apply (.save hallServer)
      ((Operation.save hallServer).entry markingPlatform ()) ∅).apply (.save deskServer)
      ((Operation.save deskServer).entry markingPlatform ()) ∅,
    [⟨.save hallServer, .done⟩, ⟨.save deskServer, .done⟩]⟩

/-- The first server is found, and is not in the list. -/
theorem overlapping_saves_lose :
    (trustStore markingPlatform emptyStore).run
        [.start ⟨.save hallServer, .start⟩, .start ⟨.save deskServer, .start⟩, .move 0 (),
          .move 1 (), .move 0 (), .move 1 ()] = some overlapped
      ∧ (∀ c ∈ overlapped.processes, c.isDone = true)
      ∧ loadServer markingPlatform overlapped.shared hallServer.canonicalAddress = some hallServer
      ∧ ¬ Serialised markingPlatform emptyStore overlapped := by
  have hload : loadServer markingPlatform overlapped.shared hallServer.canonicalAddress
      = some hallServer := by decide +kernel
  refine ⟨rfl, by decide, hload, ?_⟩
  rintro ⟨order, -, -, hlist⟩
  have hlisted := (hlist hallServer).mpr ⟨hallServer.canonicalAddress, hload⟩
  obtain ⟨a, ha, hfound⟩ := mem_getTrustedServers.mp hlisted
  obtain rfl : a = deskServer.canonicalAddress := by
    have hindex : overlapped.shared.index = {deskServer.canonicalAddress} := rfl
    exact Finset.mem_singleton.mp (hindex ▸ ha)
  exact absurd hfound (by decide +kernel)

end ShaPrint.Android
