import ShaPrint.Updater.Updater

/-!
What one section of an updater call can do, said once.

Of a call only a few things matter: whether it is a check behind the gate
(`inside`), one that has found no update ready (`working`), one that has stored a
package and not yet published it (`storing`), or a `fail` that has cleared the
package and not yet set the status (`failing`).

* `Moved`: the sections by what they change; `moved_of_advance` is the inversion.
-/

namespace ShaPrint.Updater

/-- A check that holds the gate. -/
def Call.inside : Call → Prop
  | .checkReady _ | .checkStart _ | .checkSource _ | .checkAvailable _ _ | .checkDownloading _ _
  | .checkDownload _ _ | .checkStore _ | .checkPublish _ | .checkClear | .checkIdle | .checkFail
  | .checkStatus | .checkLeave _ => True
  | _ => False

/-- A check that has found no update ready, before it sets its last status. -/
def Call.working : Call → Prop
  | .checkStart _ | .checkSource _ | .checkAvailable _ _ | .checkDownloading _ _
  | .checkDownload _ _ | .checkStore _ | .checkPublish _ | .checkClear | .checkIdle
  | .checkFail => True
  | _ => False

/-- A check between storing its package and publishing it. -/
def Call.storing : Call → Prop
  | .checkPublish _ => True
  | _ => False

/-- A `fail` between clearing the package and setting the status. -/
def Call.failing : Call → Prop
  | .failSet _ => True
  | _ => False

/-- A restart request between reading the status and writing it back. -/
def Call.requesting : Call → Prop
  | .requestWrite _ _ _ => True
  | _ => False

/-- The sections of a call, by what they change. -/
inductive Moved (s : Shared) : Call → Input → Shared → Call → Prop where
  /-- Only the call moves. -/
  | quiet {c c' : Call} {x : Input} (hinside : c'.inside ↔ c.inside)
      (hworking : c'.working → c.working) (hstoring : ¬ c.storing) (hstoring' : ¬ c'.storing)
      (hfailing : ¬ c.failing) (hfailing' : ¬ c'.failing) (hrequesting : ¬ c'.requesting) :
      Moved s c x s c'
  | enters {c' : Call} (kind : CheckKind) (hgate : s.gate = false) (hworking : ¬ c'.working)
      (hstoring : ¬ c'.storing) (hfailing : ¬ c'.failing) (hrequesting : ¬ c'.requesting) :
      Moved s (.checkGate kind) .go { s with gate := true } c'
  | leaves (answer : Answer) :
      Moved s (.checkLeave answer) .go { s with gate := false } (.done answer)
  | finds (kind : CheckKind) (hready : isReady s.status.state = false) :
      Moved s (.checkReady kind) .go s (.checkStart kind)
  /-- A check sets a status other than ready. -/
  | sets {c c' : Call} (next : UpdateState) (hnext : isReady next = false) (hc : c.working)
      (hinside : c.inside) (hinside' : c'.inside) (hstoring : ¬ c.storing)
      (hstoring' : ¬ c'.storing) (hfailing' : ¬ c'.failing) (hrequesting : ¬ c'.requesting) :
      Moved s c .go (s.setState next false) c'
  | stores (package : UpdatePackage) :
      Moved s (.checkStore package) .go { s with package := some package }
        (.checkPublish package.version)
  | publishes (version : String) :
      Moved s (.checkPublish version) .go
        { s.setState (.readyToRestart version false) false with readies := s.readies + 1 }
        .checkStatus
  | clears : Moved s .checkClear .go { s with package := none } .checkIdle
  | failClears (message : String) :
      Moved s (.failClear message) .go { s with package := none } (.failSet message)
  | failSets (message : String) :
      Moved s (.failSet message) .go { s.setState (.failed message) false with taken := false }
        (.done .unit)
  | reads (auto : Bool) :
      Moved s (.requestRead auto) .go s
        (.requestWrite auto (withRequest s.status.state) s.readies)
  | writes (auto : Bool) (next : UpdateState) (readies : ℕ) (safe : Bool) :
      Moved s (.requestWrite auto next readies) (.safe safe) (s.setState next !safe)
        (.requestStatus auto)
  | waits (waiting : Bool) :
      Moved s (.installWaiting waiting) .go (s.updateWaitingFlag waiting) (.done (.flag false))
  | takes (package : UpdatePackage) (hrequested : isRequested s.status.state = true)
      (hpackage : s.package = some package) :
      Moved s .installTake .go { s with package := none, taken := true } (.installUnwait package)
  | unwaits (package : UpdatePackage) :
      Moved s (.installUnwait package) .go (s.updateWaitingFlag false) (.installing package)

/-- Every section is one of these. -/
theorem moved_of_advance {s s' : Shared} {c c' : Call} {x : Input}
    (h : advance s c x = some (s', c')) : Moved s c x s' c' := by
  have hquiet : ∀ {c c' : Call} {x : Input}, (c'.inside ↔ c.inside) → (c'.working → c.working) →
      ¬ c.storing → ¬ c'.storing → ¬ c.failing → ¬ c'.failing → ¬ c'.requesting →
      Moved s c x s c' := .quiet
  unfold advance at h
  split at h
  case h_1 kind =>
      split at h
      · cases h
      · obtain ⟨rfl, rfl⟩ := Prod.mk.inj (Option.some.inj h)
        exact .enters kind (Bool.eq_false_iff.mpr ‹_›) id id id id
  case h_2 kind =>
      split at h
      · obtain ⟨rfl, rfl⟩ := Prod.mk.inj (Option.some.inj h)
        exact hquiet Iff.rfl id id id id id id
      · obtain ⟨rfl, rfl⟩ := Prod.mk.inj (Option.some.inj h)
        exact .finds kind (Bool.eq_false_iff.mpr ‹_›)
  case h_3 kind =>
      obtain ⟨rfl, rfl⟩ := Prod.mk.inj (Option.some.inj h)
      exact .sets .checking rfl trivial trivial trivial id id id id
  case h_4 kind =>
      obtain ⟨rfl, rfl⟩ := Prod.mk.inj (Option.some.inj h)
      cases kind with
      | manual => exact hquiet Iff.rfl id id id id id id
      | background => exact hquiet Iff.rfl id id id id id id
  case h_5 kind =>
      obtain ⟨rfl, rfl⟩ := Prod.mk.inj (Option.some.inj h)
      exact hquiet Iff.rfl id id id id id id
  case h_6 kind release =>
      obtain ⟨rfl, rfl⟩ := Prod.mk.inj (Option.some.inj h)
      exact hquiet Iff.rfl id id id id id id
  case h_7 kind release =>
      obtain ⟨rfl, rfl⟩ := Prod.mk.inj (Option.some.inj h)
      exact .sets _ rfl trivial trivial trivial id id id id
  case h_8 kind release =>
      obtain ⟨rfl, rfl⟩ := Prod.mk.inj (Option.some.inj h)
      exact .sets _ rfl trivial trivial trivial id id id id
  case h_9 kind release =>
      obtain ⟨rfl, rfl⟩ := Prod.mk.inj (Option.some.inj h)
      cases kind with
      | manual => exact hquiet Iff.rfl id id id id id id
      | background => exact hquiet Iff.rfl id id id id id id
  case h_10 kind release package =>
      obtain ⟨rfl, rfl⟩ := Prod.mk.inj (Option.some.inj h)
      exact hquiet Iff.rfl id id id id id id
  case h_11 package =>
      obtain ⟨rfl, rfl⟩ := Prod.mk.inj (Option.some.inj h)
      exact .stores package
  case h_12 version =>
      obtain ⟨rfl, rfl⟩ := Prod.mk.inj (Option.some.inj h)
      exact .publishes version
  case h_13 =>
      obtain ⟨rfl, rfl⟩ := Prod.mk.inj (Option.some.inj h)
      exact .clears
  case h_14 =>
      obtain ⟨rfl, rfl⟩ := Prod.mk.inj (Option.some.inj h)
      exact .sets .idle rfl trivial trivial trivial id id id id
  case h_15 =>
      obtain ⟨rfl, rfl⟩ := Prod.mk.inj (Option.some.inj h)
      exact .sets (.failed checkFailedMessage) rfl trivial trivial trivial id id id id
  case h_16 =>
      obtain ⟨rfl, rfl⟩ := Prod.mk.inj (Option.some.inj h)
      exact hquiet Iff.rfl id id id id id id
  case h_17 answer =>
      obtain ⟨rfl, rfl⟩ := Prod.mk.inj (Option.some.inj h)
      exact .leaves answer
  case h_18 auto =>
      obtain ⟨rfl, rfl⟩ := Prod.mk.inj (Option.some.inj h)
      exact .reads auto
  case h_19 auto next readies safe =>
      obtain ⟨rfl, rfl⟩ := Prod.mk.inj (Option.some.inj h)
      exact .writes auto next readies safe
  case h_20 auto =>
      obtain ⟨rfl, rfl⟩ := Prod.mk.inj (Option.some.inj h)
      exact hquiet Iff.rfl id id id id id id
  case h_21 windowHidden idle safe =>
      split at h
      · obtain ⟨rfl, rfl⟩ := Prod.mk.inj (Option.some.inj h)
        exact hquiet Iff.rfl id id id id id id
      · obtain ⟨rfl, rfl⟩ := Prod.mk.inj (Option.some.inj h)
        exact hquiet Iff.rfl id id id id id id
  case h_22 =>
      split at h
      · obtain ⟨rfl, rfl⟩ := Prod.mk.inj (Option.some.inj h)
        exact hquiet Iff.rfl id id id id id id
      · obtain ⟨rfl, rfl⟩ := Prod.mk.inj (Option.some.inj h)
        exact hquiet Iff.rfl id id id id id id
  case h_23 =>
      split at h
      · obtain ⟨rfl, rfl⟩ := Prod.mk.inj (Option.some.inj h)
        exact hquiet Iff.rfl id id id id id id
      · obtain ⟨rfl, rfl⟩ := Prod.mk.inj (Option.some.inj h)
        exact hquiet Iff.rfl id id id id id id
  case h_24 safe =>
      split at h
      · obtain ⟨rfl, rfl⟩ := Prod.mk.inj (Option.some.inj h)
        exact hquiet Iff.rfl id id id id id id
      · obtain ⟨rfl, rfl⟩ := Prod.mk.inj (Option.some.inj h)
        exact hquiet Iff.rfl id id id id id id
  case h_25 waiting =>
      obtain ⟨rfl, rfl⟩ := Prod.mk.inj (Option.some.inj h)
      exact .waits waiting
  case h_26 =>
      split at h
      · rename_i hrequested
        split at h
        · rename_i package hpackage
          obtain ⟨rfl, rfl⟩ := Prod.mk.inj (Option.some.inj h)
          exact .takes package hrequested hpackage
        · obtain ⟨rfl, rfl⟩ := Prod.mk.inj (Option.some.inj h)
          exact hquiet Iff.rfl id id id id id id
      · obtain ⟨rfl, rfl⟩ := Prod.mk.inj (Option.some.inj h)
        exact hquiet Iff.rfl id id id id id id
  case h_27 package =>
      obtain ⟨rfl, rfl⟩ := Prod.mk.inj (Option.some.inj h)
      exact .unwaits package
  case h_28 package =>
      obtain ⟨rfl, rfl⟩ := Prod.mk.inj (Option.some.inj h)
      exact hquiet Iff.rfl id id id id id id
  case h_29 package message =>
      obtain ⟨rfl, rfl⟩ := Prod.mk.inj (Option.some.inj h)
      exact hquiet Iff.rfl id id id id id id
  case h_30 message =>
      obtain ⟨rfl, rfl⟩ := Prod.mk.inj (Option.some.inj h)
      exact .failClears message
  case h_31 message =>
      obtain ⟨rfl, rfl⟩ := Prod.mk.inj (Option.some.inj h)
      exact .failSets message
  case h_32 => cases h

end ShaPrint.Updater
