import ShaPrint.Ports.Inspector

/-!
Reclaiming a busy port, `PortBinder::reclaim` of `adapters/port_binding.rs`.

* `terminateRefusal`: the checks before a process is signalled.
* `reclaim`: the inspection, the signals, and the wait for the port; with the processes that
  were signalled.
* `ReclaimsSafely`: a process is signalled only if every holder of the port is a stale ShaPrint
  process, and at most once.
* `reclaimsSafely_iff`: that holds exactly when every holder is one, or nothing is signalled. The
  inspection does not report every holder (`shared_socket_kills`).
-/

namespace ShaPrint.Ports

open Digits Split

/-- A computer: the current process, what the inspections see, and what happens to signals. -/
structure Computer where
  currentPid : ℕ
  system : System
  /-- What `linux_process_identity` reads just before a signal. -/
  identityNow : ℕ → Option LinuxProcessIdentity
  /-- What `comm` holds just before a signal. -/
  commNow : ℕ → Option Chars
  /-- How `/bin/kill` ends. -/
  kill : ℕ → Except String Unit
  /-- What the inspections see that follow the signals, before the deadline and at it. -/
  polls : List System
  last : System

def conflictError (transport : PortTransport) (port : ℕ) (owner : PortOwner) : AppError :=
  let name := String.ofList owner.processName
  .internal s!"{transport.asStr} port {port} is in use by process '{name}' (PID {owner.processId}); ShaPrint did not terminate it. Close that program or choose another port."

def unidentifiedError (transport : PortTransport) (port : ℕ) : AppError :=
  .internal s!"{transport.asStr} port {port} is in use, but its process owner could not be identified; no process was terminated"

def inspectError (transport : PortTransport) (port : ℕ) (error : String) : AppError :=
  .internal s!"cannot inspect the process using {transport.asStr} port {port}; no process was terminated: {error}"

def terminateError (transport : PortTransport) (port : ℕ) (owner : PortOwner) (error : String) :
    AppError :=
  let name := String.ofList owner.processName
  .internal s!"could not terminate stale ShaPrint process '{name}' (PID {owner.processId}) holding {transport.asStr} port {port}: {error}"

def timeoutError (transport : PortTransport) (port : ℕ) (owner : PortOwner) : AppError :=
  let name := String.ofList owner.processName
  .internal s!"stale ShaPrint process '{name}' (PID {owner.processId}) did not release {transport.asStr} port {port} within 3 seconds"

/-- `Path::file_name` -/
def fileName (path : Chars) : Option Chars :=
  ((path.splitOn '/').filter fun part => part ≠ [] && part ≠ ['.']).getLast?.filter
    (· ≠ ['.', '.'])

def linuxExecutableIsShaprint (executable : Chars) : Bool := (fileName executable).any isShaprintName

section

variable (c : Computer) (transport : PortTransport) (port : ℕ)

/-- Why an owner is not signalled. -/
def terminateRefusal (owner : PortOwner) : Option String :=
  if owner.processId = c.currentPid || !owner.isShaprint then
    some "refusing to terminate the current or an unrelated process"
  else
    match owner.linuxIdentity with
    | none => some "stale port owner identity is unavailable; refusing to terminate it"
    | some expectedIdentity =>
        match c.identityNow owner.processId with
        | none => some "stale port owner identity disappeared; refusing to terminate it"
        | some currentIdentity =>
            if currentIdentity ≠ expectedIdentity
                || !linuxExecutableIsShaprint currentIdentity.executable then
              some "stale port owner identity changed; refusing to terminate it"
            else
              let currentName := linuxProcessName (c.commNow owner.processId)
              if currentName = unknownProcessName
                  || !eqIgnoreAsciiCase currentName owner.processName
                  || !isShaprintName currentName then
                some "stale port owner identity changed; refusing to terminate it"
              else none

/-- `terminate`: the process that is signalled, and the result. -/
def terminate (owner : PortOwner) : List ℕ × Except String Unit :=
  match terminateRefusal c owner with
  | some message => ([], .error message)
  | none => ([owner.processId], c.kill owner.processId)

def terminateAll : List PortOwner → List ℕ × Except AppError Unit
  | [] => ([], .ok ())
  | owner :: owners =>
      match terminate c owner with
      | (signalled, .error e) => (signalled, .error (terminateError transport port owner e))
      | (signalled, .ok ()) =>
          let (more, result) := terminateAll owners
          (signalled ++ more, result)

/-- `inspect` -/
def inspect (system : System) : Except AppError (List PortOwner) :=
  (owners system c.currentPid transport port).mapError (inspectError transport port)

/-- One turn of the wait; `none` while the port is still held by processes that may release it. -/
def pollTurn (terminated : List ℕ) (system : System) :
    Except AppError (Option (List PortOwner)) := do
  let remaining ← inspect c transport port system
  if remaining = [] then return none
  match remaining.find? fun owner =>
      owner.processId = c.currentPid
        || !owner.isShaprint && !(owner.isUnknown && terminated.contains owner.processId) with
  | some owner => .error (conflictError transport port owner)
  | none => return some remaining

/-- The wait for the processes to release the port. -/
def awaitRelease (terminated : List ℕ) : List System → Except AppError Unit
  | [] => do
      match ← pollTurn c transport port terminated c.last with
      | some (owner :: _) => .error (timeoutError transport port owner)
      | _ => return ()
  | system :: systems => do
      match ← pollTurn c transport port terminated system with
      | some _ => awaitRelease terminated systems
      | none => return ()

/-- `reclaim`: the processes that are signalled, and the result. -/
def reclaim : List ℕ × Except AppError Unit :=
  match inspect c transport port c.system with
  | .error e => ([], .error e)
  | .ok owners =>
      if owners = [] then ([], .error (unidentifiedError transport port))
      else
        match owners.find? fun owner => owner.processId = c.currentPid || !owner.isShaprint with
        | some owner => ([], .error (conflictError transport port owner))
        | none =>
            match terminateAll c transport port owners with
            | (signalled, .error e) => (signalled, .error e)
            | (signalled, .ok ()) =>
                (signalled,
                  awaitRelease c transport port (owners.map PortOwner.processId) c.polls)

/-! ### Holders -/

/-- A process that holds a listening socket on the port. -/
def Holds (p : Process) : Prop :=
  p ∈ c.system.processes ∧ ∃ inodes, linuxSocketInodes c.system transport port = .ok inodes
    ∧ ∃ i ∈ inodes, ∃ fd ∈ p.fds, fd.inode = some i

/-- A ShaPrint process other than the current one. -/
def IsStale (p : Process) : Prop := p.processId ≠ c.currentPid ∧ p.owner.isShaprint = true

/-- What reclaiming promises. -/
structure ReclaimsSafely : Prop where
  only : ∀ pid ∈ (reclaim c transport port).1, ∀ p, Holds c transport port p → IsStale c p
  once : (reclaim c transport port).1.Nodup
  holder : ∀ pid ∈ (reclaim c transport port).1, ∃ p, Holds c transport port p ∧ p.processId = pid

/-- The inspection reports only stale ShaPrint processes, and nothing keeps the first of them, by
number, from being signalled. -/
def Signals : Prop :=
  c.system.procError = none ∧ ∃ inodes, linuxSocketInodes c.system transport port = .ok inodes
    ∧ (∀ p, Finds c.system c.currentPid inodes p → IsStale c p)
    ∧ ∃ p, Finds c.system c.currentPid inodes p ∧ terminateRefusal c p.owner = none
      ∧ ∀ q, Finds c.system c.currentPid inodes q → p.processId ≤ q.processId

end

/-! ### Signals -/

variable (c : Computer) (transport : PortTransport) (port : ℕ)

lemma terminateAll_sublist (os : List PortOwner) :
    (terminateAll c transport port os).1.Sublist (os.map PortOwner.processId) := by
  induction os with
  | nil => exact List.Sublist.refl _
  | cons o os ih =>
      have hone : (terminate c o).1.Sublist [o.processId] := by
        unfold terminate
        split
        · exact List.nil_sublist _
        · exact List.Sublist.refl _
      rw [terminateAll]
      split
      · rename_i signalled e heq
        rw [heq] at hone
        exact hone.trans (List.singleton_sublist.mpr List.mem_cons_self)
      · rename_i signalled heq
        rw [heq] at hone
        exact hone.append ih

variable {c transport port}

/-- Whether anything is signalled is up to the first owner. -/
lemma terminateAll_ne_nil (o : PortOwner) (os : List PortOwner) :
    (terminateAll c transport port (o :: os)).1 ≠ [] ↔ terminateRefusal c o = none := by
  rw [terminateAll, terminate]
  cases hrefusal : terminateRefusal c o with
  | some message => simp
  | none => cases hkill : c.kill o.processId <;> simp

lemma isStale_iff {p : Process} : IsStale c p
    ↔ (p.owner.processId = c.currentPid || !p.owner.isShaprint) = false := by
  rw [IsStale, Bool.or_eq_false_iff, decide_eq_false_iff_not, Bool.not_eq_false']
  rfl

/-- What is signalled once the inspection has reported some owners. -/
lemma reclaim_of_owners {os : List PortOwner}
    (h : owners c.system c.currentPid transport port = .ok os) :
    (reclaim c transport port).1
      = if ∀ o ∈ os, (o.processId = c.currentPid || !o.isShaprint) = false then
          (terminateAll c transport port os).1
        else [] := by
  rw [reclaim, inspect, h]
  dsimp only [Except.mapError]
  split
  · rename_i hnil
    subst hnil
    simp [terminateAll]
  · split
    · rename_i o ho
      rw [if_neg]
      intro hall
      have hbad := List.find?_some ho
      rw [hall o (List.mem_of_find?_eq_some ho)] at hbad
      cases hbad
    · rename_i hnone
      rw [List.find?_eq_none] at hnone
      rw [if_pos fun o ho => Bool.eq_false_iff.mpr (hnone o ho)]
      split <;> rename_i heq <;> rw [heq]

lemma reclaim_of_error {e : String} (h : owners c.system c.currentPid transport port = .error e) :
    (reclaim c transport port).1 = [] := by
  rw [reclaim, inspect, h]
  rfl

/-- **When something is signalled.** -/
theorem reclaim_ne_nil_iff : (reclaim c transport port).1 ≠ [] ↔ Signals c transport port := by
  constructor
  · intro hne
    cases howners : owners c.system c.currentPid transport port with
    | error e => exact absurd (reclaim_of_error howners) hne
    | ok os =>
        obtain ⟨inodes, hinodes, hreport⟩ := isReport_of_owners howners
        rw [reclaim_of_owners howners] at hne
        split at hne
        · rename_i hall
          cases os with
          | nil => exact absurd rfl hne
          | cons o os =>
              have hstale : ∀ p, Finds c.system c.currentPid inodes p → IsStale c p := fun p hp =>
                isStale_iff.mpr (hall _ ((hreport.mem_iff _).mpr ⟨p, hp, rfl⟩))
              obtain ⟨p, hp, rfl⟩ := (hreport.mem_iff o).mp List.mem_cons_self
              refine ⟨?_, inodes, hinodes, hstale, p, hp, (terminateAll_ne_nil ..).mp hne, ?_⟩
              · refine procError_of_owners howners (fun o ho => ?_) (List.cons_ne_nil _ _)
                obtain ⟨q, hq, rfl⟩ := (hreport.mem_iff o).mp ho
                exact (hstale q hq).1
              · intro q hq
                rcases List.mem_cons.mp ((hreport.mem_iff _).mpr ⟨q, hq, rfl⟩) with heq | hmem
                · exact (congrArg PortOwner.processId heq).ge
                · exact (List.pairwise_cons.mp hreport.sorted).1 _ hmem
        · exact absurd rfl hne
  · rintro ⟨hproc, inodes, hinodes, hstale, p, hp, hrefusal, hleast⟩
    obtain ⟨os, howners⟩ := exists_owners hinodes hproc
    obtain ⟨inodes', hinodes', hreport⟩ := isReport_of_owners howners
    obtain rfl := Except.ok.inj (hinodes.symm.trans hinodes')
    have hall : ∀ o ∈ os, (o.processId = c.currentPid || !o.isShaprint) = false := by
      intro o ho
      obtain ⟨q, hq, rfl⟩ := (hreport.mem_iff o).mp ho
      exact isStale_iff.mp (hstale q hq)
    rw [reclaim_of_owners howners, if_pos hall]
    have hmem := (hreport.mem_iff p.owner).mpr ⟨p, hp, rfl⟩
    cases os with
    | nil => cases hmem
    | cons o os =>
        obtain ⟨q, hq, rfl⟩ := (hreport.mem_iff o).mp List.mem_cons_self
        have hle : q.processId ≤ p.processId := by
          rcases List.mem_cons.mp hmem with heq | hmem
          · exact (congrArg PortOwner.processId heq).ge
          · exact (List.pairwise_cons.mp hreport.sorted).1 _ hmem
        obtain rfl := System.eq_of_processId hp.mem.1 hq.mem.1 ((hleast q hq).antisymm hle)
        exact (terminateAll_ne_nil ..).mpr hrefusal

/-- Who is found holds the port. -/
lemma Finds.holds {inodes : List ℕ} {p : Process}
    (hinodes : linuxSocketInodes c.system transport port = .ok inodes)
    (h : Finds c.system c.currentPid inodes p) : Holds c transport port p := by
  obtain ⟨hp, i, hi, hshows⟩ := h.mem
  obtain ⟨-, hany⟩ := Bool.and_eq_true_iff.mp hshows
  obtain ⟨fd, hfd, hseen⟩ := List.any_eq_true.mp hany
  have hseen : fd.seenInode = some i := by simpa using hseen
  refine ⟨hp, inodes, hinodes, i, hi, fd, hfd, ?_⟩
  unfold Fd.seenInode at hseen
  split at hseen
  · exact hseen
  · cases hseen

/-- Who is signalled was reported, and is signalled once. -/
lemma reclaim_holders (c : Computer) (transport : PortTransport) (port : ℕ) :
    (reclaim c transport port).1.Nodup ∧ ∀ pid ∈ (reclaim c transport port).1,
      ∃ p, Holds c transport port p ∧ p.processId = pid := by
  cases howners : owners c.system c.currentPid transport port with
  | error e =>
      rw [reclaim_of_error howners]
      exact ⟨List.nodup_nil, by simp⟩
  | ok os =>
      obtain ⟨inodes, hinodes, hreport⟩ := isReport_of_owners howners
      rw [reclaim_of_owners howners]
      split
      · have hsub := terminateAll_sublist c transport port os
        refine ⟨hreport.nodup.sublist hsub, fun pid hpid => ?_⟩
        obtain ⟨o, ho, rfl⟩ := List.mem_map.mp (hsub.mem hpid)
        obtain ⟨p, hp, rfl⟩ := (hreport.mem_iff o).mp ho
        exact ⟨p, Finds.holds hinodes hp, rfl⟩
      · exact ⟨List.nodup_nil, by simp⟩

/-- **When reclaiming is safe.** Only holders of the port are signalled, each once. A signal
means that every holder is a stale ShaPrint process exactly if that is so, or nothing is
signalled. -/
theorem reclaimsSafely_iff (c : Computer) (transport : PortTransport) (port : ℕ) :
    ReclaimsSafely c transport port
      ↔ (∀ p, Holds c transport port p → IsStale c p) ∨ ¬ Signals c transport port := by
  obtain ⟨honce, hholder⟩ := reclaim_holders c transport port
  rw [← reclaim_ne_nil_iff, not_not]
  constructor
  · intro hsafe
    rw [or_iff_not_imp_right]
    intro hne
    obtain ⟨pid, hpid⟩ := List.exists_mem_of_ne_nil _ hne
    exact hsafe.only pid hpid
  · rintro (hall | hnil)
    · exact ⟨fun _ _ => hall, honce, hholder⟩
    · refine ⟨fun pid hpid => ?_, honce, hholder⟩
      rw [hnil] at hpid
      cases hpid

/-! ### A shared socket -/

/-- A stale server. -/
def staleServer : Process where
  processId := 100
  comm := some "shaprintd\n".toList
  identity := some ⟨"/usr/bin/shaprintd".toList, 5⟩
  listable := true
  fds := [⟨some 7, true⟩]

/-- Another program that was started with its socket. -/
def otherProgram : Process where
  processId := 200
  comm := some "python3\n".toList
  identity := some ⟨"/usr/bin/python3".toList, 9⟩
  listable := true
  fds := [⟨none, true⟩, ⟨some 7, true⟩]

/-- A computer where both hold the listening socket on port 8631. -/
def sharedSocket : Computer where
  currentPid := 300
  system := {
    socketFiles := fun transport =>
      if transport = .tcp then
        [.rows [["0:".toList, "0100007F:21B7".toList, "00000000:0000".toList, "0A".toList,
          "00000000:00000000".toList, "00:00000000".toList, "00000000".toList, "1000".toList,
          "0".toList, "7".toList]]]
      else []
    procError := none
    processes := [staleServer, otherProgram]
    nodup := by decide }
  identityNow := fun pid => if pid = 100 then staleServer.identity else none
  commNow := fun pid => if pid = 100 then staleServer.comm else none
  kill := fun _ => .ok ()
  polls := []
  last := ⟨fun _ => [], none, [], List.nodup_nil⟩

/-- The server is terminated, though the other program holds the socket as well. -/
theorem shared_socket_kills : ¬ ∀ (c : Computer) (transport : PortTransport) (port : ℕ),
    ReclaimsSafely c transport port := by
  intro h
  have hsignalled : 100 ∈ (reclaim sharedSocket .tcp 8631).1 := by decide +kernel
  have hinodes : linuxSocketInodes sharedSocket.system .tcp 8631 = .ok [7] := by decide +kernel
  have hholds : Holds sharedSocket .tcp 8631 otherProgram :=
    ⟨by decide, [7], hinodes, 7, by decide, ⟨some 7, true⟩, by decide, rfl⟩
  have hstale := (h sharedSocket .tcp 8631).only 100 hsignalled otherProgram hholds
  exact absurd hstale.2 (by decide +kernel)

end ShaPrint.Ports
