import Mathlib.Data.List.Sort
import ShaPrint.Domain.Error
import ShaPrint.Lib.Digits
import ShaPrint.Lib.Fallible
import ShaPrint.Text

/-!
Who holds a port, the inspector for Linux of `adapters/port_binding.rs`.

* `System`: the socket tables and the processes that `/proc` shows.
* `owners`: the scan for the processes behind the sockets of a port. It crosses off a socket
  once it has found a process behind it.
* `scanFds_eq`, `mem_scanProcesses`: what is crossed off, and who is found: the first process
  that shows a socket.
* `mem_owners`, `owners_pids`: so the owners are those, each once and in the order of their
  numbers.
-/

namespace ShaPrint.Ports

open Digits Split

inductive PortTransport where
  | tcp
  | udp
  deriving DecidableEq

def PortTransport.asStr : PortTransport → String
  | .tcp => "TCP"
  | .udp => "UDP"

structure LinuxProcessIdentity where
  executable : Chars
  startTime : ℕ
  deriving DecidableEq

/-- One process reported as owning a local socket. -/
structure PortOwner where
  processId : ℕ
  processName : Chars
  linuxIdentity : Option LinuxProcessIdentity
  deriving DecidableEq

def unknownProcessName : Chars := "<unknown>".toList

/-- `trim_end_matches(".exe")`, from the end. -/
def trimExe : Chars → Chars
  | 'e' :: 'x' :: 'e' :: '.' :: rest => trimExe rest
  | name => name

/-- `PortOwner::is_shaprint`, by the name. -/
def isShaprintName (processName : Chars) : Bool :=
  let last := (processName.splitOnP fun c => c == '\\' || c == '/').getLast?.getD processName
  let name := (trimExe last.reverse).reverse
  eqIgnoreAsciiCase name "shaprint".toList || eqIgnoreAsciiCase name "shaprint-desktop".toList
    || eqIgnoreAsciiCase name "shaprintd".toList

def PortOwner.isShaprint (owner : PortOwner) : Bool := isShaprintName owner.processName

def PortOwner.isUnknown (owner : PortOwner) : Bool := owner.processName == unknownProcessName

/-! ### What `/proc` shows -/

/-- An open descriptor: the socket behind it, and whether its link can be read. -/
structure Fd where
  inode : Option ℕ
  readable : Bool
  deriving DecidableEq

structure Process where
  processId : ℕ
  /-- What `comm` holds, if it can be read. -/
  comm : Option Chars
  /-- What `linux_process_identity` reads. -/
  identity : Option LinuxProcessIdentity
  /-- Whether the descriptors can be listed. -/
  listable : Bool
  fds : List Fd
  deriving DecidableEq

/-- A socket table: the fields of its lines behind the first one. -/
inductive ProcFile where
  | missing
  | failed (message : String)
  | rows (rows : List (List Chars))
  deriving DecidableEq

/-- The socket tables, and the processes in the order in which `/proc` lists them. -/
structure System where
  socketFiles : PortTransport → List ProcFile
  procError : Option String
  processes : List Process
  nodup : (processes.map Process.processId).Nodup

/-- The socket that the scan sees behind a descriptor. -/
def Fd.seenInode (fd : Fd) : Option ℕ := if fd.readable then fd.inode else none

/-- The sockets that the scan sees of a process. -/
def Process.shows (p : Process) (inode : ℕ) : Bool :=
  p.listable && p.fds.any fun fd => fd.seenInode == some inode

def linuxProcessName (comm : Option Chars) : Chars :=
  ((comm.map trim).filter (· ≠ [])).getD unknownProcessName

def Process.owner (p : Process) : PortOwner :=
  ⟨p.processId, linuxProcessName p.comm, p.identity⟩

/-! ### The sockets of a port -/

/-- `u16::from_str_radix(…, 16)` -/
def parsePort (s : Chars) : Option ℕ :=
  let digits := (s.dropPrefix? ['+']).getD s
  if digits ≠ [] ∧ digits.all (isDigitOf 16) = true ∧ valueOf 16 digits < 65536 then
    some (valueOf 16 digits)
  else none

/-- The inode of a row, if it is a listening socket on the port. -/
def rowInode (transport : PortTransport) (port : ℕ) (fields : List Chars) : Option ℕ :=
  match fields[1]?.bind fun localAddress => rsplitOnce localAddress [':'] with
  | none => none
  | some (_, portHex) =>
      if parsePort portHex ≠ some port then none
      else if transport = .tcp ∧ fields[3]? ≠ some "0A".toList then none
      else fields[9]?.bind (parseUnsigned 18446744073709551615)

def fileInodes (transport : PortTransport) (port : ℕ) : ProcFile → Except String (List ℕ)
  | .missing => .ok []
  | .failed message => .error message
  | .rows rows => .ok (rows.filterMap (rowInode transport port))

def linuxSocketInodes (system : System) (transport : PortTransport) (port : ℕ) :
    Except String (List ℕ) :=
  ((system.socketFiles transport).mapM (fileInodes transport port)).map List.flatten

/-! ### The scan -/

/-- Crosses off what the descriptors of a process show; whether there was any. -/
def scanFds (remaining : List ℕ) : List Fd → Bool × List ℕ
  | [] => (false, remaining)
  | fd :: fds =>
      match fd.seenInode with
      | none => scanFds remaining fds
      | some inode =>
          if inode ∈ remaining then (true, (scanFds (remaining.filter (· ≠ inode)) fds).2)
          else scanFds remaining fds

/-- The loop over the entries of `/proc`. -/
def scanProcesses (remaining seenPids : List ℕ) : List Process → List PortOwner
  | [] => []
  | p :: ps =>
      if p.processId ∈ seenPids then scanProcesses remaining seenPids ps
      else if !p.listable then scanProcesses remaining (p.processId :: seenPids) ps
      else
        let (ownsSocket, rest) := scanFds remaining p.fds
        if ownsSocket then
          p.owner :: if rest = [] then [] else scanProcesses rest (p.processId :: seenPids) ps
        else scanProcesses rest (p.processId :: seenPids) ps

/-- The entry of a process. -/
def System.process? (system : System) (pid : ℕ) : Option Process :=
  system.processes.find? fun p => p.processId = pid

/-- Whether the current process shows a socket, and the sockets that are left. -/
def scanSelf (system : System) (currentPid : ℕ) (inodes : List ℕ) : Bool × List ℕ :=
  match system.process? currentPid with
  | some p => if p.listable then scanFds inodes p.fds else (false, inodes)
  | none => (false, inodes)

/-- The current process as an owner. -/
def selfOwner (system : System) (currentPid : ℕ) : PortOwner :=
  ((system.process? currentPid).map Process.owner).getD ⟨currentPid, unknownProcessName, none⟩

def sortByPid (owners : List PortOwner) : List PortOwner :=
  List.insertionSort (fun a b => a.processId ≤ b.processId) owners

def owners (system : System) (currentPid : ℕ) (transport : PortTransport) (port : ℕ) :
    Except String (List PortOwner) := do
  let socketInodes ← linuxSocketInodes system transport port
  if socketInodes = [] then return []
  let (ownsSelf, remaining) := scanSelf system currentPid socketInodes
  let selfOwners := if ownsSelf then [selfOwner system currentPid] else []
  if ownsSelf ∧ remaining = [] then return selfOwners
  match system.procError with
  | some e => .error e
  | none =>
      return sortByPid (selfOwners ++ scanProcesses remaining [currentPid] system.processes)

/-! ### What the scan finds -/

lemma scanFds_eq (remaining : List ℕ) (fds : List Fd) :
    scanFds remaining fds
      = (remaining.any fun i => fds.any fun fd => fd.seenInode == some i,
        remaining.filter fun i => !fds.any fun fd => fd.seenInode == some i) := by
  induction fds generalizing remaining with
  | nil => simp [scanFds]
  | cons fd fds ih =>
      rw [scanFds]
      split
      · rename_i hnone
        rw [ih]
        simp [hnone]
      · rename_i inode hsome
        split
        · rename_i hmem
          rw [ih, List.filter_filter]
          have hany : (remaining.any fun i => (fd :: fds).any fun fd => fd.seenInode == some i)
              = true := List.any_eq_true.mpr ⟨inode, hmem, by simp [hsome]⟩
          rw [hany]
          congr 1
          apply List.filter_congr
          intro i _
          by_cases hi : i = inode
          · simp [hi, hsome]
          · simp [hsome, hi, Ne.symm hi]
        · rename_i hmem
          have hother : ∀ i ∈ remaining, ((fd :: fds).any fun fd => fd.seenInode == some i)
              = fds.any fun fd => fd.seenInode == some i := by
            intro i hi
            have hne : inode ≠ i := by
              rintro rfl
              exact hmem hi
            simp [hsome, hne]
          rw [ih]
          congr 1
          · rw [Bool.eq_iff_iff, List.any_eq_true, List.any_eq_true]
            exact exists_congr fun i => and_congr_right fun hi => by rw [hother i hi]
          · apply List.filter_congr
            intro i hi
            rw [hother i hi]

/-- The processes that are not skipped, and the first of them that shows a socket. -/
lemma mem_scanProcesses {remaining seenPids : List ℕ} {ps : List Process} {o : PortOwner}
    (hnodup : (ps.map Process.processId).Nodup) :
    o ∈ scanProcesses remaining seenPids ps ↔ ∃ p, ∃ i ∈ remaining,
      (ps.filter fun q => q.processId ∉ seenPids).find? (fun q => q.shows i) = some p
        ∧ o = p.owner := by
  induction ps generalizing remaining seenPids with
  | nil => simp [scanProcesses]
  | cons p ps ih =>
      obtain ⟨hp, hps⟩ := List.nodup_cons.mp hnodup
      have hfilter : (ps.filter fun q => q.processId ∉ p.processId :: seenPids)
          = ps.filter fun q => q.processId ∉ seenPids := by
        apply List.filter_congr
        intro q hq
        have hne : q.processId ≠ p.processId := fun heq => hp (heq ▸ List.mem_map_of_mem hq)
        simp [hne]
      rw [scanProcesses]
      split_ifs with hseen hlistable
      · rw [List.filter_cons_of_neg (by simpa using hseen)]
        exact ih hps
      · have hshows : ∀ i, p.shows i = false := by
          intro i
          simp only [Bool.not_eq_true'] at hlistable
          simp [Process.shows, hlistable]
        rw [List.filter_cons_of_pos (by simpa using hseen), ih hps, hfilter]
        simp only [List.find?_cons, hshows]
      · have hlistable' : p.listable = true := by simpa using hlistable
        have hshows : ∀ i, (p.fds.any fun fd => fd.seenInode == some i) = p.shows i := by
          intro i
          rw [Process.shows, hlistable', Bool.true_and]
        have hsplit : (∃ q, ∃ i ∈ remaining,
            ((p :: ps.filter fun q => q.processId ∉ seenPids).find? fun q => q.shows i) = some q
              ∧ o = q.owner)
            ↔ (o = p.owner ∧ ∃ i ∈ remaining, p.shows i = true)
              ∨ ∃ q, ∃ i ∈ remaining.filter fun i => !p.shows i,
                ((ps.filter fun q => q.processId ∉ seenPids).find? fun q => q.shows i) = some q
                  ∧ o = q.owner := by
          constructor
          · rintro ⟨q, i, hi, hfind, ho⟩
            rw [List.find?_cons] at hfind
            split at hfind
            · rename_i hshow
              obtain rfl := Option.some.inj hfind
              exact .inl ⟨ho, i, hi, hshow⟩
            · rename_i hshow
              exact .inr ⟨q, i, List.mem_filter.mpr ⟨hi, by simpa using hshow⟩, hfind, ho⟩
          · rintro (⟨ho, i, hi, hshow⟩ | ⟨q, i, hi, hfind, ho⟩)
            · exact ⟨p, i, hi, by rw [List.find?_cons, hshow], ho⟩
            · obtain ⟨hi, hshow⟩ := List.mem_filter.mp hi
              have hshow : p.shows i = false := by simpa using hshow
              exact ⟨q, i, hi, by rw [List.find?_cons, hshow, hfind], ho⟩
        rw [List.filter_cons_of_pos (by simpa using hseen), hsplit, scanFds_eq, ← hfilter]
        simp only [hshows]
        split
        · rename_i hany
          obtain ⟨i, hi, hshow⟩ := List.any_eq_true.mp hany
          rw [List.mem_cons]
          apply or_congr
          · exact (and_iff_left ⟨i, hi, hshow⟩).symm
          · split
            · rename_i hnil
              simp [hnil]
            · exact ih hps
        · rename_i hany
          have hnone : ¬ ∃ i ∈ remaining, p.shows i = true := fun ⟨i, hi, hshow⟩ =>
            hany (List.any_eq_true.mpr ⟨i, hi, hshow⟩)
          rw [ih hps]
          exact (or_iff_right fun h => hnone h.2).symm

lemma scanProcesses_pids (remaining seenPids : List ℕ) (ps : List Process) :
    ((scanProcesses remaining seenPids ps).map PortOwner.processId).Sublist
      ((ps.filter fun q => q.processId ∉ seenPids).map Process.processId) := by
  induction ps generalizing remaining seenPids with
  | nil => exact List.Sublist.refl _
  | cons p ps ih =>
      have hfilter : ((ps.filter fun q => q.processId ∉ p.processId :: seenPids).map
          Process.processId).Sublist
            ((ps.filter fun q => q.processId ∉ seenPids).map Process.processId) := by
        apply List.Sublist.map
        apply List.monotone_filter_right
        intro q hq
        simp only [List.mem_cons, not_or, decide_eq_true_eq] at hq ⊢
        exact hq.2
      rw [scanProcesses]
      split_ifs with hseen hlistable
      · rw [List.filter_cons_of_neg (by simpa using hseen)]
        exact ih _ _
      · rw [List.filter_cons_of_pos (by simpa using hseen)]
        exact ((ih _ _).trans hfilter).cons _
      · rw [List.filter_cons_of_pos (by simpa using hseen)]
        dsimp only
        split
        · rw [List.map_cons, List.map_cons]
          apply List.Sublist.cons_cons
          split
          · exact List.nil_sublist _
          · exact (ih _ _).trans hfilter
        · exact ((ih _ _).trans hfilter).cons _

/-! ### The owners -/

/-- The order in which the scan meets the processes: the current one first. -/
def scanOrder (system : System) (currentPid : ℕ) : List Process :=
  (system.process? currentPid).toList
    ++ system.processes.filter fun p => p.processId ∉ [currentPid]

/-- A process that the scan finds: the first one to show a socket. -/
def Finds (system : System) (currentPid : ℕ) (inodes : List ℕ) (p : Process) : Prop :=
  ∃ i ∈ inodes, (scanOrder system currentPid).find? (fun q => q.shows i) = some p

lemma process?_eq_some {system : System} {pid : ℕ} {p : Process}
    (h : system.process? pid = some p) : p ∈ system.processes ∧ p.processId = pid :=
  ⟨List.mem_of_find?_eq_some h, by simpa using List.find?_some h⟩

lemma scanSelf_eq (system : System) (currentPid : ℕ) (inodes : List ℕ) :
    scanSelf system currentPid inodes
      = (inodes.any fun i => (system.process? currentPid).any fun p => p.shows i,
        inodes.filter fun i => !(system.process? currentPid).any fun p => p.shows i) := by
  unfold scanSelf
  cases system.process? currentPid with
  | none => simp
  | some p =>
      dsimp only
      split
      · rename_i hlistable
        rw [scanFds_eq]
        simp [Process.shows, hlistable]
      · rename_i hlistable
        simp [Process.shows, hlistable]

/-- Who is found, the current process or one of the others. -/
lemma finds_iff {system : System} {currentPid : ℕ} {inodes : List ℕ} {p : Process} :
    Finds system currentPid inodes p
      ↔ (system.process? currentPid = some p ∧ ∃ i ∈ inodes, p.shows i = true)
        ∨ ∃ i ∈ (scanSelf system currentPid inodes).2,
          (system.processes.filter fun q => q.processId ∉ [currentPid]).find?
            (fun q => q.shows i) = some p := by
  rw [Finds, scanOrder, scanSelf_eq]
  cases system.process? currentPid with
  | none => simp
  | some self =>
      simp only [Option.toList_some, List.singleton_append, List.find?_cons, Option.any_some,
        List.mem_filter, Option.some.injEq]
      constructor
      · rintro ⟨i, hi, hfind⟩
        split at hfind
        · rename_i hshow
          obtain rfl := Option.some.inj hfind
          exact .inl ⟨rfl, i, hi, hshow⟩
        · rename_i hshow
          exact .inr ⟨i, ⟨hi, by simp [hshow]⟩, hfind⟩
      · rintro (⟨rfl, i, hi, hshow⟩ | ⟨i, ⟨hi, hshow⟩, hfind⟩)
        · exact ⟨i, hi, by rw [hshow]⟩
        · have hshow : self.shows i = false := by simpa using hshow
          exact ⟨i, hi, by rw [hshow, hfind]⟩

lemma mem_selfOwners {system : System} {currentPid : ℕ} {inodes : List ℕ} {o : PortOwner} :
    o ∈ (if (scanSelf system currentPid inodes).1 then [selfOwner system currentPid] else [])
      ↔ ∃ p, (system.process? currentPid = some p ∧ ∃ i ∈ inodes, p.shows i = true)
        ∧ o = p.owner := by
  rw [scanSelf_eq, selfOwner]
  cases system.process? currentPid with
  | none => simp
  | some self =>
      simp only [Option.any_some, Option.map_some, Option.getD_some, Option.some.injEq]
      constructor
      · intro ho
        split at ho
        · rename_i hany
          obtain ⟨i, hi, hshow⟩ := List.any_eq_true.mp hany
          exact ⟨self, ⟨rfl, i, hi, hshow⟩, List.mem_singleton.mp ho⟩
        · cases ho
      · rintro ⟨p, ⟨rfl, i, hi, hshow⟩, rfl⟩
        rw [if_pos (List.any_eq_true.mpr ⟨i, hi, hshow⟩)]
        exact List.mem_singleton_self _

/-- What an inspection reports: who is found, each once, in the order of their numbers. -/
structure IsReport (system : System) (currentPid : ℕ) (inodes : List ℕ) (os : List PortOwner) :
    Prop where
  mem_iff : ∀ o, o ∈ os ↔ ∃ p, Finds system currentPid inodes p ∧ o = p.owner
  nodup : (os.map PortOwner.processId).Nodup
  sorted : os.Pairwise fun a b => a.processId ≤ b.processId

lemma nodup_selfOwners_append (system : System) (currentPid : ℕ) (inodes remaining : List ℕ) :
    (((if (scanSelf system currentPid inodes).1 then [selfOwner system currentPid] else [])
      ++ scanProcesses remaining [currentPid] system.processes).map PortOwner.processId).Nodup := by
  have hsub := scanProcesses_pids remaining [currentPid] system.processes
  have hnodup : ((system.processes.filter fun q => q.processId ∉ [currentPid]).map
      Process.processId).Nodup := system.nodup.sublist (List.filter_sublist.map _)
  rw [List.map_append, List.nodup_append]
  refine ⟨?_, hnodup.sublist hsub, ?_⟩
  · split
    · exact List.nodup_singleton _
    · exact List.nodup_nil
  · intro pid hpid pid' hpid' heq
    -- the current process is skipped in the loop
    obtain ⟨o, ho, rfl⟩ := List.mem_map.mp hpid
    obtain ⟨p, ⟨hp, -⟩, rfl⟩ := mem_selfOwners.mp ho
    obtain ⟨q, hq, hqpid⟩ := List.mem_map.mp (hsub.mem hpid')
    have hother := (List.mem_filter.mp hq).2
    have hself : p.owner.processId = currentPid := (process?_eq_some hp).2
    simp [hqpid, ← heq, hself] at hother

/-- **The inspection.** It reports the first process, in the order of the scan, that shows a
socket of the port. -/
theorem isReport_of_owners {system : System} {currentPid port : ℕ} {transport : PortTransport}
    {os : List PortOwner} (h : owners system currentPid transport port = .ok os) :
    ∃ inodes, linuxSocketInodes system transport port = .ok inodes
      ∧ IsReport system currentPid inodes os := by
  obtain ⟨inodes, hinodes, h⟩ := except_do_eq_ok.mp h
  refine ⟨inodes, hinodes, ?_⟩
  split at h
  · rename_i hnil
    obtain rfl := Except.ok.inj h
    subst hnil
    exact ⟨by simp [Finds], List.nodup_nil, .nil⟩
  · dsimp only at h
    split at h
    · rename_i hall
      obtain rfl := Except.ok.inj h
      refine ⟨fun o => ?_, ?_, ?_⟩
      · rw [mem_selfOwners]
        simp only [finds_iff, hall.2, List.not_mem_nil, false_and, exists_false, or_false]
      · rw [if_pos hall.1]
        exact List.nodup_singleton _
      · rw [if_pos hall.1]
        exact List.pairwise_singleton _ _
    · split at h
      · cases h
      · obtain rfl := Except.ok.inj h
        have hperm := List.perm_insertionSort (fun a b : PortOwner => a.processId ≤ b.processId)
          ((if (scanSelf system currentPid inodes).1 then [selfOwner system currentPid] else [])
            ++ scanProcesses (scanSelf system currentPid inodes).2 [currentPid] system.processes)
        refine ⟨fun o => ?_, ?_, ?_⟩
        · rw [sortByPid, hperm.mem_iff, List.mem_append, mem_selfOwners,
            mem_scanProcesses system.nodup]
          simp only [finds_iff, or_and_right, exists_or]
          apply or_congr_right
          constructor
          · rintro ⟨p, i, hi, hfind, ho⟩
            exact ⟨p, ⟨i, hi, hfind⟩, ho⟩
          · rintro ⟨p, ⟨i, hi, hfind⟩, ho⟩
            exact ⟨p, i, hi, hfind, ho⟩
        · exact (hperm.map _).nodup_iff.mpr (nodup_selfOwners_append ..)
        · exact List.pairwise_insertionSort _ _

/-- Where the tables and the processes can be read, there is a report. -/
lemma exists_owners {system : System} {currentPid port : ℕ} {transport : PortTransport}
    {inodes : List ℕ} (hinodes : linuxSocketInodes system transport port = .ok inodes)
    (hproc : system.procError = none) :
    ∃ os, owners system currentPid transport port = .ok os := by
  rw [owners, hinodes, except_ok_do]
  dsimp only
  split
  · exact ⟨_, rfl⟩
  · split
    · exact ⟨_, rfl⟩
    · rw [hproc]
      exact ⟨_, rfl⟩

/-- Where the processes cannot be listed, there is a report only of the current process. -/
lemma procError_of_owners {system : System} {currentPid port : ℕ} {transport : PortTransport}
    {os : List PortOwner} (h : owners system currentPid transport port = .ok os)
    (hother : ∀ o ∈ os, o.processId ≠ currentPid) (hne : os ≠ []) : system.procError = none := by
  obtain ⟨inodes, -, h⟩ := except_do_eq_ok.mp h
  split at h
  · exact absurd (Except.ok.inj h).symm hne
  · dsimp only at h
    split at h
    · obtain rfl := Except.ok.inj h
      obtain ⟨o, ho⟩ := List.exists_mem_of_ne_nil _ hne
      obtain ⟨p, ⟨hp, -⟩, rfl⟩ := mem_selfOwners.mp ho
      exact absurd (process?_eq_some hp).2 (hother _ ho)
    · split at h
      · cases h
      · assumption

lemma Finds.mem {system : System} {currentPid : ℕ} {inodes : List ℕ} {p : Process}
    (h : Finds system currentPid inodes p) :
    p ∈ system.processes ∧ ∃ i ∈ inodes, p.shows i = true := by
  obtain ⟨i, hi, hfind⟩ := h
  refine ⟨?_, i, hi, by simpa using List.find?_some hfind⟩
  rcases List.mem_append.mp (List.mem_of_find?_eq_some hfind) with hp | hp
  · exact (process?_eq_some (Option.mem_toList.mp hp)).1
  · exact (List.mem_filter.mp hp).1

lemma System.eq_of_processId {system : System} {p q : Process} (hp : p ∈ system.processes)
    (hq : q ∈ system.processes) (h : p.processId = q.processId) : p = q :=
  List.inj_on_of_nodup_map system.nodup hp hq h

end ShaPrint.Ports
