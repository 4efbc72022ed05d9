import ShaPrint.Channel.Restart
import ShaPrint.Cli.Arguments

/-!
Replacing the Network Channel: `NetworkChannel::configure` by itself, and the command
`shaprintctl network-channel set` of `adapters/daemon.rs`, which writes the client credential
before it asks the daemon and puts the old one back if that fails.

* `Secret`: what the command reads.
* `World`, `Attempt`, `setNetworkChannel`: the files and the daemon's memory, what fails on the
  way, and the command.
* `Belongs`: the files and the memory are of one channel.
* `configure_unstored`, `requestEnds`: where a configuration and a request end.
* `allOrNothing_iff`: when a change is all or nothing (`lost_reply_splits`).
-/

namespace ShaPrint.Channel

open Cli

/-! ### The command -/

/-- A channel as the command reads it, from whatever source: one line without its end. -/
structure Secret where
  value : String
  nonempty : value ≠ ""
  trimmed : trimEndNewlines value = value

/-- The files of a machine, and the channel in the memory of its daemon. -/
structure World where
  disk : Disk
  memory : NetworkChannel

/-- What becomes of the request to the daemon. The handling of a connection can be dropped at its
deadline, while the files are written. -/
inductive Link where
  | up
  | unsent (error : AppError)
  | lost (error : AppError)
  | dropped (error : AppError)

/-- What happens on the way of a command. -/
structure Attempt where
  /-- The command runs as root for the socket of the machine. -/
  root : Bool
  /-- The writing of the client credential. -/
  credential : Except AppError Unit := .ok ()
  /-- The file with the old credential can be read. -/
  readable : Bool := true
  link : Link := .up
  /-- The daemon does not take the request. -/
  refusal : Option AppError := none
  salt : Option Salt
  /-- The writes of the daemon. -/
  writes : Writes := {}
  /-- The writing of the old credential. -/
  restore : Except AppError Unit := .ok ()
  /-- The removal of the new credential. -/
  removes : Bool := true

section

variable (X : Services)

/-- `NetworkChannel::configure`, on the files and on the memory. -/
def World.configure (setup : Setup) (writes : Writes) (salt : Option Salt) (channel : String)
    (w : World) : Except AppError Unit × World :=
  match Channel.configure X setup writes salt w.disk channel with
  | (.ok configured, disk) => (.ok (), ⟨disk, configured⟩)
  | (.error e, disk) => (.error e, ⟨disk, w.memory⟩)

namespace Attempt

variable (a : Attempt)

/-- The daemon's side of the request. -/
def serve (channel : String) (w : World) : Except AppError Unit × World :=
  match a.refusal with
  | some e => (.error e, w)
  | none => w.configure X linuxDaemon a.writes a.salt channel

/-- `configure_network_channel` of the client. -/
def request (channel : String) (w : World) : Except AppError Unit × World :=
  match a.link with
  | .up => a.serve X channel w
  | .unsent e => (.error e, w)
  | .lost e => (.error e, (a.serve X channel w).2)
  | .dropped e => (.error e, ⟨(a.serve X channel w).2.disk, w.memory⟩)

/-- The old credential, as text. -/
def previous (w : World) : Option String :=
  if a.readable then w.disk.credentialFile.bind fromUtf8 else none

/-- Puts the old credential back. -/
def restored (previous : Option String) (w : World) : World :=
  match previous with
  | some prev =>
      match persistMachineCredential a.restore w.disk (trimEndNewlines prev) with
      | .ok disk => { w with disk }
      | .error _ => w
  | none =>
      if a.removes then { w with disk := { w.disk with credentialFile := none } } else w

end Attempt

/-- `shaprintctl network-channel set`, once the channel is read. -/
def setNetworkChannel (a : Attempt) (secret : Secret) (w : World) :
    Except AppError Unit × World :=
  if a.root then
    match persistMachineCredential a.credential w.disk secret.value with
    | .error e => (.error e, w)
    | .ok disk =>
        match a.request X secret.value { w with disk } with
        | (.ok (), w') => (.ok (), w')
        | (.error e, w') => (.error e, a.restored (a.previous w) w')
  else a.request X secret.value w

/-- What the command reads is a channel of this kind. -/
lemma exists_secret_of_read {input : Bytes} {text : String}
    (h : readSecretFromReader input = .ok text) : ∃ secret : Secret, secret.value = text := by
  unfold readSecretFromReader at h
  simp only at h
  split at h
  · cases h
  · rename_i raw hraw
    split_ifs at h with hlong hempty
    obtain rfl := Except.ok.inj h
    refine ⟨⟨_, fun hnil => hempty ?_, trimEndNewlines_trimEndNewlines raw⟩, rfl⟩
    exact String.toList_ofList.symm.trans (congrArg String.toList hnil)

/-! ### One channel -/

/-- The verifier is that of a channel, or there is none. -/
def VerifierOf (verifier : Option ChannelVerifier) : Option String → Prop
  | none => verifier = none
  | some c => ∃ salt, verifier = some ⟨salt, channelDigest X salt c⟩

/-- The credential file is that of a channel, or there is none. -/
def CredentialOf (file : Option Bytes) : Option String → Prop
  | none => file = none
  | some c => ∃ bytes, file = some bytes ∧ readCredentialFile bytes = .ok c

/-- The verifier file is that of a channel, on Windows with the protected credential. -/
def VerifierFileOf (platform : Platform) (file : Option Bytes) (channel : Option String) : Prop :=
  ∃ verifier secret, readVerifierFile X platform file = .ok (verifier, secret)
    ∧ VerifierOf X verifier channel ∧ (platform = .windows → secret = channel)

/-- The files and the memory are those of one channel, or of none. -/
structure Belongs (setup : Setup) (w : World) (channel : Option String) : Prop where
  credential : setup.namesCredentialFile = true → CredentialOf w.disk.credentialFile channel
  verifierFile : VerifierFileOf X setup.platform w.disk.verifierFile channel
  verifier : VerifierOf X w.memory.verifier channel
  secret : w.memory.clientSecret = channel

/-- A change of the channel. -/
inductive Change where
  | command (attempt : Attempt) (secret : Secret)
  | configure (setup : Setup) (writes : Writes) (salt : Option Salt) (channel : String)

namespace Change

def channel : Change → String
  | command _ secret => secret.value
  | configure _ _ _ channel => channel

def setup : Change → Setup
  | command _ _ => linuxDaemon
  | configure setup _ _ _ => setup

def run : Change → World → Except AppError Unit × World
  | command a secret, w => setNetworkChannel X a secret w
  | configure setup writes salt channel, w => w.configure X setup writes salt channel

/-- Success leaves the new channel everywhere, and failure the old one. -/
structure AllOrNothing (change : Change) (old : Option String) (w : World) : Prop where
  success : (change.run X w).1 = .ok () → Belongs X change.setup (change.run X w).2 change.channel
  failure : ∀ e, (change.run X w).1 = .error e → Belongs X change.setup (change.run X w).2 old

end Change

end

/-! ### When a change is compensated -/

/-- The client credential that the command replaced is put back, or was the same. -/
def Attempt.PutsBack (a : Attempt) (c : String) : Option String → Prop
  | some o => if a.readable then a.restore = .ok () ∨ o = c else a.removes = false ∧ o = c
  | none => a.removes = true

/-- The daemon gets as far as its first write. -/
def Attempt.Reaches (a : Attempt) : Prop :=
  (∀ e, a.link ≠ .unsent e) ∧ a.refusal = none ∧ a.salt.isSome

/-- The daemon writes its verifier. -/
def Attempt.Stores (a : Attempt) : Prop := a.Reaches ∧ a.writes.verifier = .ok ()

/-- What the failures of a change must not do, for a channel after another one. -/
def Change.Compensated (old : Option String) : Change → Prop
  | .command a secret =>
      if a.root then
        a.credential = .ok () → ¬(a.Stores ∧ a.link = .up) →
          (a.Stores → old = some secret.value) ∧ a.PutsBack secret.value old
      else
        a.Reaches → (a.writes.credential = .ok () ∨ old = some secret.value) →
          ¬(a.Stores ∧ a.link = .up) → old = some secret.value
  | .configure setup writes salt channel =>
      setup.namesCredentialFile = true → channel ≠ "" → salt.isSome →
        writes.credential = .ok () →
          (writes.verifier = .ok () → trimEndNewlines channel = channel)
            ∧ (writes.verifier ≠ .ok () → old = some (trimEndNewlines channel))

/-! ### The pieces of a state -/

variable {X : Services} {setup : Setup} {writes : Writes} {disk : Disk} {c o : String}
  {old : Option String}

/-- The credential file that the channel `c` was written to. -/
lemma credentialOf_asBytes :
    CredentialOf (some (asBytes c)) old
      ↔ old = some (trimEndNewlines c) ∧ trimEndNewlines c ≠ "" := by
  cases old with
  | none => simp [CredentialOf]
  | some o =>
      simp only [CredentialOf, Option.some.injEq]
      constructor
      · rintro ⟨bytes, rfl, hread⟩
        obtain ⟨rfl, hne⟩ := readCredentialFile_asBytes.mp hread
        exact ⟨rfl, hne⟩
      · rintro ⟨rfl, hne⟩
        exact ⟨_, rfl, readCredentialFile_asBytes.mpr ⟨rfl, hne⟩⟩

lemma Secret.credentialOf (secret : Secret) :
    CredentialOf (some (asBytes secret.value)) old ↔ old = some secret.value := by
  rw [credentialOf_asBytes, secret.trimmed]
  exact and_iff_left secret.nonempty

/-- What a credential file holds. -/
lemma readCredentialFile_eq_ok {bytes : Bytes} (h : readCredentialFile bytes = .ok o) :
    ∃ raw, fromUtf8 bytes = some raw ∧ trimEndNewlines raw = o ∧ o ≠ "" := by
  unfold readCredentialFile at h
  cases hraw : fromUtf8 bytes with
  | none => rw [hraw] at h; cases h
  | some raw =>
      simp only [hraw] at h
      split_ifs at h with hne
      obtain rfl := Except.ok.inj h
      exact ⟨raw, rfl, rfl, hne⟩

lemma CredentialOf.nonempty {file : Option Bytes} (h : CredentialOf file (some o)) : o ≠ "" := by
  obtain ⟨bytes, -, hread⟩ := h
  obtain ⟨-, -, -, hne⟩ := readCredentialFile_eq_ok hread
  exact hne

/-- A verifier of `c` is of no other channel. -/
lemma verifierOf_new (hX : Dependable X c) (s : Salt) :
    VerifierOf X (some ⟨s, channelDigest X s c⟩) old ↔ old = some c := by
  cases old with
  | none => simp [VerifierOf]
  | some o =>
      simp only [VerifierOf, Option.some.injEq, ChannelVerifier.mk.injEq]
      constructor
      · rintro ⟨salt, rfl, hdigest⟩
        exact hX.noCollision s o hdigest
      · rintro rfl
        exact ⟨s, rfl, rfl⟩

/-- The verifier file that a configuration of `c` leaves. -/
def StoredFile (X : Services) (platform : Platform) (c : String) (s : Salt) (bytes : Bytes) :
    Prop :=
  X.fromSlice bytes
    = some (recordOf ⟨s, channelDigest X s c⟩ ((protectedCopy X platform c).map Hex.encode))

lemma readVerifierFile_of_stored (hX : Dependable X c) {platform : Platform} {s : Salt}
    {bytes : Bytes} (h : StoredFile X platform c s bytes) :
    ∃ secret, readVerifierFile X platform (some bytes)
        = .ok (some ⟨s, channelDigest X s c⟩, secret)
      ∧ (platform = .windows → secret = some c) := by
  unfold StoredFile at h
  cases platform with
  | unix =>
      refine ⟨none, ?_, by rintro ⟨⟩⟩
      simp only [readVerifierFile, h, recordVerifier_recordOf, except_ok_do, protectedCopy,
        Option.map_none]
      rfl
  | windows =>
      obtain ⟨p, hp, hun⟩ := hX.protects
      have hsecret : decodeSecret X .windows (Hex.encode p) = .ok c := by
        simp only [decodeSecret, Hex.decode_encode, hun, fromUtf8_asBytes]
      refine ⟨some c, ?_, fun _ => rfl⟩
      simp only [readVerifierFile, h, recordVerifier_recordOf, except_ok_do, protectedCopy, hp,
        Option.map_some]
      simp only [recordOf, hsecret, except_ok_do]

lemma verifierFileOf_stored (hX : Dependable X c) {platform : Platform} {s : Salt} {bytes : Bytes}
    (h : StoredFile X platform c s bytes) :
    VerifierFileOf X platform (some bytes) old ↔ old = some c := by
  obtain ⟨secret, hread, hsecret⟩ := readVerifierFile_of_stored hX h
  constructor
  · rintro ⟨verifier, secret', hread', hverifier, -⟩
    rw [hread] at hread'
    obtain ⟨rfl, -⟩ := Prod.mk.inj (Except.ok.inj hread')
    exact (verifierOf_new hX s).mp hverifier
  · rintro rfl
    exact ⟨_, secret, hread, (verifierOf_new hX s).mpr rfl, hsecret⟩

/-! ### Where a configuration ends -/

section Configuration

variable {w : World} {s : Salt} {kept : Disk} {e : AppError}

/-- What the machine protects of `c` is ready. -/
lemma protectSecret_ready (hX : Dependable X c) (platform : Platform) :
    protectSecret X platform c = .ok ((protectedCopy X platform c).map Hex.encode) := by
  cases platform with
  | unix => rfl
  | windows =>
      obtain ⟨p, hp, -⟩ := hX.protects
      simp only [protectSecret, protectedCopy, hp, Option.map_some]

/-- Before the first write, everything is as it was. -/
lemma configure_early {salt : Option Salt} (h : c = "" ∨ salt = none) :
    ∃ e, w.configure X setup writes salt c = (.error e, w) := by
  by_cases hempty : c = ""
  · exact ⟨_, by simp only [World.configure, configure, if_pos hempty]; rfl⟩
  · obtain rfl := h.resolve_left hempty
    exact ⟨_, by simp only [World.configure, configure, if_neg hempty]; rfl⟩

/-- A credential that is not kept leaves everything as it was. -/
lemma configure_unkept (hX : Dependable X c) (hc : c ≠ "")
    (hkept : keepCredential setup writes w.disk c = .error e) :
    w.configure X setup writes (some s) c = (.error e, w) := by
  simp only [World.configure, configure, if_neg hc, protectSecret_ready hX, hkept]

/-- A verifier that cannot be written leaves the credential kept. -/
lemma configure_unstored (hX : Dependable X c) (hc : c ≠ "")
    (hkept : keepCredential setup writes w.disk c = .ok kept) (hw : writes.verifier = .error e) :
    w.configure X setup writes (some s) c = (.error e, ⟨kept, w.memory⟩) := by
  obtain ⟨bytes, hwrite, -⟩ :=
    hX.records ⟨s, channelDigest X s c⟩ (protectedCopy X setup.platform c)
  simp only [World.configure, configure, if_neg hc, protectSecret_ready hX, hkept, persist, hwrite,
    hw, Except.map]

/-- Both files are written, and the memory is of the new channel. -/
def Renewed (X : Services) (c : String) (kept : Disk) (s : Salt) (bytes : Bytes) : World :=
  ⟨{ kept with verifierFile := some bytes }, ⟨some ⟨s, channelDigest X s c⟩, some c⟩⟩

/-- With both files written, the new channel is everywhere. -/
lemma configure_stored (hX : Dependable X c) (hc : c ≠ "") (s : Salt)
    (hkept : keepCredential setup writes w.disk c = .ok kept) (hw : writes.verifier = .ok ()) :
    ∃ bytes, StoredFile X setup.platform c s bytes
      ∧ w.configure X setup writes (some s) c = (.ok (), Renewed X c kept s bytes) := by
  obtain ⟨bytes, hwrite, hread⟩ :=
    hX.records ⟨s, channelDigest X s c⟩ (protectedCopy X setup.platform c)
  refine ⟨bytes, hread, ?_⟩
  simp only [World.configure, configure, if_neg hc, protectSecret_ready hX, hkept, persist, hwrite,
    hw, Except.map, Renewed]

lemma keepCredential_unnamed (h : setup.namesCredentialFile = false) :
    keepCredential setup writes disk c = .ok disk := by
  rw [keepCredential, h, if_neg Bool.false_ne_true]

lemma keepCredential_written (hnames : setup.namesCredentialFile = true) (hc : c ≠ "")
    (hw : writes.credential = .ok ()) :
    keepCredential setup writes disk c = .ok { disk with credentialFile := some (asBytes c) } := by
  simp only [keepCredential, hnames, if_true, persistMachineCredential, if_neg hc, hw, Except.map]

/-- A file that holds the channel will do, and no other. -/
lemma keepCredential_unwritten (hnames : setup.namesCredentialFile = true) (hc : c ≠ "")
    (hw : writes.credential = .error e) (hold : CredentialOf disk.credentialFile old) :
    keepCredential setup writes disk c = if old = some c then .ok disk else .error e := by
  have hread :
      disk.credentialFile.bind (fun bytes => (readCredentialFile bytes).toOption) = old := by
    cases old with
    | none =>
        have hnone : disk.credentialFile = none := hold
        rw [hnone]
        rfl
    | some o =>
        obtain ⟨bytes, hfile, hbytes⟩ := hold
        rw [hfile, Option.bind_some, hbytes]
        rfl
  simp only [keepCredential, hnames, if_true, persistMachineCredential, if_neg hc, hw, Except.map,
    hread]

end Configuration

/-! ### All or nothing, of a known end -/

section Ends

variable (change : Change) {w w' : World}

lemma allOrNothing_of_ok (h : change.run X w = (.ok (), w')) :
    change.AllOrNothing X old w ↔ Belongs X change.setup w' change.channel := by
  constructor
  · rintro ⟨hsuccess, -⟩
    rw [h] at hsuccess
    exact hsuccess rfl
  · intro hbelongs
    refine ⟨fun _ => by rw [h]; exact hbelongs, fun e he => ?_⟩
    rw [h] at he
    cases he

lemma allOrNothing_of_error {e : AppError} (h : change.run X w = (.error e, w')) :
    change.AllOrNothing X old w ↔ Belongs X change.setup w' old := by
  constructor
  · rintro ⟨-, hfailure⟩
    rw [h] at hfailure
    exact hfailure e rfl
  · intro hbelongs
    refine ⟨fun hok => ?_, fun _ _ => by rw [h]; exact hbelongs⟩
    rw [h] at hok
    cases hok

/-- The new channel is everywhere, if its credential is in the file. -/
lemma belongs_stored (hX : Dependable X c) {s : Salt} {kept : Disk} {bytes : Bytes}
    (hstored : StoredFile X setup.platform c s bytes) :
    Belongs X setup (Renewed X c kept s bytes) (some c)
      ↔ (setup.namesCredentialFile = true → CredentialOf kept.credentialFile (some c)) := by
  constructor
  · exact fun h => h.credential
  · intro h
    exact ⟨h, (verifierFileOf_stored hX hstored).mpr rfl, (verifierOf_new hX s).mpr rfl, rfl⟩

end Ends

/-! ### A configuration by itself -/

lemma configure_allOrNothing_iff (hX : Dependable X c) {salt : Option Salt} {w : World}
    (hold : Belongs X setup w old) :
    (Change.configure setup writes salt c).AllOrNothing X old w
      ↔ (Change.configure setup writes salt c).Compensated old := by
  by_cases hearly : c = "" ∨ salt = none
  · obtain ⟨e, he⟩ : ∃ e, w.configure X setup writes salt c = (.error e, w) :=
      configure_early hearly
    rw [allOrNothing_of_error (.configure setup writes salt c) he]
    refine ⟨fun _ _ hc hsalt => ?_, fun _ => hold⟩
    rcases hearly with hempty | hnone
    · exact absurd hempty hc
    · simp [hnone] at hsalt
  obtain ⟨hc, hsalt⟩ := not_or.mp hearly
  obtain ⟨s, rfl⟩ := Option.ne_none_iff_exists'.mp hsalt
  have hsuccess {w'} (h : w.configure X setup writes (some s) c = (.ok (), w')) :
      (Change.configure setup writes (some s) c).AllOrNothing X old w
        ↔ Belongs X setup w' (some c) := allOrNothing_of_ok _ h
  have hfailure {w' e} (h : w.configure X setup writes (some s) c = (.error e, w')) :
      (Change.configure setup writes (some s) c).AllOrNothing X old w
        ↔ Belongs X setup w' old := allOrNothing_of_error _ h
  cases hnames : setup.namesCredentialFile with
  | false =>
      -- one file only, and it is written last
      have hkept : keepCredential setup writes w.disk c = .ok w.disk :=
        keepCredential_unnamed hnames
      refine iff_of_true ?_ fun h => by simp [hnames] at h
      cases hw : writes.verifier with
      | error e => exact (hfailure (configure_unstored hX hc hkept hw)).mpr hold
      | ok u =>
          obtain ⟨bytes, hstored, hrun⟩ := configure_stored hX hc s hkept hw
          rw [hsuccess hrun]
          exact (belongs_stored hX hstored).mpr fun h => by simp [hnames] at h
  | true =>
      have hfile := hold.credential hnames
      cases hcred : writes.credential with
      | error e =>
          have hkept := keepCredential_unwritten hnames hc hcred hfile
          refine iff_of_true ?_ fun _ _ _ h => by simp [hcred] at h
          by_cases hsame : old = some c
          · rw [if_pos hsame] at hkept
            cases hw : writes.verifier with
            | error e => exact (hfailure (configure_unstored hX hc hkept hw)).mpr hold
            | ok u =>
                obtain ⟨bytes, hstored, hrun⟩ := configure_stored hX hc s hkept hw
                rw [hsuccess hrun]
                exact (belongs_stored hX hstored).mpr fun _ => hsame ▸ hfile
          · rw [if_neg hsame] at hkept
            exact (hfailure (configure_unkept hX hc hkept)).mpr hold
      | ok u =>
          have hkept : keepCredential setup writes w.disk c
              = .ok { w.disk with credentialFile := some (asBytes c) } :=
            keepCredential_written hnames hc hcred
          cases hw : writes.verifier with
          | error e =>
              rw [hfailure (configure_unstored hX hc hkept hw)]
              constructor
              · intro hbelongs _ _ _ _
                refine ⟨fun h => by simp [hw] at h, fun _ => ?_⟩
                exact (credentialOf_asBytes.mp (hbelongs.credential hnames)).1
              · intro hcomp
                have hsame := (hcomp hnames hc rfl hcred).2 (by simp [hw])
                refine ⟨fun _ => ?_, hold.verifierFile, hold.verifier, hold.secret⟩
                exact credentialOf_asBytes.mpr ⟨hsame, (hsame ▸ hfile).nonempty⟩
          | ok u =>
              obtain ⟨bytes, hstored, hrun⟩ := configure_stored hX hc s hkept hw
              rw [hsuccess hrun]
              refine (belongs_stored hX hstored).trans ?_
              rw [imp_iff_right hnames, credentialOf_asBytes, Option.some.injEq, eq_comm]
              constructor
              · rintro ⟨htrim, -⟩ _ _ _ _
                exact ⟨fun _ => htrim, fun h => absurd hw h⟩
              · intro hcomp
                have htrim := (hcomp hnames hc rfl hcred).1 hw
                exact ⟨htrim, htrim.symm ▸ hc⟩

/-! ### The command -/

section Command

variable {a : Attempt} {w w' : World} {kept : Disk}

/-- Where the daemon's side of a request ends that keeps the credential as `kept`. -/
inductive ServeEnds (X : Services) (a : Attempt) (c : String) (w : World) (kept : Disk) :
    Except AppError Unit × World → Prop
  | early {e} (refused : a.refusal = none → a.salt = none) : ServeEnds X a c w kept (.error e, w)
  | unstored {e} (taken : a.refusal = none) (salted : a.salt.isSome)
      (unwritten : a.writes.verifier ≠ .ok ()) : ServeEnds X a c w kept (.error e, ⟨kept, w.memory⟩)
  | stored {s bytes} (taken : a.refusal = none) (salted : a.salt.isSome)
      (written : a.writes.verifier = .ok ()) (file : StoredFile X .unix c s bytes) :
      ServeEnds X a c w kept (.ok (), Renewed X c kept s bytes)

lemma serveEnds (hX : Dependable X c) (hc : c ≠ "")
    (hkept : keepCredential linuxDaemon a.writes w.disk c = .ok kept) :
    ServeEnds X a c w kept (a.serve X c w) := by
  cases hrefusal : a.refusal with
  | some e =>
      rw [Attempt.serve, hrefusal]
      exact .early fun h => by simp [hrefusal] at h
  | none =>
      have hserve : a.serve X c w = w.configure X linuxDaemon a.writes a.salt c := by
        rw [Attempt.serve, hrefusal]
      rw [hserve]
      cases hsalt : a.salt with
      | none =>
          obtain ⟨e, he⟩ : ∃ e, w.configure X linuxDaemon a.writes none c = (.error e, w) :=
            configure_early (.inr rfl)
          rw [he]
          exact .early fun _ => hsalt
      | some s =>
          have hsome : a.salt.isSome := by rw [hsalt]; rfl
          cases hw : a.writes.verifier with
          | error e =>
              rw [configure_unstored hX hc hkept hw]
              exact .unstored hrefusal hsome (by simp [hw])
          | ok u =>
              obtain ⟨bytes, hstored, hrun⟩ := configure_stored hX hc s hkept hw
              rw [hrun]
              exact .stored hrefusal hsome hw hstored

/-- Where a request ends: as the daemon's side does, if the client hears of it. -/
inductive RequestEnds (X : Services) (a : Attempt) (c : String) (w : World) (kept : Disk) :
    Except AppError Unit × World → Prop
  | early {e} (h : ¬a.Reaches) : RequestEnds X a c w kept (.error e, w)
  | unstored {e} (h : a.Reaches) (unwritten : a.writes.verifier ≠ .ok ()) :
      RequestEnds X a c w kept (.error e, ⟨kept, w.memory⟩)
  | stored {s bytes} (h : a.Stores) (up : a.link = .up) (file : StoredFile X .unix c s bytes) :
      RequestEnds X a c w kept (.ok (), Renewed X c kept s bytes)
  | unheard {e s bytes memory} (h : a.Stores) (down : a.link ≠ .up)
      (file : StoredFile X .unix c s bytes)
      (hmemory : memory = w.memory ∨ memory = (Renewed X c kept s bytes).memory) :
      RequestEnds X a c w kept (.error e, ⟨(Renewed X c kept s bytes).disk, memory⟩)

lemma requestEnds (hX : Dependable X c) (hc : c ≠ "")
    (hkept : keepCredential linuxDaemon a.writes w.disk c = .ok kept) :
    RequestEnds X a c w kept (a.request X c w) := by
  have hserve := serveEnds hX hc hkept
  rcases hlink : a.link with _ | e | e | e
  case unsent =>
    rw [Attempt.request, hlink]
    exact .early fun h => h.1 e hlink
  all_goals
    have hsent : ∀ e, a.link ≠ .unsent e := by simp [hlink]
    simp only [Attempt.request, hlink]
    generalize a.serve X c w = served at hserve
    cases hserve with
    | early refused =>
        refine .early fun h => ?_
        have hnone := refused h.2.1
        simp [hnone, Attempt.Reaches] at h
    | unstored taken salted unwritten => exact .unstored ⟨hsent, taken, salted⟩ unwritten
    | stored taken salted written file =>
        have hstores : a.Stores := ⟨⟨hsent, taken, salted⟩, written⟩
        first
        | exact .stored hstores hlink file
        | exact .unheard hstores (by simp [hlink]) file (.inr rfl)
        | exact .unheard hstores (by simp [hlink]) file (.inl rfl)

/-- Where the credential is not kept, nothing is done. -/
lemma request_unkept (hX : Dependable X c) (hc : c ≠ "") {e : AppError}
    (hkept : keepCredential linuxDaemon a.writes w.disk c = .error e) :
    ∃ e, a.request X c w = (.error e, w) := by
  obtain ⟨e', hserve⟩ : ∃ e', a.serve X c w = (.error e', w) := by
    cases hrefusal : a.refusal with
    | some e => exact ⟨e, by simp only [Attempt.serve, hrefusal]⟩
    | none =>
        cases hsalt : a.salt with
        | none =>
            simp only [Attempt.serve, hrefusal, hsalt]
            exact configure_early (.inr rfl)
        | some s =>
            simp only [Attempt.serve, hrefusal, hsalt]
            exact ⟨e, configure_unkept hX hc hkept⟩
  cases hlink : a.link <;> simp [Attempt.request, hlink, hserve]

/-- What is put back is the old credential. -/
lemma credentialOf_restored (secret : Secret) (hold : CredentialOf w.disk.credentialFile old)
    (hfile : w'.disk.credentialFile = some (asBytes secret.value)) :
    CredentialOf (a.restored (a.previous w) w').disk.credentialFile old
      ↔ a.PutsBack secret.value old := by
  cases old with
  | none =>
      have hnone : a.previous w = none := by
        have hfile : w.disk.credentialFile = none := hold
        rw [Attempt.previous, hfile]
        exact ite_self none
      rw [hnone]
      cases hremoves : a.removes <;>
        simp [Attempt.restored, hremoves, CredentialOf, Attempt.PutsBack, hfile]
  | some o =>
      obtain ⟨bytes, hbytes, hread⟩ := hold
      obtain ⟨raw, hraw, htrim, hne⟩ := readCredentialFile_eq_ok hread
      have hfile' : CredentialOf w'.disk.credentialFile (some o) ↔ o = secret.value := by
        rw [hfile, secret.credentialOf, Option.some.injEq]
      cases hreadable : a.readable with
      | true =>
          have hprevious : a.previous w = some raw := by
            rw [Attempt.previous, hreadable, hbytes]
            exact hraw
          have htrim' : trimEndNewlines o = o := htrim ▸ trimEndNewlines_trimEndNewlines raw
          cases hrestore : a.restore with
          | ok u =>
              simp only [hprevious, Attempt.restored, htrim, persistMachineCredential, if_neg hne,
                hrestore, Except.map, credentialOf_asBytes, htrim', Attempt.PutsBack, hreadable,
                if_true, true_or, iff_true]
              exact ⟨trivial, hne⟩
          | error e =>
              simp only [hprevious, Attempt.restored, htrim, persistMachineCredential, if_neg hne,
                hrestore, Except.map, Attempt.PutsBack, hreadable, if_true, reduceCtorEq, false_or]
              exact hfile'
      | false =>
          have hnone : a.previous w = none := by simp [Attempt.previous, hreadable]
          cases hremoves : a.removes with
          | true =>
              simp [hnone, Attempt.restored, hremoves, CredentialOf, Attempt.PutsBack, hreadable]
          | false =>
              rw [hnone, Attempt.restored, hremoves]
              simpa [Attempt.PutsBack, hreadable, hremoves] using hfile'

lemma restored_verifierFile (a : Attempt) (previous : Option String) (w : World) :
    (a.restored previous w).disk.verifierFile = w.disk.verifierFile
      ∧ (a.restored previous w).memory = w.memory := by
  cases previous with
  | none =>
      cases hremoves : a.removes <;> simp [Attempt.restored, hremoves]
  | some prev =>
      simp only [Attempt.restored, persistMachineCredential]
      split_ifs
      · exact ⟨rfl, rfl⟩
      · cases a.restore <;> exact ⟨rfl, rfl⟩

/-- After a failure, the command leaves the old channel where the credential is put back and
nothing else was changed. -/
lemma belongs_restored (secret : Secret) (hold : Belongs X linuxDaemon w old)
    (hfile : w'.disk.credentialFile = some (asBytes secret.value)) :
    Belongs X linuxDaemon (a.restored (a.previous w) w') old
      ↔ a.PutsBack secret.value old ∧ VerifierFileOf X .unix w'.disk.verifierFile old
        ∧ VerifierOf X w'.memory.verifier old ∧ w'.memory.clientSecret = old := by
  obtain ⟨hverifier, hmemory⟩ := restored_verifierFile a (a.previous w) w'
  have hcredential := credentialOf_restored (a := a) secret (hold.credential rfl) hfile
  constructor
  · rintro ⟨hcred, hv, hm, hs⟩
    rw [hverifier] at hv
    rw [hmemory] at hm hs
    exact ⟨hcredential.mp (hcred rfl), hv, hm, hs⟩
  · rintro ⟨hcred, hv, hm, hs⟩
    refine ⟨fun _ => hcredential.mpr hcred, ?_, ?_, ?_⟩
    · rw [hverifier]
      exact hv
    · rw [hmemory]
      exact hm
    · rw [hmemory]
      exact hs

/-- A new verifier file that the client does not hear of is that of the old channel only if the
channel does not change. -/
lemma unheard_belongs (hX : Dependable X c) {s : Salt} {bytes : Bytes} {memory : NetworkChannel}
    (hold : Belongs X linuxDaemon w old) (hfile : StoredFile X .unix c s bytes)
    (hmemory : memory = w.memory ∨ memory = (Renewed X c kept s bytes).memory) :
    VerifierFileOf X .unix (some bytes) old ∧ VerifierOf X memory.verifier old
        ∧ memory.clientSecret = old
      ↔ old = some c := by
  constructor
  · exact fun h => (verifierFileOf_stored hX hfile).mp h.1
  · rintro rfl
    refine ⟨(verifierFileOf_stored hX hfile).mpr rfl, ?_⟩
    rcases hmemory with rfl | rfl
    · exact ⟨hold.verifier, hold.secret⟩
    · exact ⟨(verifierOf_new hX s).mpr rfl, rfl⟩

/-- The files once root has written the credential. -/
def World.handed (c : String) (w : World) : World :=
  { w with disk := { w.disk with credentialFile := some (asBytes c) } }

/-- The daemon's own writing finds the credential there. -/
lemma keepCredential_handed (secret : Secret) (writes : Writes) (w : World) :
    keepCredential linuxDaemon writes (w.handed secret.value).disk secret.value
      = .ok (w.handed secret.value).disk := by
  cases hw : writes.credential with
  | ok u => exact keepCredential_written rfl secret.nonempty hw
  | error e =>
      have hfile : CredentialOf (w.handed secret.value).disk.credentialFile (some secret.value) :=
        secret.credentialOf.mpr rfl
      rw [keepCredential_unwritten rfl secret.nonempty hw hfile, if_pos rfl]

lemma setNetworkChannel_root (secret : Secret) (hroot : a.root = true)
    (hcred : a.credential = .ok ()) {answer : Except AppError Unit × World}
    (h : a.request X secret.value (w.handed secret.value) = answer) :
    (answer.1 = .ok () → setNetworkChannel X a secret w = (.ok (), answer.2))
      ∧ ∀ e, answer.1 = .error e →
          setNetworkChannel X a secret w = (.error e, a.restored (a.previous w) answer.2) := by
  obtain ⟨result, w'⟩ := answer
  have hrequest : a.request X secret.value
      { w with disk := { w.disk with credentialFile := some (asBytes secret.value) } }
        = (result, w') := h
  simp only [setNetworkChannel, hroot, if_true, persistMachineCredential, if_neg secret.nonempty,
    hcred, Except.map, hrequest]
  constructor
  · rintro rfl
    rfl
  · rintro e rfl
    rfl

/-- The command of root, which writes the credential itself. -/
lemma root_allOrNothing_iff (secret : Secret) (hX : Dependable X secret.value)
    (hroot : a.root = true) (hold : Belongs X linuxDaemon w old) :
    (Change.command a secret).AllOrNothing X old w ↔ (Change.command a secret).Compensated old := by
  have hsuccess {w'} (h : setNetworkChannel X a secret w = (.ok (), w')) :
      (Change.command a secret).AllOrNothing X old w
        ↔ Belongs X linuxDaemon w' (some secret.value) := allOrNothing_of_ok _ h
  have hfailure {w' e} (h : setNetworkChannel X a secret w = (.error e, w')) :
      (Change.command a secret).AllOrNothing X old w ↔ Belongs X linuxDaemon w' old :=
    allOrNothing_of_error _ h
  simp only [Change.Compensated, hroot, if_true]
  cases hcred : a.credential with
  | error e =>
      have hrun : setNetworkChannel X a secret w = (.error e, w) := by
        simp only [setNetworkChannel, hroot, if_true, persistMachineCredential,
          if_neg secret.nonempty, hcred, Except.map]
      rw [hfailure hrun]
      exact iff_of_true hold fun h => by cases h
  | ok u =>
      have hends := requestEnds hX secret.nonempty (keepCredential_handed secret a.writes w)
      have hanswer := setNetworkChannel_root (X := X) (w := w) secret hroot hcred rfl
      generalize a.request X secret.value (w.handed secret.value) = answer at hends hanswer
      have hold' : VerifierFileOf X .unix w.disk.verifierFile old
          ∧ VerifierOf X w.memory.verifier old ∧ w.memory.clientSecret = old :=
        ⟨hold.verifierFile, hold.verifier, hold.secret⟩
      cases hends with
      | @early e h =>
          rw [hfailure (hanswer.2 e rfl), belongs_restored secret hold rfl]
          constructor
          · exact fun hbelongs _ _ => ⟨fun hstores => absurd hstores.1 h, hbelongs.1⟩
          · exact fun hcomp => ⟨(hcomp rfl fun hstores => h hstores.1.1).2, hold'⟩
      | @unstored e h unwritten =>
          rw [hfailure (hanswer.2 e rfl), belongs_restored secret hold rfl]
          constructor
          · exact fun hbelongs _ _ => ⟨fun hstores => absurd hstores.2 unwritten, hbelongs.1⟩
          · exact fun hcomp => ⟨(hcomp rfl fun hstores => unwritten hstores.1.2).2, hold'⟩
      | stored h up file =>
          rw [hsuccess (hanswer.1 rfl)]
          refine iff_of_true ?_ fun _ hnot => absurd ⟨h, up⟩ hnot
          exact (belongs_stored hX file).mpr fun _ => secret.credentialOf.mpr rfl
      | @unheard e s bytes memory h down file hmemory =>
          have hnew := unheard_belongs hX hold file hmemory
          rw [hfailure (hanswer.2 e rfl), belongs_restored secret hold rfl]
          constructor
          · exact fun hbelongs _ _ => ⟨fun _ => hnew.mp hbelongs.2, hbelongs.1⟩
          · intro hcomp
            obtain ⟨hsame, hback⟩ := hcomp rfl fun hboth => down hboth.2
            exact ⟨hback, hnew.mpr (hsame h)⟩

/-- The command of another user, which leaves the credential to the daemon. -/
lemma user_allOrNothing_iff (secret : Secret) (hX : Dependable X secret.value)
    (hroot : a.root = false) (hold : Belongs X linuxDaemon w old) :
    (Change.command a secret).AllOrNothing X old w ↔ (Change.command a secret).Compensated old := by
  have hcommand : setNetworkChannel X a secret w = a.request X secret.value w := by
    simp [setNetworkChannel, hroot]
  have hsuccess {w'} (h : a.request X secret.value w = (.ok (), w')) :
      (Change.command a secret).AllOrNothing X old w
        ↔ Belongs X linuxDaemon w' (some secret.value) := allOrNothing_of_ok _ (hcommand.trans h)
  have hfailure {w' e} (h : a.request X secret.value w = (.error e, w')) :
      (Change.command a secret).AllOrNothing X old w ↔ Belongs X linuxDaemon w' old :=
    allOrNothing_of_error _ (hcommand.trans h)
  simp only [Change.Compensated, hroot, Bool.false_eq_true, if_false]
  have hfile := hold.credential rfl
  by_cases hcred : a.writes.credential = .ok () ∨ old = some secret.value
  · obtain ⟨kept, hkept, hverifier, hkeptNew, hkeptOld⟩ : ∃ kept,
        keepCredential linuxDaemon a.writes w.disk secret.value = .ok kept
          ∧ kept.verifierFile = w.disk.verifierFile
          ∧ CredentialOf kept.credentialFile (some secret.value)
          ∧ (CredentialOf kept.credentialFile old ↔ old = some secret.value) := by
      cases hw : a.writes.credential with
      | ok u =>
          exact ⟨_, keepCredential_written rfl secret.nonempty hw, rfl,
            secret.credentialOf.mpr rfl, secret.credentialOf⟩
      | error e =>
          have hsame := hcred.resolve_left (by simp [hw])
          have hkept : keepCredential linuxDaemon a.writes w.disk secret.value = _ :=
            keepCredential_unwritten rfl secret.nonempty hw hfile
          rw [if_pos hsame] at hkept
          exact ⟨_, hkept, rfl, hsame ▸ hfile, iff_of_true hfile hsame⟩
    have hends := requestEnds hX secret.nonempty hkept
    generalize hanswer : a.request X secret.value w = answer at hends
    cases hends with
    | early h =>
        rw [hfailure hanswer]
        exact iff_of_true hold fun hreaches => absurd hreaches h
    | unstored h unwritten =>
        rw [hfailure hanswer]
        constructor
        · exact fun hbelongs _ _ _ => hkeptOld.mp (hbelongs.credential rfl)
        · intro hcomp
          have hsame := hcomp h hcred fun hstores => unwritten hstores.1.2
          exact ⟨fun _ => hkeptOld.mpr hsame, hverifier ▸ hold.verifierFile, hold.verifier,
            hold.secret⟩
    | stored h up file =>
        rw [hsuccess hanswer]
        refine iff_of_true ?_ fun _ _ hnot => absurd ⟨h, up⟩ hnot
        exact (belongs_stored hX file).mpr fun _ => hkeptNew
    | unheard h down file hmemory =>
        have hnew := unheard_belongs hX hold file hmemory
        rw [hfailure hanswer]
        constructor
        · exact fun hbelongs _ _ _ => hkeptOld.mp (hbelongs.credential rfl)
        · intro hcomp
          have hsame := hcomp h.1 hcred fun hboth => down hboth.2
          obtain ⟨hv, hm, hs⟩ := hnew.mpr hsame
          exact ⟨fun _ => hkeptOld.mpr hsame, hv, hm, hs⟩
  · obtain ⟨hw, hother⟩ := not_or.mp hcred
    refine iff_of_true ?_ fun _ h => absurd h hcred
    obtain ⟨e, he⟩ : ∃ e, a.writes.credential = .error e := by
      cases h : a.writes.credential with
      | ok u => exact absurd h hw
      | error e => exact ⟨e, rfl⟩
    have hkept : keepCredential linuxDaemon a.writes w.disk secret.value = _ :=
      keepCredential_unwritten rfl secret.nonempty he hfile
    rw [if_neg hother] at hkept
    obtain ⟨e', hrun⟩ := request_unkept (a := a) hX secret.nonempty hkept
    exact (hfailure hrun).mpr hold

end Command

/-- **A change of the Network Channel is all or nothing** exactly where its failures are
compensated: a reply that is lost after both files were written, a daemon that writes the
credential and not the verifier, and a channel that ends in a line end are not. -/
theorem allOrNothing_iff (X : Services) (change : Change) (old : Option String) (w : World)
    (hX : Dependable X change.channel) (hold : Belongs X change.setup w old) :
    change.AllOrNothing X old w ↔ change.Compensated old := by
  cases change with
  | command a secret =>
      cases hroot : a.root with
      | true => exact root_allOrNothing_iff secret hX hroot hold
      | false => exact user_allOrNothing_iff secret hX hroot hold
  | configure setup writes salt channel => exact configure_allOrNothing_iff hX hold

/-! ### A first channel, and a lost reply -/

def secretChannel : Secret := ⟨"secret", by decide, by decide⟩

/-- A machine without a channel. -/
lemma belongs_unconfigured (X : Services) (setup : Setup) : Belongs X setup ⟨{}, {}⟩ none :=
  ⟨fun _ => rfl, ⟨none, none, rfl, rfl, fun _ => rfl⟩, rfl, rfl⟩

theorem firstChannel_allOrNothing :
    (Change.command ⟨true, .ok (), true, .up, none, some ⟨List.replicate 16 0, rfl⟩, {}, .ok (),
      true⟩ secretChannel).AllOrNothing (servicesFor "secret" secretDigest) none ⟨{}, {}⟩ :=
  (allOrNothing_iff (servicesFor "secret" secretDigest) _ none ⟨{}, {}⟩
    (servicesFor_dependable (by decide)) (belongs_unconfigured _ _)).mpr
      fun _ hnot => absurd ⟨⟨⟨(fun e he => by cases he), rfl, rfl⟩, rfl⟩, rfl⟩ hnot

/-- The daemon has stored the channel, and the command removes the credential: its reply was
lost. -/
theorem lost_reply_splits :
    ¬(Change.command ⟨true, .ok (), true, .lost (.internal "the connection was reset"), none,
      some ⟨List.replicate 16 0, rfl⟩, {}, .ok (), true⟩ secretChannel).AllOrNothing
        (servicesFor "secret" secretDigest) none ⟨{}, {}⟩ := by
  have hX : Dependable (servicesFor "secret" secretDigest) secretChannel.value :=
    servicesFor_dependable (by decide)
  intro hatomic
  have hcomp := (root_allOrNothing_iff secretChannel hX rfl (belongs_unconfigured _ _)).mp hatomic
  have hstores := (hcomp rfl fun h => by cases h.2).1
    ⟨⟨(fun e he => by cases he), rfl, rfl⟩, rfl⟩
  cases hstores

end ShaPrint.Channel
