import ShaPrint.Domain.Error
import ShaPrint.Lib.Fallible
import ShaPrint.Lib.Hex
import ShaPrint.Text

/-!
The Network Channel of `adapters/ipps/channel.rs`: the salted verifier of the server, the
credential of the client proxy, and the two files they are kept in.

* `Services`: what the channel uses of other code.
* `configure`, `openWithCredentialFile`: a new channel, and the start of the program.
* `authorizes_iff`: the digests are compared as wholes.
* `readCredentialFile_asBytes`: what the credential file gives back of the text written to it.
* `recordVerifier_recordOf`: the verifier is read from its record.
-/

namespace ShaPrint.Channel

/-! ### The verifier -/

/-- A random salt. -/
abbrev Salt := {b : Bytes // b.length = 16}

/-- A SHA-256 digest. -/
abbrev Digest := {b : Bytes // b.length = 32}

/-- The salted digest of the channel a server admits. -/
structure ChannelVerifier where
  salt : Salt
  digest : Digest
  deriving DecidableEq

/-- The record in the verifier file. -/
structure VerifierRecord where
  salt : Option Chars
  sha256 : Chars
  clientSecretProtected : Option Chars
  deriving DecidableEq

/-- Code the channel calls: SHA-256, the JSON form of a record, and the protection of
Windows, which may fail. -/
structure Services where
  sha256 : Bytes → Digest
  toVec : VerifierRecord → Option Bytes
  fromSlice : Bytes → Option VerifierRecord
  protect : Bytes → Option Bytes
  unprotect : Bytes → Option Bytes

inductive Platform where
  | windows
  | unix
  deriving DecidableEq

/-- How a program uses the channel: its platform, whether it names a machine credential file,
and the file `network-channel` of the directory `CREDENTIALS_DIRECTORY`, if there is one. -/
structure Setup where
  platform : Platform
  namesCredentialFile : Bool
  systemdCredential : Option Bytes

/-- The contents of the verifier file and of the machine credential file. -/
structure Disk where
  verifierFile : Option Bytes := none
  credentialFile : Option Bytes := none

/-- The state of a channel: what the server compares with, and what the client sends. -/
structure NetworkChannel where
  verifier : Option ChannelVerifier := none
  clientSecret : Option String := none

variable (X : Services)

def channelDigest (salt : Salt) (channel : String) : Digest :=
  X.sha256 (salt.val ++ asBytes channel)

/-- One more pair of bytes compared. -/
def addDifference (difference : UInt8) (p : UInt8 × UInt8) : UInt8 := difference ||| (p.1 ^^^ p.2)

/-- Whether two digests agree, without an early exit. -/
def sameDigest (expected actual : Bytes) : Bool := (expected.zip actual).foldl addDifference 0 == 0

namespace NetworkChannel

def isConfigured (ch : NetworkChannel) : Bool := ch.verifier.isSome

def authorizes (ch : NetworkChannel) (candidate : String) : Bool :=
  match ch.verifier with
  | none => false
  | some expected =>
      sameDigest expected.digest.val (channelDigest X expected.salt candidate).val

def clientCredential (ch : NetworkChannel) : Option String := ch.clientSecret

end NetworkChannel

/-! ### The files -/

def verifierInvalid : AppError := .internal "the Network Channel verifier is invalid"

/-- Reads a number of bytes from hexadecimal text. -/
def decodeHex (n : ℕ) (encoded : Chars) : Except AppError {b : Bytes // b.length = n} :=
  match Hex.decode encoded with
  | none => .error verifierInvalid
  | some b => if h : b.length = n then .ok ⟨b, h⟩ else .error verifierInvalid

/-- The protected copy for the local proxy, which only Windows keeps. -/
def protectSecret (platform : Platform) (value : String) : Except AppError (Option Chars) :=
  match platform with
  | .unix => .ok none
  | .windows =>
      match X.protect (asBytes value) with
      | none => .error (.internal
          "Windows could not protect the Network Channel for the local proxy.")
      | some bytes => .ok (some (Hex.encode bytes))

def decodeSecret (platform : Platform) (encoded : Chars) : Except AppError String :=
  match platform with
  | .unix => .error (.unsupported
      "protected Network Channel storage is available on Windows only")
  | .windows =>
      match Hex.decode encoded with
      | none => .error (.internal "the protected Network Channel is invalid")
      | some bytes =>
          match X.unprotect bytes with
          | none => .error (.internal
              "Windows could not open the protected Network Channel for the local proxy.")
          | some secret =>
              match fromUtf8 secret with
              | none => .error (.internal "the protected Network Channel is invalid")
              | some secret => .ok secret

/-- `trim_end_matches(['\r', '\n'])`. -/
def trimEndNewlines (s : String) : String :=
  .ofList (s.toList.rdropWhile fun c => c == '\r' || c == '\n')

/-- Reads a credential file, of which the trailing line ends do not count. -/
def readCredentialFile (bytes : Bytes) : Except AppError String :=
  match fromUtf8 bytes with
  | none => .error (.internal "the protected Network Channel credential is invalid")
  | some raw =>
      if trimEndNewlines raw = "" then
        .error (.internal "the protected Network Channel credential is empty")
      else .ok (trimEndNewlines raw)

/-- The client credential of the machine: that of systemd before that of the program's own file. -/
def loadMachineCredential (setup : Setup) (disk : Disk) : Except AppError (Option String) :=
  match setup.systemdCredential with
  | some bytes => (readCredentialFile bytes).map some
  | none =>
      match disk.credentialFile with
      | some bytes =>
          if setup.namesCredentialFile then (readCredentialFile bytes).map some else .ok none
      | none => .ok none

/-- The verifier of a record; a legacy record has no salt and is not trusted. -/
def recordVerifier (record : VerifierRecord) : Except AppError (Option ChannelVerifier) :=
  match record.salt with
  | none => .ok none
  | some salt => do
      let salt ← decodeHex 16 salt
      let digest ← decodeHex 32 record.sha256
      .ok (some ⟨salt, digest⟩)

/-- The verifier and the client credential in the verifier file. -/
def readVerifierFile (platform : Platform) :
    Option Bytes → Except AppError (Option ChannelVerifier × Option String)
  | none => .ok (none, none)
  | some bytes =>
      match X.fromSlice bytes with
      | none => .error verifierInvalid
      | some record => do
          let verifier ← recordVerifier record
          match record.clientSecretProtected with
          | none => .ok (verifier, none)
          | some encoded => do
              let secret ← decodeSecret X platform encoded
              .ok (verifier, some secret)

/-- Opens the channel from its directory. -/
def openWithCredentialFile (setup : Setup) (disk : Disk) : Except AppError NetworkChannel := do
  let stored ← readVerifierFile X setup.platform disk.verifierFile
  match stored.2 with
  | some secret => .ok ⟨stored.1, some secret⟩
  | none => do
      let secret ← loadMachineCredential setup disk
      .ok ⟨stored.1, secret⟩

/-! ### Configuring -/

/-- How the writing of the two files ends. -/
structure Writes where
  credential : Except AppError Unit := .ok ()
  verifier : Except AppError Unit := .ok ()

/-- Writes the machine credential file; a failure leaves the old one. -/
def persistMachineCredential (writing : Except AppError Unit) (disk : Disk) (channel : String) :
    Except AppError Disk :=
  if channel = "" then .error (.invalidInput "Network Channel cannot be empty")
  else writing.map fun _ => { disk with credentialFile := some (asBytes channel) }

/-- Keeps the client credential where a file is named for it. A file that cannot be written
will do if it holds the channel already. -/
def keepCredential (setup : Setup) (writes : Writes) (disk : Disk) (channel : String) :
    Except AppError Disk :=
  if setup.namesCredentialFile then
    match persistMachineCredential writes.credential disk channel with
    | .ok disk => .ok disk
    | .error e =>
        if disk.credentialFile.bind (fun bytes => (readCredentialFile bytes).toOption) = some channel
        then .ok disk else .error e
  else .ok disk

/-- The record of a verifier. -/
def recordOf (verifier : ChannelVerifier) (clientSecretProtected : Option Chars) :
    VerifierRecord :=
  ⟨some (Hex.encode verifier.salt.val), Hex.encode verifier.digest.val, clientSecretProtected⟩

/-- Writes the verifier file; a failure leaves the old one. -/
def persist (writing : Except AppError Unit) (disk : Disk) (verifier : ChannelVerifier)
    (clientSecretProtected : Option Chars) : Except AppError Disk :=
  match X.toVec (recordOf verifier clientSecretProtected) with
  | none => .error (.internal "cannot encode the Network Channel verifier")
  | some bytes => writing.map fun _ => { disk with verifierFile := some bytes }

/-- Replaces the verifier and the credential, on the disk first. The salt is random, and there
may be none. -/
def configure (setup : Setup) (writes : Writes) (salt : Option Salt) (disk : Disk)
    (channel : String) : Except AppError NetworkChannel × Disk :=
  if channel = "" then (.error (.invalidInput "Network Channel cannot be empty"), disk)
  else
    match salt with
    | none => (.error (.internal "cannot generate a Network Channel salt"), disk)
    | some salt =>
        let verifier : ChannelVerifier := ⟨salt, channelDigest X salt channel⟩
        match protectSecret X setup.platform channel with
        | .error e => (.error e, disk)
        | .ok clientSecretProtected =>
            match keepCredential setup writes disk channel with
            | .error e => (.error e, disk)
            | .ok kept =>
                match persist X writes.verifier kept verifier clientSecretProtected with
                | .error e => (.error e, kept)
                | .ok stored => (.ok ⟨some verifier, some channel⟩, stored)

/-! ### Digests are compared as wholes -/

/-- The differences found so far are kept. -/
lemma foldl_addDifference_eq_zero (pairs : List (UInt8 × UInt8)) (difference : UInt8) :
    pairs.foldl addDifference difference = 0 ↔ difference = 0 ∧ ∀ p ∈ pairs, p.1 = p.2 := by
  induction pairs generalizing difference with
  | nil => simp
  | cons p pairs ih =>
      rw [List.foldl_cons, ih, addDifference, UInt8.or_eq_zero_iff, UInt8.xor_eq_zero_iff,
        List.forall_mem_cons, and_assoc]

lemma sameDigest_iff {expected actual : Digest} :
    sameDigest expected.val actual.val = true ↔ expected = actual := by
  have hlength : expected.val.length = actual.val.length := expected.2.trans actual.2.symm
  rw [sameDigest, beq_iff_eq, foldl_addDifference_eq_zero, Subtype.ext_iff]
  constructor
  · rintro ⟨-, hpairs⟩
    refine List.ext_getElem hlength fun n h1 h2 => hpairs (expected.val[n], actual.val[n]) ?_
    exact List.mem_iff_getElem.mpr ⟨n, by simp [h1, h2], List.getElem_zip⟩
  · intro heq
    refine ⟨rfl, fun p hp => ?_⟩
    obtain ⟨n, hn, rfl⟩ := List.mem_iff_getElem.mp hp
    simp only [List.getElem_zip, heq]

/-- A configured server admits the texts with its salted digest. -/
lemma authorizes_iff {X : Services} {ch : NetworkChannel} {verifier : ChannelVerifier}
    (h : ch.verifier = some verifier) (candidate : String) :
    ch.authorizes X candidate = true ↔ verifier.digest = channelDigest X verifier.salt candidate := by
  rw [NetworkChannel.authorizes, h]
  exact sameDigest_iff

/-! ### What is written is read -/

lemma trimEndNewlines_trimEndNewlines (s : String) :
    trimEndNewlines (trimEndNewlines s) = trimEndNewlines s := by
  rw [trimEndNewlines, trimEndNewlines, String.toList_ofList, List.rdropWhile_idempotent]

/-- The credential file gives back the text written to it without its trailing line ends. -/
lemma readCredentialFile_asBytes {s text : String} :
    readCredentialFile (asBytes s) = .ok text ↔ trimEndNewlines s = text ∧ text ≠ "" := by
  rw [readCredentialFile, fromUtf8_asBytes]
  by_cases hempty : trimEndNewlines s = ""
  · simp only [hempty, if_true, reduceCtorEq, false_iff, not_and, not_not]
    exact Eq.symm
  · simp only [if_neg hempty, Except.ok.injEq]
    exact ⟨fun h => ⟨h, h ▸ hempty⟩, And.left⟩

/-- What is read has no trailing line ends. -/
lemma trimEndNewlines_of_readCredentialFile {bytes : Bytes} {text : String}
    (h : readCredentialFile bytes = .ok text) : trimEndNewlines text = text := by
  unfold readCredentialFile at h
  cases hraw : fromUtf8 bytes with
  | none => rw [hraw] at h; cases h
  | some raw =>
      simp only [hraw] at h
      split_ifs at h
      obtain rfl := Except.ok.inj h
      exact trimEndNewlines_trimEndNewlines raw

lemma decodeHex_encode {n : ℕ} (b : {b : Bytes // b.length = n}) :
    decodeHex n (Hex.encode b.val) = .ok b := by
  rw [decodeHex, Hex.decode_encode]
  exact dif_pos b.2

lemma recordVerifier_recordOf (verifier : ChannelVerifier) (secret : Option Chars) :
    recordVerifier (recordOf verifier secret) = .ok (some verifier) := by
  simp only [recordVerifier, recordOf, decodeHex_encode, except_ok_do]

end ShaPrint.Channel
