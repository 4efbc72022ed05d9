import ShaPrint.Channel.Channel
import ShaPrint.Ipp.Forwarding

/-!
What is left of a Network Channel after a restart, and what a server admits of it.

* `configure_eq_ok`: what a successful configuration leaves in the two files.
* `open_windows`, `open_unix`: the channel opened from them.
* `Reopens`, `Injects`: the channel is opened again as it was configured, and what the client
  proxy injects of it is admitted.
* `survivesRestart_iff`: both hold, whatever was on the disk before, if and only if no reader
  on the way takes a part of the channel for padding and its length can be written.
-/

namespace ShaPrint.Channel

open Ipp

variable {X : Services} {setup : Setup} {writes : Writes} {salt : Option Salt}
  {disk disk' : Disk} {c : String} {configured : NetworkChannel}

/-- The other code does what it says: a record is read as it was written, Windows gives back
what it protected, and no two channels have the same salted digest as `c`. -/
structure Dependable (X : Services) (c : String) : Prop where
  records : ∀ verifier (secret : Option Bytes), ∃ bytes,
    X.toVec (recordOf verifier (secret.map Hex.encode)) = some bytes
      ∧ X.fromSlice bytes = some (recordOf verifier (secret.map Hex.encode))
  protects : ∃ p, X.protect (asBytes c) = some p ∧ X.unprotect p = some (asBytes c)
  noCollision : ∀ salt d, channelDigest X salt c = channelDigest X salt d → d = c

/-! ### The files after a configuration -/

/-- The protected copy of a channel, on the platform that keeps one. -/
def protectedCopy (X : Services) (platform : Platform) (c : String) : Option Bytes :=
  match platform with
  | .unix => none
  | .windows => X.protect (asBytes c)

lemma protectSecret_eq_ok {platform : Platform} {secret : Option Chars} :
    protectSecret X platform c = .ok secret →
      secret = (protectedCopy X platform c).map Hex.encode := by
  intro h
  cases platform with
  | unix => exact (Except.ok.inj h).symm
  | windows =>
      simp only [protectSecret] at h
      cases hp : X.protect (asBytes c) with
      | none => rw [hp] at h; cases h
      | some p =>
          rw [hp] at h
          simp only [protectedCopy, hp, Option.map_some]
          exact (Except.ok.inj h).symm

/-- Where a file is named for it, the credential is in it: as it was written just now, or as it
is read. -/
lemma keepCredential_eq_ok {kept : Disk} (h : keepCredential setup writes disk c = .ok kept)
    (hnames : setup.namesCredentialFile = true) :
    ∃ bytes, kept.credentialFile = some bytes
      ∧ (bytes = asBytes c ∨ readCredentialFile bytes = .ok c) := by
  rw [keepCredential, if_pos hnames] at h
  cases hpersist : persistMachineCredential writes.credential disk c with
  | ok d =>
      simp only [hpersist, Except.ok.injEq] at h
      subst h
      unfold persistMachineCredential at hpersist
      split_ifs at hpersist
      obtain ⟨-, -, rfl⟩ := except_map_eq_ok.mp hpersist
      exact ⟨asBytes c, rfl, .inl rfl⟩
  | error e =>
      simp only [hpersist] at h
      split_ifs at h with hread
      obtain rfl := Except.ok.inj h
      obtain ⟨bytes, hfile, hc⟩ := Option.bind_eq_some_iff.mp hread
      exact ⟨bytes, hfile, .inr (except_toOption_eq_some.mp hc)⟩

/-- **A successful configuration**: the verifier is in memory and on the disk, with the
protected copy, and the credential is kept. -/
lemma configure_eq_ok (hX : Dependable X c)
    (h : configure X setup writes salt disk c = (.ok configured, disk')) :
    ∃ s bytes kept, configured = ⟨some ⟨s, channelDigest X s c⟩, some c⟩
      ∧ keepCredential setup writes disk c = .ok kept
      ∧ disk' = { kept with verifierFile := some bytes }
      ∧ X.fromSlice bytes = some (recordOf ⟨s, channelDigest X s c⟩
          ((protectedCopy X setup.platform c).map Hex.encode)) := by
  unfold configure at h
  by_cases hempty : c = ""
  · rw [if_pos hempty] at h
    cases congrArg Prod.fst h
  rw [if_neg hempty] at h
  cases salt with
  | none => cases congrArg Prod.fst h
  | some s =>
      cases hsecret : protectSecret X setup.platform c with
      | error e =>
          rw [hsecret] at h
          cases congrArg Prod.fst h
      | ok secret =>
          obtain rfl := protectSecret_eq_ok hsecret
          rw [hsecret] at h
          cases hkept : keepCredential setup writes disk c with
          | error e =>
              rw [hkept] at h
              cases congrArg Prod.fst h
          | ok kept =>
              obtain ⟨bytes, hwrite, hread⟩ :=
                hX.records ⟨s, channelDigest X s c⟩ (protectedCopy X setup.platform c)
              simp only [hkept, persist, hwrite] at h
              cases hw : writes.verifier with
              | error e =>
                  rw [hw] at h
                  cases congrArg Prod.fst h
              | ok u =>
                  simp only [hw, Except.map, Prod.mk.injEq, Except.ok.injEq] at h
                  exact ⟨s, bytes, kept, h.1.symm, rfl, h.2.symm, hread⟩

/-- With files that can be written, a configuration succeeds. -/
lemma configure_writable (hX : Dependable X c) (hc : c ≠ "") (s : Salt) :
    ∃ configured disk', configure X setup {} (some s) {} c = (.ok configured, disk')
      ∧ disk'.credentialFile = if setup.namesCredentialFile then some (asBytes c) else none := by
  obtain ⟨secret, hsecret⟩ : ∃ secret, protectSecret X setup.platform c = .ok secret := by
    cases hplatform : setup.platform with
    | unix => exact ⟨_, rfl⟩
    | windows =>
        obtain ⟨p, hp, -⟩ := hX.protects
        exact ⟨_, by rw [protectSecret, hp]⟩
  obtain rfl := protectSecret_eq_ok hsecret
  obtain ⟨bytes, hwrite, -⟩ :=
    hX.records ⟨s, channelDigest X s c⟩ (protectedCopy X setup.platform c)
  cases hnames : setup.namesCredentialFile <;>
    simp [configure, hc, hsecret, keepCredential, hnames, persistMachineCredential, persist, hwrite,
      Except.map]

/-! ### Opening it again -/

/-- On Windows both come from the record. -/
lemma open_windows {bytes p : Bytes} {verifier : ChannelVerifier}
    (hplatform : setup.platform = .windows) (hfile : disk.verifierFile = some bytes)
    (hread : X.fromSlice bytes = some (recordOf verifier (some (Hex.encode p))))
    (hp : X.unprotect p = some (asBytes c)) :
    openWithCredentialFile X setup disk = .ok ⟨some verifier, some c⟩ := by
  have hsecret : decodeSecret X .windows (Hex.encode p) = .ok c := by
    simp only [decodeSecret, Hex.decode_encode, hp, fromUtf8_asBytes]
  have hrecord : readVerifierFile X .windows (some bytes) = .ok (some verifier, some c) := by
    simp only [readVerifierFile, hread, recordVerifier_recordOf, except_ok_do]
    simp only [recordOf, hsecret, except_ok_do]
  simp only [openWithCredentialFile, hplatform, hfile, hrecord, except_ok_do]

/-- Elsewhere the credential is that of the machine. -/
lemma open_unix {bytes : Bytes} {verifier : ChannelVerifier}
    (hfile : disk.verifierFile = some bytes)
    (hread : X.fromSlice bytes = some (recordOf verifier none)) :
    openWithCredentialFile X setup disk
      = (loadMachineCredential setup disk).map fun secret => ⟨some verifier, secret⟩ := by
  have hrecord : readVerifierFile X setup.platform (some bytes) = .ok (some verifier, none) := by
    simp only [readVerifierFile, hread, recordVerifier_recordOf, except_ok_do]
    rfl
  simp only [openWithCredentialFile, hfile, hrecord, except_ok_do]
  rfl

/-! ### What survives -/

/-- The channel opens, as it was configured: it admits `c` and nothing else, and sends `c`. -/
def Reopens (X : Services) (setup : Setup) (disk : Disk) (c : String) : Prop :=
  ∃ ch, openWithCredentialFile X setup disk = .ok ch ∧ ch.clientCredential = some c
    ∧ ch.authorizes X c = true ∧ ∀ d, d ≠ c → ch.authorizes X d = false

/-- What the client proxy injects of the channel is admitted by the server: of every well-formed
request for a printer URI that can be written. -/
def Injects (X : Services) (server : NetworkChannel) (c : String) : Prop :=
  ∀ input uri, WellFormedRequest input → (asBytes uri).length < 65536 →
    ∃ out r v, prepareProxyRequest input uri (some c) = .ok out ∧ Request.parse out = .ok r
      ∧ r.value "network-channel" = some v ∧ server.authorizes X v = true

/-- Every successful configuration of `c`, from any disk, survives. -/
def SurvivesRestart (X : Services) (setup : Setup) (c : String) : Prop :=
  ∀ writes salt disk configured disk',
    configure X setup writes salt disk c = (.ok configured, disk') →
      Reopens X setup disk' c ∧ Injects X configured c

/-- Where the client credential is read from gives back the text: the record of Windows always
does, the credential of systemd must be the channel, and the machine credential file drops
trailing line ends. -/
def Stored (setup : Setup) (c : String) : Prop :=
  match setup.platform with
  | .windows => True
  | .unix =>
      match setup.systemdCredential with
      | some bytes => readCredentialFile bytes = .ok c
      | none => setup.namesCredentialFile = true ∧ trimEndNewlines c = c

/-- The channel can be written as the value of an attribute, and is read as it was written. -/
structure Carried (c : String) : Prop where
  short : (asBytes c).length < 65536
  noTrailingNul : trimEndNul c = c

lemma stored_unix_iff (hplatform : setup.platform = .unix) (hnone : setup.systemdCredential = none) :
    Stored setup c ↔ setup.namesCredentialFile = true ∧ trimEndNewlines c = c := by
  rw [Stored, hplatform, hnone]

lemma stored_systemd_iff (hplatform : setup.platform = .unix) {bytes : Bytes}
    (hsome : setup.systemdCredential = some bytes) :
    Stored setup c ↔ readCredentialFile bytes = .ok c := by
  rw [Stored, hplatform, hsome]

/-- A configured server admits the channel and nothing else. -/
lemma authorizes_configured (hX : Dependable X c) (s : Salt) (secret : Option String) (d : String) :
    NetworkChannel.authorizes X ⟨some ⟨s, channelDigest X s c⟩, secret⟩ d = true ↔ d = c := by
  rw [authorizes_iff rfl]
  exact ⟨hX.noCollision s d, fun h => h ▸ rfl⟩

lemma reopens_of_open (hX : Dependable X c) {s : Salt}
    (h : openWithCredentialFile X setup disk = .ok ⟨some ⟨s, channelDigest X s c⟩, some c⟩) :
    Reopens X setup disk c := by
  refine ⟨_, h, rfl, (authorizes_configured hX s _ c).mpr rfl, fun d hd => ?_⟩
  exact Bool.eq_false_iff.mpr (mt (authorizes_configured hX s _ d).mp hd)

/-! ### The client credential -/

/-- A stored credential is loaded after a configuration. -/
lemma loadMachineCredential_of_stored (hplatform : setup.platform = .unix) (hc : c ≠ "")
    (hstored : Stored setup c) {kept : Disk} (hkept : keepCredential setup writes disk c = .ok kept)
    (hfile : disk'.credentialFile = kept.credentialFile) :
    loadMachineCredential setup disk' = .ok (some c) := by
  cases hsystemd : setup.systemdCredential with
  | some bytes =>
      rw [stored_systemd_iff hplatform hsystemd] at hstored
      simp only [loadMachineCredential, hsystemd, hstored]
      rfl
  | none =>
      obtain ⟨hnames, htrim⟩ := (stored_unix_iff hplatform hsystemd).mp hstored
      obtain ⟨bytes, hbytes, hread⟩ := keepCredential_eq_ok hkept hnames
      have hread : readCredentialFile bytes = .ok c := by
        rcases hread with rfl | hread
        · exact readCredentialFile_asBytes.mpr ⟨htrim, hc⟩
        · exact hread
      simp only [loadMachineCredential, hsystemd, hfile, hbytes, hnames, if_true, hread]
      rfl

lemma reopens_of_stored (hX : Dependable X c) (hc : c ≠ "") (hstored : Stored setup c)
    (h : configure X setup writes salt disk c = (.ok configured, disk')) :
    Reopens X setup disk' c := by
  obtain ⟨s, bytes, kept, -, hkept, rfl, hread⟩ := configure_eq_ok hX h
  refine reopens_of_open hX (s := s) ?_
  cases hplatform : setup.platform with
  | windows =>
      obtain ⟨p, hp, hun⟩ := hX.protects
      have hcopy : protectedCopy X setup.platform c = some p := by rw [hplatform, protectedCopy, hp]
      rw [hcopy] at hread
      exact open_windows hplatform rfl hread hun
  | unix =>
      have hcopy : protectedCopy X setup.platform c = none := by rw [hplatform, protectedCopy]
      rw [hcopy] at hread
      have hload : loadMachineCredential setup { kept with verifierFile := some bytes }
          = .ok (some c) := loadMachineCredential_of_stored hplatform hc hstored hkept rfl
      rw [open_unix rfl hread, hload]
      rfl

/-- What is opened with the channel as its credential was stored. -/
lemma SurvivesRestart.stored (hX : Dependable X c) (hc : c ≠ "") (h : SurvivesRestart X setup c) :
    Stored setup c := by
  obtain ⟨configured, disk', hrun, hfile⟩ : ∃ configured disk',
      configure X setup {} (some ⟨List.replicate 16 0, rfl⟩) {} c = (.ok configured, disk') ∧ _ :=
    configure_writable hX hc _
  obtain ⟨ch, hopen, hsecret, -⟩ := (h _ _ _ _ _ hrun).1
  obtain ⟨s, bytes, kept, -, -, hdisk, hread⟩ := configure_eq_ok hX hrun
  cases hplatform : setup.platform with
  | windows => rw [Stored, hplatform]; trivial
  | unix =>
      have hcopy : protectedCopy X setup.platform c = none := by rw [hplatform, protectedCopy]
      rw [hcopy] at hread
      rw [open_unix (by rw [hdisk]) hread] at hopen
      obtain ⟨secret, hload, rfl⟩ := except_map_eq_ok.mp hopen
      obtain rfl : secret = some c := hsecret
      cases hsystemd : setup.systemdCredential with
      | some b =>
          simp only [loadMachineCredential, hsystemd] at hload
          obtain ⟨text, htext, heq⟩ := except_map_eq_ok.mp hload
          obtain rfl := Option.some.inj heq
          exact (stored_systemd_iff hplatform hsystemd).mpr htext
      | none =>
          cases hnames : setup.namesCredentialFile with
          | false => simp [loadMachineCredential, hsystemd, hfile, hnames] at hload
          | true =>
              simp only [loadMachineCredential, hsystemd, hfile, hnames, if_true] at hload
              obtain ⟨text, htext, heq⟩ := except_map_eq_ok.mp hload
              obtain rfl := Option.some.inj heq
              exact (stored_unix_iff hplatform hsystemd).mpr
                ⟨hnames, (readCredentialFile_asBytes.mp htext).1⟩

/-! ### The injected value -/

lemma injects_of_carried (hX : Dependable X c) (hcarried : Carried c) (s : Salt)
    (secret : Option String) : Injects X ⟨some ⟨s, channelDigest X s c⟩, secret⟩ c := by
  intro input uri hwell huri
  obtain ⟨r, out, r', -, hout, hparse, -, -, -, -, hattributes⟩ :=
    hwell.preserved ⟨uri, huri⟩ (some ⟨c, hcarried.short⟩)
  refine ⟨out, r', c, hout, hparse, ?_, (authorizes_configured hX s secret c).mpr rfl⟩
  have hfind : r'.find "network-channel"
      = some ⟨"network-channel", Tag.text, [asBytes c], [Tag.text]⟩ := by
    rw [Request.find, hattributes]
    exact find_forwardedAttributes uri c r.attributes
  have htext : Tag.isText Tag.text = true := by decide
  simp [Request.value, hfind, Attribute.text, htext, hcarried.noTrailingNul]

/-- What a server admits of the proxy's requests has come through unchanged. -/
lemma Injects.carried (hX : Dependable X c) {s : Salt} {secret : Option String}
    (h : Injects X ⟨some ⟨s, channelDigest X s c⟩, secret⟩ c) : Carried c := by
  obtain ⟨out, r, v, -, hparse, hvalue, hauthorized⟩ :=
    h duplexRequest "ipp://127.0.0.1/" duplexRequest_wellFormed (by decide)
  obtain rfl := (authorizes_configured hX s secret v).mp hauthorized
  obtain ⟨htrim, hshort⟩ := value_fits hparse hvalue
  exact ⟨hshort, htrim⟩

/-- **The Network Channel survives a restart** exactly where its credential is stored and the
channel can be carried by an attribute. -/
theorem survivesRestart_iff (X : Services) (setup : Setup) (c : String) (hX : Dependable X c)
    (hc : c ≠ "") : SurvivesRestart X setup c ↔ Stored setup c ∧ Carried c := by
  constructor
  · intro h
    refine ⟨h.stored hX hc, ?_⟩
    obtain ⟨configured, disk', hrun, -⟩ : ∃ configured disk',
        configure X setup {} (some ⟨List.replicate 16 0, rfl⟩) {} c = (.ok configured, disk') ∧ _ :=
      configure_writable hX hc _
    obtain ⟨s, -, -, rfl, -⟩ := configure_eq_ok hX hrun
    exact (h _ _ _ _ _ hrun).2.carried hX
  · rintro ⟨hstored, hcarried⟩ writes salt disk configured disk' hrun
    refine ⟨reopens_of_stored hX hc hstored hrun, ?_⟩
    obtain ⟨s, -, -, rfl, -⟩ := configure_eq_ok hX hrun
    exact injects_of_carried hX hcarried s (some c)

/-! ### A channel that survives, and one that does not -/

/-- The texts between the quotation marks of a record's JSON form. -/
def jsonParts (r : VerifierRecord) : List Chars :=
  (r.salt.elim [['{'], "salt".toList, ":null,".toList] fun salt =>
      [['{'], "salt".toList, [':'], salt, [',']])
    ++ ["sha256".toList, [':'], r.sha256]
    ++ r.clientSecretProtected.elim [['}']] fun secret =>
      [[','], "client_secret_protected".toList, [':'], secret, ['}']]

/-- The salted record that has the given parts. -/
def recordOfParts (parts : List Chars) : Option VerifierRecord :=
  let r : VerifierRecord := ⟨parts[3]?, parts[7]?.getD [], parts[11]?⟩
  if jsonParts r = parts then some r else none

/-- Services under which the salted `c` has the given digest, and every other text another. -/
def servicesFor (c : String) (digest : Digest) : Services where
  sha256 b := if b.drop 16 = asBytes c then digest else ⟨List.replicate 32 0, List.length_replicate⟩
  toVec r := some (utf8 (['"'].intercalate (jsonParts r)))
  fromSlice b := (fromUtf8 b).bind fun s => recordOfParts (s.toList.splitOn '"')
  protect := some
  unprotect := some

lemma recordOfParts_recordOf (verifier : ChannelVerifier) (secret : Option Chars) :
    recordOfParts (jsonParts (recordOf verifier secret)) = some (recordOf verifier secret) := by
  cases secret <;> exact if_pos rfl

lemma quote_not_mem_jsonParts (verifier : ChannelVerifier) (secret : Option Bytes) {part : Chars}
    (h : part ∈ jsonParts (recordOf verifier (secret.map Hex.encode))) : '"' ∉ part := by
  have hhex : ∀ b, '"' ∉ Hex.encode b := fun b hb => absurd (Hex.isHex_encode hb) (by decide)
  have hsalt := hhex verifier.salt.val
  have hdigest := hhex verifier.digest.val
  cases secret with
  | none =>
      simp only [jsonParts, recordOf, Option.map_none, Option.elim_some, Option.elim_none,
        List.cons_append, List.nil_append, List.mem_cons, List.not_mem_nil, or_false] at h
      rcases h with rfl | rfl | rfl | rfl | rfl | rfl | rfl | rfl | rfl
      all_goals first | assumption | decide
  | some p =>
      have hsecret := hhex p
      simp only [jsonParts, recordOf, Option.map_some, Option.elim_some,
        List.cons_append, List.nil_append, List.mem_cons, List.not_mem_nil, or_false] at h
      rcases h with rfl | rfl | rfl | rfl | rfl | rfl | rfl | rfl | rfl | rfl | rfl | rfl | rfl
      all_goals first | assumption | decide

lemma servicesFor_dependable {c : String} {digest : Digest}
    (hdigest : digest.val ≠ List.replicate 32 0) : Dependable (servicesFor c digest) c where
  records verifier secret := by
    refine ⟨_, rfl, ?_⟩
    have hparts := List.splitOn_intercalate '"'
      (fun part => quote_not_mem_jsonParts verifier secret) (List.append_ne_nil_of_left_ne_nil
        (List.append_ne_nil_of_right_ne_nil _ (List.cons_ne_nil _ _)) _)
    simp only [servicesFor, fromUtf8_utf8, Option.bind_some, String.toList_ofList, hparts,
      recordOfParts_recordOf]
  protects := ⟨_, rfl, rfl⟩
  noCollision salt d h := by
    have hdrop : ∀ s : String, (salt.val ++ asBytes s).drop 16 = asBytes s :=
      fun s => List.drop_left' salt.2
    simp only [channelDigest, servicesFor, hdrop, if_true] at h
    by_contra hne
    rw [if_neg (mt (fun heq => asBytes_injective heq) hne)] at h
    exact hdigest (congrArg Subtype.val h)

/-- The daemon on Linux: it names a machine credential file, and systemd passes none. -/
def linuxDaemon : Setup := ⟨.unix, true, none⟩

/-- The digest of `secret` after a salt of zeros. -/
def secretDigest : Digest := ⟨[54, 252, 189, 196, 121, 147, 120, 129, 31, 227, 96, 63, 50, 127, 230, 38, 182, 41,
  253, 198, 60, 9, 88, 204, 126, 230, 252, 226, 24, 55, 82, 203], rfl⟩

/-- The digest of `secret` and a line end after a salt of zeros. -/
def secretLineDigest : Digest := ⟨[44, 157, 26, 230, 150, 204, 68, 77, 110, 71, 155, 36, 213, 151, 67, 49, 148, 180,
  33, 23, 61, 175, 50, 63, 120, 61, 106, 9, 21, 56, 37, 135], rfl⟩

theorem secret_survivesRestart :
    SurvivesRestart (servicesFor "secret" secretDigest) linuxDaemon "secret" :=
  (survivesRestart_iff (servicesFor "secret" secretDigest) linuxDaemon "secret"
    (servicesFor_dependable (by decide)) (by decide)).mpr
      ⟨⟨rfl, by decide⟩, ⟨by decide, by decide⟩⟩

/-- A channel that ends in a line end is accepted, and another one is loaded. -/
theorem secretLine_not_survivesRestart :
    ¬SurvivesRestart (servicesFor "secret\n" secretLineDigest) linuxDaemon "secret\n" := by
  intro h
  have hstored := h.stored (servicesFor_dependable (by decide)) (by decide)
  exact absurd hstored.2 (by decide)

end ShaPrint.Channel
