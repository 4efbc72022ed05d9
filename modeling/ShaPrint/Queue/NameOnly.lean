import ShaPrint.Queue.Recognition

/-!
Recognition of a client queue by its name alone, on a port of the WSD port monitor.

* `candidateAddress_label`: the address that a label is read back as. The label of a host
  name is read back right; that of an IPv6 address is read as another host.
* `parseClientQueueName_copyOf`: what a queue's name, or a copy of it, stands for.
* `wsd_recognition_iff`: the classification names the right server exactly for the queues
  of hosts that are no IPv6 addresses.
-/

namespace ShaPrint.Queue

open Split Digits Net Client

/-- A host without a port is accepted. -/
lemma validateAddress_bare {host : Chars} (hne : host ≠ [])
    (hchars : ∀ c ∈ host, isHostChar c = true) (hlength : host.length ≤ addressLimit) :
    validateAddress host = .ok () := by
  have hbracket : host.dropPrefix? ['['] = none := by
    rw [dropPrefix?_eq_none]
    rintro ⟨rest, rfl⟩
    exact absurd (hchars '[' List.mem_cons_self) (by decide)
  have hsplit : splitOnce host [':'] = none :=
    splitOnce_singleton_none.mpr fun h => absurd (hchars ':' h) (by decide)
  have hall : host.all (fun c => c.isAlphanum || c == '.' || c == '-') = true :=
    List.all_eq_true.mpr hchars
  have hport : addressPort host = .ok none := by
    rw [addressPort, hbracket]
    simp only [hsplit, hne, hall, decide_false, Bool.not_true, Bool.or_false, Bool.false_eq_true,
      if_false]
  rw [validateAddress, if_neg hne, if_neg (Nat.not_lt.mpr hlength), hport]
  rfl

/-- A label that ends in a port is read back as the text before the last hyphen. -/
lemma candidateAddress_concat (host : Chars) (port : ℕ) :
    candidateAddress (host ++ '-' :: decimal port) = host ++ ':' :: decimal port := by
  have hsplit : rsplitOnce (host ++ '-' :: decimal port) ['-'] = some (host, decimal port) :=
    rsplitOnce_singleton.mpr ⟨rfl, hyphen_not_mem_decimal port⟩
  have hdigits : (decimal port).all Char.isDigit = true :=
    List.all_eq_true.mpr fun c hc => isDigit_of_mem_decimal hc
  rw [candidateAddress, hsplit]
  simp only [ne_eq, decimal_ne_nil, not_false_eq_true, decide_true, hdigits, Bool.and_self, if_true]

lemma candidateAddress_decimal (port : ℕ) : candidateAddress (decimal port) = decimal port := by
  have hsplit : rsplitOnce (decimal port) ['-'] = none :=
    rsplitOnce_singleton_none.mpr (hyphen_not_mem_decimal port)
  rw [candidateAddress, hsplit]

/-- The address that a label is read back as is accepted and has the same label, but it is
the address the label came from only if that is no IPv6 address. -/
lemma candidateAddress_label {host : Chars} {port : ℕ} (h : Canonical host port) :
    validateAddress (candidateAddress (addressLabel (withPort host port))) = .ok ()
      ∧ addressLabel (candidateAddress (addressLabel (withPort host port)))
        = addressLabel (withPort host port)
      ∧ (candidateAddress (addressLabel (withPort host port)) = withPort host port
        ↔ (withPort host port).head? ≠ some '[') := by
  cases h with
  | host hhost hpos hle =>
      have hhead : (host ++ ':' :: decimal port).head? ≠ some '[' := by
        rw [List.head?_append_of_ne_nil _ hhost.nonempty]
        intro hbracket
        exact absurd (hhost.chars '[' (List.mem_of_mem_head? hbracket)) (by decide)
      rw [withPort, if_neg hhost.no_colon, addressLabel_host hhost, candidateAddress_concat]
      exact ⟨validateAddress_host hhost.nonempty hhost.chars hhost.length_le hpos hle,
        addressLabel_host hhost port, iff_of_true rfl hhead⟩
  | ipv6 groups hgroups hpos hle =>
      have hbracket : (withPort (ipv6ToChars groups) port).head? = some '[' := by
        rw [withPort, if_pos (colon_mem_ipv6ToChars hgroups)]
        rfl
      -- an address of host characters is no address in brackets
      have hne : ∀ candidate, (∀ c ∈ candidate.head?, c ≠ '[') →
          (candidate = withPort (ipv6ToChars groups) port
            ↔ (withPort (ipv6ToChars groups) port).head? ≠ some '[') := by
        intro candidate hcandidate
        refine iff_of_false ?_ (not_not.mpr hbracket)
        rintro rfl
        exact hcandidate '[' hbracket rfl
      have hdecimal : (decimal port).length ≤ 5 := length_decimal_le (by decide) (by omega)
      have hlimit : addressLimit = 300 := rfl
      rw [show addressLabel (withPort (ipv6ToChars groups) port) = ipv6Label groups port by
        rw [withPort, if_pos (colon_mem_ipv6ToChars hgroups), addressLabel_ipv6 hgroups], ipv6Label]
      by_cases hempty : ipv6Text groups = []
      · -- only the port is left of the address
        rw [if_pos hempty, candidateAddress_decimal]
        refine ⟨validateAddress_bare (decimal_ne_nil port) (fun c hc => isHostChar_of_mem_decimal hc)
          (by omega), addressLabel_decimal port, hne _ fun c hc => ?_⟩
        rintro rfl
        exact absurd (isHostChar_of_mem_decimal (List.mem_of_mem_head? hc)) (by decide)
      · -- the hyphen of the closing bracket stays with the text
        rw [if_neg hempty]
        set host := (ipv6Text groups).map foldChar ++ ['-'] with hhost
        have hlabel : (ipv6Text groups).map foldChar ++ "--".toList ++ decimal port
            = host ++ '-' :: decimal port := by
          rw [hhost, show ("--".toList : Chars) = ['-', '-'] by decide]
          simp
        have hnonempty : host ≠ [] := by simp [hhost]
        have hchars : ∀ c ∈ host, isHostChar c = true := by
          intro c hc
          rcases List.mem_append.mp hc with hc | hc
          · obtain ⟨d, -, rfl⟩ := List.mem_map.mp hc
            exact isHostChar_foldChar d
          · obtain rfl := List.mem_singleton.mp hc
            decide
        have hhead : host.head? ≠ some '-' := by
          rw [hhost, List.head?_append_of_ne_nil _ (by simpa using hempty), List.head?_map,
            Ne, Option.map_eq_some_iff]
          rintro ⟨d, hd, hfold⟩
          rw [(foldChar_ipv6 (mem_ipv6Text hgroups (List.mem_of_mem_head? hd))).1] at hfold
          simpa [hfold] using head?_dropWhile_false hd
        have hlength : host.length ≤ 253 := by
          have hipv6 := length_ipv6ToChars_le hgroups
          have htext : (ipv6Text groups).length ≤ (ipv6ToChars groups).length :=
            (List.dropWhile_sublist _).length_le
          rw [hhost, List.length_append, List.length_map, List.length_singleton]
          omega
        rw [hlabel, candidateAddress_concat]
        refine ⟨validateAddress_host hnonempty hchars hlength hpos hle,
          addressLabel_hostChars hnonempty hchars hhead port, hne _ fun c hc => ?_⟩
        rw [List.head?_append_of_ne_nil _ hnonempty] at hc
        rintro rfl
        exact absurd (hchars '[' (List.mem_of_mem_head? hc)) (by decide)

/-! ### Names -/

/-- What the name of a queue, or of a copy of it, stands for. -/
lemma parseClientQueueName_copyOf {printer : PrinterName} {address name : Chars}
    {expected queueName : ClientQueueName}
    (hexpected : ClientQueueName.forSharedPrinter printer address = .ok expected)
    (hvalidate : validateAddress (candidateAddress (addressLabel address)) = .ok ())
    (hlabel : addressLabel (candidateAddress (addressLabel address)) = addressLabel address)
    (hcopy : CopyOf (queueText printer (addressLabel address)) name)
    (hparse : ClientQueueName.parse name = .ok queueName) :
    parseClientQueueName name
      = some (printer, candidateAddress (addressLabel address), queueName) := by
  have hspace := space_not_mem_addressLabel address
  have hne : queueText printer (addressLabel address) ≠ [] := by simp [queueText]
  have hclose : (queueText printer (addressLabel address)).dropSuffix? [')']
      = some (printer.chars ++ " (ShaPrint ".toList ++ addressLabel address) :=
    dropSuffix?_eq_some.mpr rfl
  have hsplit : rsplitOnce (printer.chars ++ " (ShaPrint ".toList ++ addressLabel address)
      " (ShaPrint ".toList = some (printer.chars, addressLabel address) := by
    rw [show (" (ShaPrint ".toList : Chars) = " (ShaPrint".toList ++ [' '] by decide]
    exact rsplitOnce_concat hspace
  have hvalue := forSharedPrinter_eq_ok.mp hexpected
  have hexpected : ClientQueueName.forSharedPrinter printer
      (candidateAddress (addressLabel address)) = .ok expected := by
    rw [forSharedPrinter_eq_ok, hlabel, hvalue]
  have htrim := hcopy.trim_eq hne (trim_queueText printer _)
  have hbase := hcopy.baseName (stripTrailingCopySuffix_queueText printer hspace)
  unfold parseClientQueueName
  simp only [htrim, hparse, Except.toOption, Option.bind_some, hbase, hclose, hsplit,
    PrinterName.parse_chars, hvalidate, hexpected, hvalue, ne_eq, not_true_eq_false, if_false]

/-- The name of a queue, or of a copy of it, contains the mark of a derived name. -/
lemma CopyOf.contains {printer : PrinterName} {label name : Chars}
    (h : CopyOf (queueText printer label) name) :
    (splitOnce name " (ShaPrint ".toList).isSome = true := by
  rw [splitOnce_isSome_iff]
  cases h with
  | self => exact ⟨printer.chars, label ++ ")".toList, by simp only [queueText, List.append_assoc]⟩
  | copy number hne hdigits =>
      refine ⟨printer.chars, label ++ (")".toList ++ (" (Copy ".toList ++ (number ++ ")".toList))), ?_⟩
      simp only [copyText, queueText, List.append_assoc]

/-! ### The WSD port monitor -/

/-- A port of the WSD port monitor. -/
def wsdPort (guid : Chars) : Chars := "WSD-".toList ++ guid

lemma trim_wsdPort (guid : Chars) : ∃ guid', trim (wsdPort guid) = wsdPort guid' :=
  exists_trimBoth_append ⟨fun _ hc => Option.some.inj hc ▸ rfl,
    fun _ hc => Option.some.inj hc ▸ rfl⟩ (by decide) guid

/-- On a port of the WSD port monitor the name decides. -/
lemma classify_wsdPort (sha256 : Bytes → Vector UInt8 32) (name guid proxyAuthority : Chars) :
    (SpoolerRecord.mk name (wsdPort guid)).classify sha256 proxyAuthority
      = classifyNamed (trim name) (trim (wsdPort guid)) proxyAuthority := by
  obtain ⟨guid', hport⟩ := trim_wsdPort guid
  have hlower : toAsciiLower (wsdPort guid')
      = 'w' :: 's' :: 'd' :: '-' :: toAsciiLower guid' := by
    have hwsd : toAsciiLower "WSD-".toList = ['w', 's', 'd', '-'] := by decide
    rw [wsdPort, toAsciiLower, List.map_append]
    exact congrArg (· ++ toAsciiLower guid') hwsd
  have hscheme : schemeRest (wsdPort guid') = none := by
    have hipp : ("ipp://".toList : Chars) = ['i', 'p', 'p', ':', '/', '/'] := by decide
    have hhttp : ("http://".toList : Chars) = ['h', 't', 't', 'p', ':', '/', '/'] := by decide
    rw [schemeRest, hlower, hipp, hhttp]
    rfl
  have hwsd : "wsd-".toList.isPrefixOf (toAsciiLower (wsdPort guid')) = true := by
    have hwsd : ("wsd-".toList : Chars) = ['w', 's', 'd', '-'] := by decide
    rw [hlower, hwsd]
    simp
  unfold SpoolerRecord.classify
  simp only [hport, hscheme, Option.bind_none, hwsd, if_true]

/-- The classification is right about the server and the printer, or says nothing. -/
def InventsNothing (server : Chars) (printer : PrinterName) : SpoolerRecordClassification → Prop
  | .recognisedClientQueue queue => queue.serverAddress = server ∧ queue.printerName = printer
  | .ambiguousClientQueue => True
  | .eligibleLocal _ => False
  | .ignored => False

/-- **Recognition by the name alone.** On a port of the WSD port monitor, the queue of a
shared printer, or a copy of it, is recognised with the right server and printer or found
ambiguous, exactly if the server is no IPv6 address or the name is no valid queue name. -/
theorem wsd_recognition_iff (sha256 : Bytes → Vector UInt8 32) {input name : Chars}
    {address : ServerAddress} {printer : PrinterName} {queueName : ClientQueueName}
    (haddress : ServerAddress.parse input = .ok address)
    (hqueue : ClientQueueName.forSharedPrinter printer address.normalized = .ok queueName)
    (hcopy : CopyOf queueName.value name) (guid proxyAuthority : Chars) :
    InventsNothing address.normalized printer
        ((SpoolerRecord.mk name (wsdPort guid)).classify sha256 proxyAuthority)
      ↔ address.normalized.head? ≠ some '[' ∨ ∀ valid, ClientQueueName.parse name ≠ .ok valid := by
  obtain ⟨hcanonical, hnormalized⟩ := canonical_of_parse haddress
  obtain ⟨hvalidate, hlabel, hright⟩ := candidateAddress_label hcanonical
  rw [← hnormalized] at hvalidate hlabel hright
  rw [forSharedPrinter_eq_ok.mp hqueue] at hcopy
  have htrim := hcopy.trim_eq (by simp [queueText]) (trim_queueText printer _)
  rw [classify_wsdPort, htrim, classifyNamed]
  cases hparse : ClientQueueName.parse name with
  | ok valid =>
      -- a valid name is read back as the printer and the candidate address
      have hinvalid : ¬ ∀ other, Except.ok valid ≠ (.ok other : Except AppError _) := fun h =>
        h valid rfl
      rw [parseClientQueueName_copyOf hqueue hvalidate hlabel hcopy hparse, or_iff_left hinvalid, ← hright]
      exact and_iff_left rfl
  | error e =>
      -- an invalid name is found ambiguous, for what it contains
      have hnone : parseClientQueueName name = none := by
        unfold parseClientQueueName
        simp only [htrim, hparse, Except.toOption, Option.bind_none]
      rw [hnone]
      simp only [hcopy.contains, if_true]
      exact iff_of_true trivial (.inr fun valid h => by cases h)

def loopbackServer : ServerAddress :=
  ⟨"::1".toList, 48631, "[::1]:48631".toList⟩

def loopbackQueue : ClientQueueName :=
  ⟨"Office Printer (ShaPrint 1--48631)".toList, by decide, by decide, by decide, by decide,
    by decide⟩

theorem printerLocal_wsd :
    InventsNothing printerLocal.normalized officePrinter
        ((SpoolerRecord.mk (copyText officeQueue.value "1".toList) (wsdPort "3b5a".toList)).classify
          officeDigest "127.0.0.1:48632".toList)
      ↔ printerLocal.normalized.head? ≠ some '['
        ∨ ∀ valid, ClientQueueName.parse (copyText officeQueue.value "1".toList) ≠ .ok valid :=
  wsd_recognition_iff officeDigest
    (by decide : ServerAddress.parse "printer.local".toList = .ok printerLocal)
    (by decide : ClientQueueName.forSharedPrinter officePrinter printerLocal.normalized
      = .ok officeQueue) (.copy _ (by decide) (by decide)) _ _

/-- The queue of `[::1]:48631` is taken for one of the server `1-:48631`. -/
theorem ipv6_queue_invents_server :
    ServerAddress.parse "[::1]:48631".toList = .ok loopbackServer
      ∧ ClientQueueName.forSharedPrinter officePrinter loopbackServer.normalized = .ok loopbackQueue
      ∧ (SpoolerRecord.mk loopbackQueue.value (wsdPort "3b5a".toList)).classify officeDigest
          "127.0.0.1:48632".toList
        = .recognisedClientQueue ⟨loopbackQueue, "1-:48631".toList, officePrinter⟩
      ∧ "1-:48631".toList ≠ loopbackServer.normalized := by
  decide

end ShaPrint.Queue
