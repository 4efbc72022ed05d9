import ShaPrint.Queue.Name

/-!
A queue name identifies the printer and the server it is derived from.

* `addressLabel_host`, `addressLabel_ipv6`: the label of a canonical address. A host name
  keeps its text up to the port separator; an IPv6 address loses its leading colons.
* `addressLabel_injective`: distinct canonical addresses have distinct labels.
* `forSharedPrinter_injective`: the derived name determines the printer and the address.
-/

namespace ShaPrint.Queue

open Split Digits Net Client

/-! ### Labels of canonical addresses -/

lemma foldChar_of_isHostChar {c : Char} (h : isHostChar c = true) : foldChar c = c := if_pos h

lemma foldChar_ipv6 {c : Char} (h : c ∈ ipv6Alphabet) :
    (foldChar c = '-' ↔ c = ':') ∧ (if foldChar c = '-' then ':' else foldChar c) = c := by
  have hall : ∀ x ∈ ipv6Alphabet, (foldChar x = '-' ↔ x = ':')
      ∧ (if foldChar x = '-' then ':' else foldChar x) = x :=
    List.all_iff_forall_prop.mp (by decide)
  exact hall c h

lemma hyphen_not_mem_decimal (n : ℕ) : '-' ∉ decimal n := fun h =>
  absurd (isDigit_of_mem_decimal h) (by decide)

lemma map_foldChar_decimal (n : ℕ) : (decimal n).map foldChar = decimal n := by
  rw [List.map_congr_left fun c hc => foldChar_of_isHostChar (isHostChar_of_mem_decimal hc),
    List.map_id']

lemma getLast?_append_decimal (text : Chars) (n : ℕ) :
    ∀ c ∈ (text ++ decimal n).getLast?, (c == '-') = false := by
  intro c hc
  rw [List.getLast?_append_of_ne_nil _ (decimal_ne_nil n)] at hc
  rw [beq_eq_false_iff_ne]
  rintro rfl
  exact hyphen_not_mem_decimal n (List.mem_of_getLast? hc)

/-- The label of a host and its port is the host, a hyphen and the port. -/
lemma addressLabel_hostChars {host : Chars} (hne : host ≠ [])
    (hchars : ∀ c ∈ host, isHostChar c = true) (hhead : host.head? ≠ some '-') (port : ℕ) :
    addressLabel (host ++ ':' :: decimal port) = host ++ '-' :: decimal port := by
  have hfold : (host ++ ':' :: decimal port).map foldChar = host ++ '-' :: decimal port := by
    rw [List.map_append, List.map_cons, map_foldChar_decimal,
      List.map_congr_left fun c hc => foldChar_of_isHostChar (hchars c hc), List.map_id']
    rfl
  have htrimmed : Trimmed (· == '-') (host ++ '-' :: decimal port) := by
    constructor
    · intro c hc
      rw [List.head?_append_of_ne_nil _ hne] at hc
      rw [beq_eq_false_iff_ne]
      rintro rfl
      exact hhead hc
    · rw [show host ++ '-' :: decimal port = (host ++ ['-']) ++ decimal port by simp]
      exact getLast?_append_decimal _ port
  rw [addressLabel, hfold, trimBoth_of_trimmed htrimmed]
  exact if_neg (by simp)

lemma addressLabel_host {host : Chars} (h : IsHost host) (port : ℕ) :
    addressLabel (host ++ ':' :: decimal port) = host ++ '-' :: decimal port :=
  addressLabel_hostChars h.nonempty h.chars h.head_ne port

lemma addressLabel_decimal (port : ℕ) : addressLabel (decimal port) = decimal port := by
  have htrimmed : Trimmed (· == '-') (decimal port) := by
    refine ⟨fun c hc => ?_, getLast?_append_decimal [] port⟩
    rw [beq_eq_false_iff_ne]
    rintro rfl
    exact hyphen_not_mem_decimal port (List.mem_of_mem_head? hc)
  rw [addressLabel, map_foldChar_decimal, trimBoth_of_trimmed htrimmed]
  exact if_neg (decimal_ne_nil port)

/-- The text of an IPv6 address in a label. -/
def ipv6Text (groups : List ℕ) : Chars := (ipv6ToChars groups).dropWhile (· == ':')

/-- The label of an IPv6 address: its text without the leading colons, and the port. -/
def ipv6Label (groups : List ℕ) (port : ℕ) : Chars :=
  if ipv6Text groups = [] then decimal port
  else (ipv6Text groups).map foldChar ++ "--".toList ++ decimal port

lemma mem_ipv6Text {groups : List ℕ} (h : IsIpv6 groups) {c : Char} (hc : c ∈ ipv6Text groups) :
    c ∈ ipv6Alphabet :=
  mem_ipv6ToChars h ((List.dropWhile_sublist _).mem hc)

lemma addressLabel_ipv6 {groups : List ℕ} (h : IsIpv6 groups) (port : ℕ) :
    addressLabel ('[' :: ipv6ToChars groups ++ "]:".toList ++ decimal port)
      = ipv6Label groups port := by
  -- the leading colons of the text
  have hcolons : ∃ colons : Chars, (∀ c ∈ colons, c = ':')
      ∧ ipv6ToChars groups = colons ++ ipv6Text groups := by
    refine ⟨(ipv6ToChars groups).takeWhile (· == ':'), fun c hc => ?_, ?_⟩
    · simpa using List.mem_takeWhile_imp hc
    · exact List.takeWhile_append_dropWhile.symm
  obtain ⟨colons, hall, htext⟩ := hcolons
  have hsep : ("]:".toList : Chars).map foldChar = "--".toList := by decide
  have hfold : ('[' :: ipv6ToChars groups ++ "]:".toList ++ decimal port).map foldChar
      = '-' :: colons.map foldChar
        ++ ((ipv6Text groups).map foldChar ++ "--".toList ++ decimal port) := by
    rw [List.map_append, List.map_append, List.map_cons, hsep, map_foldChar_decimal, htext,
      List.map_append]
    simp [show foldChar '[' = '-' by decide]
  have hleading : ∀ c ∈ '-' :: colons.map foldChar, (c == '-') = true := by
    intro c hc
    rcases List.mem_cons.mp hc with rfl | hc
    · rfl
    · obtain ⟨d, hd, rfl⟩ := List.mem_map.mp hc
      rw [hall d hd]
      decide
  have hnonempty : ∀ text : Chars, text ++ decimal port ≠ [] := fun text =>
    List.append_ne_nil_of_right_ne_nil _ (decimal_ne_nil port)
  rw [addressLabel, hfold, trimBoth_append hleading, ipv6Label]
  by_cases hempty : ipv6Text groups = []
  · -- only colons: the hyphens for the brackets go as well
    have htrimmed : Trimmed (· == '-') (decimal port) := by
      refine ⟨fun c hc => ?_, getLast?_append_decimal [] port⟩
      rw [beq_eq_false_iff_ne]
      rintro rfl
      exact hyphen_not_mem_decimal port (List.mem_of_mem_head? hc)
    have hhyphens : ∀ c ∈ "--".toList, (c == '-') = true :=
      List.all_iff_forall_prop.mp (by decide)
    rw [if_pos hempty, hempty, List.map_nil, List.nil_append, trimBoth_append hhyphens,
      trimBoth_of_trimmed htrimmed]
    exact if_neg (decimal_ne_nil port)
  · have htrimmed : Trimmed (· == '-')
        ((ipv6Text groups).map foldChar ++ "--".toList ++ decimal port) := by
      refine ⟨fun c hc => ?_, getLast?_append_decimal _ port⟩
      rw [List.append_assoc, List.head?_append_of_ne_nil _ (by simpa using hempty), List.head?_map,
        Option.mem_def, Option.map_eq_some_iff] at hc
      obtain ⟨d, hd, rfl⟩ := hc
      rw [beq_eq_false_iff_ne, Ne, (foldChar_ipv6 (mem_ipv6Text h (List.mem_of_mem_head? hd))).1]
      simpa using head?_dropWhile_false hd
    rw [if_neg hempty, trimBoth_of_trimmed htrimmed]
    exact if_neg (hnonempty _)

/-! ### Distinct addresses have distinct labels -/

lemma host_ne_concat_hyphen {host text : Chars} (h : IsHost host) : host ≠ text ++ ['-'] := by
  rintro rfl
  exact h.getLast_ne List.getLast?_concat

/-- The label of a host name is no label of an IPv6 address. -/
lemma hostLabel_ne_ipv6Label {host : Chars} (h : IsHost host) (groups : List ℕ) (port port' : ℕ) :
    host ++ '-' :: decimal port ≠ ipv6Label groups port' := by
  intro heq
  unfold ipv6Label at heq
  split at heq
  · exact hyphen_not_mem_decimal port' (heq ▸ List.mem_append_right _ List.mem_cons_self)
  · have hsep : ("--".toList : Chars) = ['-', '-'] := by decide
    rw [hsep, show ∀ text : Chars, text ++ ['-', '-'] ++ decimal port'
      = (text ++ ['-']) ++ '-' :: decimal port' by simp] at heq
    obtain ⟨hhost, -⟩ := append_cons_inj heq (hyphen_not_mem_decimal _) (hyphen_not_mem_decimal _)
    exact host_ne_concat_hyphen h hhost

/-- Folding keeps the texts of IPv6 addresses apart. -/
lemma map_foldChar_injective {groups groups' : List ℕ} (h : IsIpv6 groups) (h' : IsIpv6 groups')
    (heq : (ipv6Text groups).map foldChar = (ipv6Text groups').map foldChar) :
    ipv6Text groups = ipv6Text groups' := by
  have hinvert : ∀ {groups : List ℕ}, IsIpv6 groups →
      ((ipv6Text groups).map foldChar).map (fun c => if c = '-' then ':' else c)
        = ipv6Text groups := by
    intro groups h
    rw [List.map_map]
    calc (ipv6Text groups).map _ = (ipv6Text groups).map id :=
          List.map_congr_left fun c hc => (foldChar_ipv6 (mem_ipv6Text h hc)).2
      _ = ipv6Text groups := List.map_id _
  rw [← hinvert h, heq, hinvert h']

lemma ipv6Label_injective {groups groups' : List ℕ} {port port' : ℕ} (h : IsIpv6 groups)
    (h' : IsIpv6 groups') (heq : ipv6Label groups port = ipv6Label groups' port') :
    groups = groups' ∧ port = port' := by
  have hsep : ∀ (text : Chars) (port : ℕ), text ++ "--".toList ++ decimal port
      = (text ++ ['-']) ++ '-' :: decimal port := by
    intro text port
    rw [show ("--".toList : Chars) = ['-', '-'] by decide]
    simp
  have hhyphen : ∀ (text : Chars) (port port' : ℕ),
      text ++ "--".toList ++ decimal port ≠ decimal port' := by
    intro text port port' heq
    rw [hsep] at heq
    exact hyphen_not_mem_decimal port' (heq ▸ List.mem_append_right _ List.mem_cons_self)
  unfold ipv6Label at heq
  split at heq
  · rename_i hempty
    split at heq
    · rename_i hempty'
      exact ⟨dropColons_ipv6ToChars_injective h h' (hempty.trans hempty'.symm),
        decimal_injective heq⟩
    · exact absurd heq.symm (hhyphen _ _ _)
  · split at heq
    · exact absurd heq (hhyphen _ _ _)
    · rw [hsep, hsep] at heq
      obtain ⟨htext, hport⟩ :=
        append_cons_inj heq (hyphen_not_mem_decimal _) (hyphen_not_mem_decimal _)
      have htext := map_foldChar_injective h h' (List.append_cancel_right htext)
      exact ⟨dropColons_ipv6ToChars_injective h h' htext, decimal_injective hport⟩

/-- Distinct canonical addresses have distinct labels. -/
theorem addressLabel_injective {host host' : Chars} {port port' : ℕ} (h : Canonical host port)
    (h' : Canonical host' port')
    (heq : addressLabel (withPort host port) = addressLabel (withPort host' port')) :
    host = host' ∧ port = port' := by
  cases h with
  | host hhost hpos hport =>
      rw [withPort, if_neg hhost.no_colon, addressLabel_host hhost] at heq
      cases h' with
      | host hhost' hpos' hport' =>
          rw [withPort, if_neg hhost'.no_colon, addressLabel_host hhost'] at heq
          obtain ⟨rfl, hdecimal⟩ :=
            append_cons_inj heq (hyphen_not_mem_decimal _) (hyphen_not_mem_decimal _)
          exact ⟨rfl, decimal_injective hdecimal⟩
      | ipv6 groups' hgroups' hpos' hport' =>
          rw [withPort, if_pos (colon_mem_ipv6ToChars hgroups'), addressLabel_ipv6 hgroups'] at heq
          exact absurd heq (hostLabel_ne_ipv6Label hhost groups' _ _)
  | ipv6 groups hgroups hpos hport =>
      rw [withPort, if_pos (colon_mem_ipv6ToChars hgroups), addressLabel_ipv6 hgroups] at heq
      cases h' with
      | host hhost' hpos' hport' =>
          rw [withPort, if_neg hhost'.no_colon, addressLabel_host hhost'] at heq
          exact absurd heq.symm (hostLabel_ne_ipv6Label hhost' groups _ _)
      | ipv6 groups' hgroups' hpos' hport' =>
          rw [withPort, if_pos (colon_mem_ipv6ToChars hgroups'), addressLabel_ipv6 hgroups'] at heq
          obtain ⟨rfl, rfl⟩ := ipv6Label_injective hgroups hgroups' heq
          exact ⟨rfl, rfl⟩

/-! ### Names -/

lemma isHostChar_foldChar (c : Char) : isHostChar (foldChar c) = true := by
  unfold foldChar
  split
  · rename_i h
    exact h
  · decide

/-- Labels are made of host characters. -/
lemma mem_addressLabel {serverAddress : Chars} {c : Char} (h : c ∈ addressLabel serverAddress) :
    isHostChar c = true := by
  have hserver : ∀ x ∈ "server".toList, isHostChar x = true :=
    List.all_iff_forall_prop.mp (by decide)
  unfold addressLabel at h
  dsimp only at h
  split at h
  · exact hserver c h
  · obtain ⟨d, -, rfl⟩ := List.mem_map.mp (trimBoth_subset h)
    exact isHostChar_foldChar d

lemma space_not_mem_addressLabel (serverAddress : Chars) : ' ' ∉ addressLabel serverAddress :=
  fun h => absurd (mem_addressLabel h) (by decide)

/-- The text of a queue name is trimmed. -/
lemma trim_queueText (printer : PrinterName) (label : Chars) :
    trim (queueText printer label) = queueText printer label := by
  have htrimmed := trimBoth_eq_self_iff.mp printer.trimmed
  have hne : printer.chars ≠ [] := printer.nonempty
  refine trimBoth_of_trimmed ⟨fun c hc => ?_, fun c hc => ?_⟩
  · rw [queueText, List.append_assoc, List.append_assoc,
      List.head?_append_of_ne_nil _ hne] at hc
    exact htrimmed.1 c hc
  · rw [queueText, List.getLast?_append_of_ne_nil _ (by decide)] at hc
    obtain rfl := Option.some.inj hc
    decide

lemma forSharedPrinter_eq_ok {printer : PrinterName} {serverAddress : Chars}
    {name : ClientQueueName} :
    ClientQueueName.forSharedPrinter printer serverAddress = .ok name
      ↔ name.value = queueText printer (addressLabel serverAddress) := by
  rw [ClientQueueName.forSharedPrinter, ClientQueueName.parse_eq_ok, trim_queueText]

/-- The text of a queue name determines the printer and the label. -/
lemma queueText_injective {printer printer' : PrinterName} {label label' : Chars}
    (hlabel : ' ' ∉ label) (hlabel' : ' ' ∉ label')
    (heq : queueText printer label = queueText printer' label') :
    printer = printer' ∧ label = label' := by
  have hlast : ∀ (printer : PrinterName) (label : Chars), queueText printer label
      = (printer.chars ++ " (ShaPrint".toList) ++ ' ' :: (label ++ ")".toList) := by
    intro printer label
    rw [queueText, show (" (ShaPrint ".toList : Chars) = " (ShaPrint".toList ++ [' '] by decide]
    simp
  have hclose : ∀ label : Chars, ' ' ∉ label → ' ' ∉ label ++ ")".toList := by
    intro label h
    rw [List.mem_append, not_or]
    exact ⟨h, by decide⟩
  rw [hlast, hlast] at heq
  obtain ⟨hprinter, hlabels⟩ := append_cons_inj heq (hclose label hlabel) (hclose label' hlabel')
  exact ⟨PrinterName.chars_injective (List.append_cancel_right hprinter),
    List.append_cancel_right hlabels⟩

/-- **Queue names identify the printer and the server.** Names derived for canonical
addresses are the same only for the same printer and the same address. -/
theorem forSharedPrinter_injective {input input' : Chars} {a b : ServerAddress}
    (ha : ServerAddress.parse input = .ok a) (hb : ServerAddress.parse input' = .ok b)
    {p q : PrinterName} {name : ClientQueueName}
    (hp : ClientQueueName.forSharedPrinter p a.normalized = .ok name)
    (hq : ClientQueueName.forSharedPrinter q b.normalized = .ok name) : p = q ∧ a = b := by
  obtain ⟨hcanonical, hnormalized⟩ := canonical_of_parse ha
  obtain ⟨hcanonical', hnormalized'⟩ := canonical_of_parse hb
  have htext := (forSharedPrinter_eq_ok.mp hp).symm.trans (forSharedPrinter_eq_ok.mp hq)
  obtain ⟨rfl, hlabel⟩ := queueText_injective (space_not_mem_addressLabel _)
    (space_not_mem_addressLabel _) htext
  rw [hnormalized, hnormalized'] at hlabel
  obtain ⟨hhost, hport⟩ := addressLabel_injective hcanonical hcanonical' hlabel
  refine ⟨rfl, ?_⟩
  cases a
  cases b
  simp only at hhost hport hnormalized hnormalized'
  subst hhost hport
  rw [hnormalized, hnormalized']

def printerLocal : ServerAddress :=
  ⟨"printer.local".toList, 48631, "printer.local:48631".toList⟩

def officePrinter : PrinterName := ⟨"Office Printer", by decide, by decide, by decide, by decide⟩

def officeQueue : ClientQueueName :=
  ⟨"Office Printer (ShaPrint printer.local-48631)".toList, by decide, by decide, by decide,
    by decide, by decide⟩

theorem officeQueue_identifies :
    ClientQueueName.forSharedPrinter officePrinter printerLocal.normalized = .ok officeQueue
      ∧ officePrinter = officePrinter ∧ printerLocal = printerLocal :=
  ⟨by decide, forSharedPrinter_injective
    (by decide : ServerAddress.parse "Printer.LOCAL".toList = .ok printerLocal)
    (by decide : ServerAddress.parse "printer.local:48631".toList = .ok printerLocal)
    (by decide : ClientQueueName.forSharedPrinter officePrinter printerLocal.normalized
      = .ok officeQueue) (by decide)⟩

end ShaPrint.Queue
