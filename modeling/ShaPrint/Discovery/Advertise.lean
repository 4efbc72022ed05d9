import ShaPrint.Discovery.Announcement
import ShaPrint.Domain.Printer

/-!
What a server advertises, `Advertised` of `adapters/discovery/advertise.rs`.

* `properties`: the text properties, with one entry for each printer.
* `Advertised.encode`: the announcement, trimmed to the printers that fit in a datagram;
  `exists_carried` says which printers it carries.
-/

namespace ShaPrint.Discovery

def pathProperty : Chars := "rp".toList
def nameProperty : Chars := "name".toList
def queueProperty : Chars := "queue".toList
def versionProperty : Chars := "v".toList
def resourcePath : Chars := "ipp/print".toList

/-- `CARGO_PKG_VERSION` -/
def packageVersion : Chars := "3.4.5".toList

def maxAdvertisedPrinters : ℕ := 48
def maxPacket : ℕ := 1400

structure Advertised where
  label : Chars
  target : Chars
  port : ℕ
  printers : List PrinterName
  deriving DecidableEq

/-- The properties that a browser reads out of an advertisement. -/
def properties (label : Chars) (printers : List PrinterName) : List (Chars × Chars) :=
  [(pathProperty, resourcePath), (nameProperty, label), (versionProperty, packageVersion)]
    ++ printers.map fun printer => (queueProperty, printer.chars)

namespace Advertised

/-- The loop of `encode`, which drops the last printer until the packet is small enough. -/
def encodeLoop (a : Advertised) (ttl : Duration) (printers : List PrinterName) :
    Except AppError Bytes :=
  (encodeAnnouncement a.label a.target a.port (properties a.label printers) ttl).bind fun packet =>
    if packet.length ≤ maxPacket ∨ printers = [] then .ok packet
    else encodeLoop a ttl printers.dropLast
  termination_by printers.length
  decreasing_by
    rename_i h
    have hpos := List.length_pos_iff.mpr (not_or.mp h).2
    rw [List.length_dropLast]
    omega

def encode (a : Advertised) (ttl : Duration) : Except AppError Bytes :=
  a.encodeLoop ttl (a.printers.take maxAdvertisedPrinters)

lemma exists_carried_of_encodeLoop {a : Advertised} {ttl : Duration} {printers : List PrinterName}
    {packet : Bytes} (h : a.encodeLoop ttl printers = .ok packet) :
    ∃ carried, carried <+: printers
      ∧ encodeAnnouncement a.label a.target a.port (properties a.label carried) ttl = .ok packet := by
  induction hn : printers.length generalizing printers with
  | zero =>
      rw [encodeLoop, except_bind_eq_ok] at h
      obtain ⟨packet', hpacket, h⟩ := h
      rw [if_pos (.inr (List.length_eq_zero_iff.mp hn))] at h
      obtain rfl := Except.ok.inj h
      exact ⟨printers, List.prefix_rfl, hpacket⟩
  | succ n ih =>
      rw [encodeLoop, except_bind_eq_ok] at h
      obtain ⟨packet', hpacket, h⟩ := h
      split at h
      · obtain rfl := Except.ok.inj h
        exact ⟨printers, List.prefix_rfl, hpacket⟩
      · obtain ⟨carried, hcarried, hencode⟩ := ih h (by rw [List.length_dropLast]; omega)
        exact ⟨carried, hcarried.trans (List.dropLast_prefix printers), hencode⟩

/-- A packet carries the first of the advertised printers. -/
theorem exists_carried {a : Advertised} {ttl : Duration} {packet : Bytes}
    (h : a.encode ttl = .ok packet) :
    ∃ carried, carried <+: a.printers
      ∧ encodeAnnouncement a.label a.target a.port (properties a.label carried) ttl = .ok packet := by
  obtain ⟨carried, hcarried, hencode⟩ := exists_carried_of_encodeLoop h
  exact ⟨carried, hcarried.trans (List.take_prefix _ _), hencode⟩

end Advertised

/-- No key of an advertisement has an equals sign. -/
lemma no_equals_in_properties {label : Chars} {printers : List PrinterName} :
    ∀ property ∈ properties label printers, '=' ∉ property.1 := by
  have hpath : '=' ∉ pathProperty := by decide
  have hname : '=' ∉ nameProperty := by decide
  have hversion : '=' ∉ versionProperty := by decide
  have hqueue : '=' ∉ queueProperty := by decide
  intro property hproperty
  simp only [properties, List.mem_append, List.mem_cons, List.not_mem_nil, or_false,
    List.mem_map] at hproperty
  rcases hproperty with (rfl | rfl | rfl) | ⟨printer, -, rfl⟩
  · exact hpath
  · exact hname
  · exact hversion
  · exact hqueue

end ShaPrint.Discovery
