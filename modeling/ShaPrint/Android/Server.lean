import ShaPrint.Android.IppMessage

/-!
Nearby and trusted servers of the Android client, `core/domain/model/Server.kt`, and the
comparison of fingerprints of `core/network/TlsCertificateInspector.kt`.
-/

namespace ShaPrint.Android

/-- A server that has been seen to advertise itself. -/
structure NearbyServer where
  host : String
  port : Int32
  computerName : String
  deriving DecidableEq

/-- A server whose certificate the user has approved. -/
structure TrustedServer where
  host : String
  port : Int32
  computerName : String
  sha256Fingerprint : String
  networkChannel : Option String
  isOnline : Bool
  deriving DecidableEq

def canonicalAddress (host : String) (port : Int32) : String := s!"{host}:{port}"

def NearbyServer.canonicalAddress (server : NearbyServer) : String :=
  Android.canonicalAddress server.host server.port

def TrustedServer.canonicalAddress (server : TrustedServer) : String :=
  Android.canonicalAddress server.host server.port

/-- Kotlin's `trim`. -/
def kotlinTrim (s : String) : String := String.ofList (Split.trimBoth isWhitespace s.toList)

/-- `ifEmpty { null }` -/
def ifEmptyNull (s : String) : Option String := if s = "" then none else some s

/-- A fingerprint without separators, in upper case as the given function makes it. -/
def normalizeFingerprint (uppercase : String → String) (fingerprint : String) : String :=
  uppercase (String.ofList (fingerprint.toList.filter fun c => c ≠ ':' && c ≠ ' '))

/-- `TlsFingerprint.matches` -/
def fingerprintsMatch (uppercase : String → String) (a b : String) : Bool :=
  normalizeFingerprint uppercase a == normalizeFingerprint uppercase b

end ShaPrint.Android
