import Mathlib.Tactic.Common

/-!
The status of an IPP response and its code on the wire.
-/

namespace ShaPrint.Ipp

/-- Status of an IPP response. -/
inductive Status where
  | ok
  | notAuthorized
  | attributesOrValuesNotSupported
  | badRequest
  | documentFormatNotSupported
  | notFound
  | notPossible
  | documentTooLarge
  | notAcceptingJobs
  | internalError
  | versionNotSupported
  | unsupportedOperation
  deriving DecidableEq, Repr

namespace Status

def code : Status → ℕ
  | ok => 0x0000
  | notAuthorized => 0x0403
  | attributesOrValuesNotSupported => 0x040b
  | badRequest => 0x0400
  | notFound => 0x0406
  | notPossible => 0x0408
  | documentTooLarge => 0x0409
  | notAcceptingJobs => 0x0508
  | internalError => 0x0500
  | documentFormatNotSupported => 0x040a
  | versionNotSupported => 0x0503
  | unsupportedOperation => 0x0501

lemma code_lt (status : Status) : status.code < 65536 := by
  cases status <;> decide

/-- No two statuses share a code. -/
lemma code_injective : Function.Injective code := by
  intro a b
  cases a <;> cases b <;> decide

end Status

end ShaPrint.Ipp
