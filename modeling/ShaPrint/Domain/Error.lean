import Mathlib.Tactic.Common

/-!
The typed recoverable failures of `domain/error.rs`: a stable code and a message.
-/

namespace ShaPrint

/-- The stable error codes. -/
inductive ErrorCode where
  | invalidInput
  | unknownService
  | invalidState
  | timeout
  | unsupported
  | serverUnavailable
  | serverNotTrusted
  | serverIdentityChanged
  | notAuthorized
  | printerNotShared
  | queueUnavailable
  | internal
  deriving DecidableEq, Repr

/-- A recoverable failure tagged with a stable code. -/
structure AppError where
  code : ErrorCode
  message : String
  deriving DecidableEq, Repr

namespace AppError

def invalidInput (message : String) : AppError := ⟨.invalidInput, message⟩
def unknownService (message : String) : AppError := ⟨.unknownService, message⟩
def invalidState (message : String) : AppError := ⟨.invalidState, message⟩
def timeout (message : String) : AppError := ⟨.timeout, message⟩
def unsupported (message : String) : AppError := ⟨.unsupported, message⟩
def serverUnavailable (message : String) : AppError := ⟨.serverUnavailable, message⟩
def serverNotTrusted (message : String) : AppError := ⟨.serverNotTrusted, message⟩
def serverIdentityChanged (message : String) : AppError := ⟨.serverIdentityChanged, message⟩
def printerNotShared (message : String) : AppError := ⟨.printerNotShared, message⟩
def queueUnavailable (message : String) : AppError := ⟨.queueUnavailable, message⟩
def internal (message : String) : AppError := ⟨.internal, message⟩

end AppError

end ShaPrint
