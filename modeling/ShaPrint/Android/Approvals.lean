import ShaPrint.Android.Server
import ShaPrint.Lib.Processes
import Mathlib.Logic.Function.Basic

/-!
The approval of servers by the user of the Android client,
`features/servers/ServersViewModel.kt`.

The code of the view model runs on the main thread: a call of it runs to its first suspension,
and goes on when the trust store or the inspection of a certificate has answered, in any order.
A step of the trust store, which runs elsewhere, is a section of its own. The model keeps two
facts on the side that the program does not: which certificates were inspected, and the server
that the channel input was filled in for.

* `ServersUiState`, `Screen`, `Model`: what the calls share.
* `Task`, `advance`, `Edit`, `edit`: the calls that suspend, and those that do not.
* `approvals`: the interleavings.
-/

namespace ShaPrint.Android

structure ServersUiState where
  trustedServers : List TrustedServer
  isLoading : Bool
  pendingReviewServer : Option NearbyServer
  inspectingFingerprint : Bool
  inspectedFingerprint : Option String
  inspectionError : Option String
  channelInput : String
  securityAlert : Option String
  deriving DecidableEq

def ServersUiState.initial : ServersUiState := ⟨[], false, none, false, none, none, "", none⟩

/-- The state of the screen, and the server that the channel input was filled in or typed
for. -/
structure Screen where
  ui : ServersUiState
  channelFor : Option NearbyServer
  deriving DecidableEq

/-- An inspection that has returned: what was connected to, and the fingerprint of the
certificate that was presented. -/
structure Inspection where
  host : String
  port : Int32
  fingerprint : String
  deriving DecidableEq

/-- What the calls share: the screen, what the trust store finds, and the inspections. -/
structure Model where
  screen : Screen
  store : String → Option TrustedServer
  inspections : List Inspection

inductive CertificateInspectionResult where
  | success (sha256Fingerprint : String)
  | failure (reason : String)
  deriving DecidableEq

/-- A call that suspends, and how far it is. -/
inductive Task where
  /-- `reviewServer` waits for the trust store. -/
  | review (server : NearbyServer)
  | found (server : NearbyServer) (existing : Option TrustedServer)
  /-- `reviewServer` waits for the inspection. -/
  | inspecting (server : NearbyServer) (existing : Option TrustedServer)
  /-- `approvePendingServer` is called. -/
  | approve
  /-- `approvePendingServer` waits for the trust store; it was called on this screen. -/
  | saving (screen : Screen) (trusted : TrustedServer)
  | saved
  /-- `forgetServer` waits for the trust store. -/
  | forget (canonicalAddress : String)
  | forgotten
  /-- `loadTrustedServers` is called. -/
  | load
  | loading
  | done
  deriving DecidableEq

/-- The calls as they are made. -/
def Task.isCall : Task → Bool
  | review _ | approve | forget _ | load => true
  | _ => false

/-- What a section gets from outside. -/
inductive Answer where
  | go
  | inspected (result : CertificateInspectionResult)
  | listed (servers : List TrustedServer)
  deriving DecidableEq

def changedAlert (canonicalAddress : String) : String :=
  s!"SECURITY WARNING: The certificate fingerprint for {canonicalAddress} has CHANGED from previously approved identity! Do not approve unless the server was deliberately reinstalled."

/-- The screen when a review begins. -/
def Screen.review (screen : Screen) (server : NearbyServer) (existing : Option TrustedServer) :
    Screen :=
  ⟨{ screen.ui with
      pendingReviewServer := some server
      inspectingFingerprint := true
      inspectedFingerprint := none
      inspectionError := none
      securityAlert := none
      channelInput := (existing.bind TrustedServer.networkChannel).getD "" },
    some server⟩

/-- The server of a review is known, with another fingerprint. -/
def mismatches (uppercase : String → String) (existing : Option TrustedServer)
    (fingerprint : String) : Bool :=
  existing.any fun e => !fingerprintsMatch uppercase e.sha256Fingerprint fingerprint

/-- The screen when the inspection of a review has returned. -/
def Screen.inspected (uppercase : String → String) (screen : Screen) (server : NearbyServer)
    (existing : Option TrustedServer) : CertificateInspectionResult → Screen
  | .success fingerprint =>
      if mismatches uppercase existing fingerprint then
        { screen with ui := { screen.ui with
            inspectingFingerprint := false
            inspectedFingerprint := some fingerprint
            securityAlert := some (changedAlert server.canonicalAddress) } }
      else
        { screen with ui := { screen.ui with
            inspectingFingerprint := false
            inspectedFingerprint := some fingerprint } }
  | .failure reason =>
      { screen with ui := { screen.ui with
          inspectingFingerprint := false
          inspectionError := some reason } }

/-- The screen when an approval has been saved. -/
def Screen.approved (screen : Screen) : Screen :=
  ⟨{ screen.ui with
      pendingReviewServer := none
      inspectedFingerprint := none
      securityAlert := none
      channelInput := "" }, none⟩

/-- The server that is saved for the approval of a fingerprint. -/
def trustedServer (server : NearbyServer) (fingerprint channelInput : String) : TrustedServer :=
  ⟨server.host, server.port, server.computerName, fingerprint,
    ifEmptyNull (kotlinTrim channelInput), true⟩

/-- `approvePendingServer`, up to the trust store. -/
def approvePendingServer (screen : Screen) : Task :=
  match screen.ui.pendingReviewServer with
  | none => .done
  | some server =>
      match screen.ui.inspectedFingerprint with
      | none => .done
      | some fingerprint =>
          .saving screen (trustedServer server fingerprint screen.ui.channelInput)

/-- The inspections, once one more has returned. -/
def Model.returned (m : Model) (server : NearbyServer) :
    CertificateInspectionResult → List Inspection
  | .success fingerprint => ⟨server.host, server.port, fingerprint⟩ :: m.inspections
  | .failure _ => m.inspections

/-- The next section of a call, and the calls that it makes. -/
def advance (uppercase : String → String) (m : Model) (t : Task) (x : Answer) :
    Option (Model × Task × List Task) :=
  match t, x with
  | .review server, .go => some (m, .found server (m.store server.canonicalAddress), [])
  | .found server existing, .go =>
      some ({ m with screen := m.screen.review server existing }, .inspecting server existing, [])
  | .inspecting server existing, .inspected result =>
      some ({ m with
          screen := m.screen.inspected uppercase server existing result
          inspections := m.returned server result }, .done, [])
  | .approve, .go => some (m, approvePendingServer m.screen, [])
  | .saving _ trusted, .go =>
      some ({ m with
          store := Function.update m.store trusted.canonicalAddress (some trusted) }, .saved, [])
  | .saved, .go => some ({ m with screen := m.screen.approved }, .done, [.load])
  | .forget canonicalAddress, .go =>
      some ({ m with store := Function.update m.store canonicalAddress none }, .forgotten, [])
  | .forgotten, .go => some (m, .done, [.load])
  | .load, .go =>
      some ({ m with screen := { m.screen with ui := { m.screen.ui with isLoading := true } } },
        .loading, [])
  | .loading, .listed servers =>
      some ({ m with screen := { m.screen with
          ui := { m.screen.ui with trustedServers := servers, isLoading := false } } }, .done, [])
  | _, _ => none

/-- The calls that do not suspend. -/
inductive Edit where
  | updateChannelInput (channel : String)
  | dismissReviewDialog
  deriving DecidableEq

/-- The screen after a call that does not suspend. What is typed is typed for the server under
review. -/
def Screen.edit (screen : Screen) : Edit → Screen
  | .updateChannelInput channel =>
      ⟨{ screen.ui with channelInput := channel }, screen.ui.pendingReviewServer⟩
  | .dismissReviewDialog =>
      ⟨{ screen.ui with
          pendingReviewServer := none
          inspectedFingerprint := none
          inspectionError := none
          securityAlert := none
          channelInput := "" }, none⟩

/-- The calls of a view model, on a trust store. -/
def viewModel (uppercase : String → String) (store : String → Option TrustedServer) :
    Processes Model Task Answer Edit where
  init := ⟨⟨.initial, none⟩, store, []⟩
  starts := Task.isCall
  advance := advance uppercase
  outside m e := some { m with screen := m.screen.edit e }

abbrev ApprovalWorld := Processes.World Model Task

abbrev ApprovalEvent := Processes.Event Task Answer Edit

/-- The interleavings of any calls. -/
def approvals (uppercase : String → String) (store : String → Option TrustedServer) :
    StepSystem ApprovalWorld ApprovalEvent :=
  (viewModel uppercase store).system

end ShaPrint.Android
