import ShaPrint.Lib.Json.Fields
import ShaPrint.Queue.Repair

/-!
The messages between a client and the daemon, from `ipc/dto.rs` and `adapters/daemon.rs`, with
their JSON forms.

* The records that messages carry.
* `ControlRequest`, `ControlResponse`: the messages, tagged with `op` and with `result`.
* `AppErrorDto.ofError`, `appErrorFromDto`: an error as a record, and what a client makes of it.
-/

namespace ShaPrint

/-- The stable text of an error code. -/
def ErrorCode.asStr : ErrorCode → String
  | .invalidInput => "invalid-input"
  | .unknownService => "unknown-service"
  | .invalidState => "invalid-state"
  | .timeout => "timeout"
  | .unsupported => "unsupported"
  | .serverUnavailable => "server-unavailable"
  | .serverNotTrusted => "server-untrusted"
  | .serverIdentityChanged => "server-identity-changed"
  | .notAuthorized => "not-authorized"
  | .printerNotShared => "printer-not-shared"
  | .queueUnavailable => "queue-unavailable"
  | .internal => "internal"

def ErrorCode.all : List ErrorCode :=
  [invalidInput, unknownService, invalidState, timeout, unsupported, serverUnavailable,
    serverNotTrusted, serverIdentityChanged, notAuthorized, printerNotShared, queueUnavailable,
    internal]

end ShaPrint

namespace ShaPrint.Daemon

open Json Queue

/-! ### Records -/

structure ServiceStatusDto where
  id : Chars
  state : Chars
  detail : Chars
  deriving DecidableEq

instance : Serde ServiceStatusDto where
  serialize x := record [field "id" x.id, field "state" x.state, field "detail" x.detail]
  deserialize v := (members v).bind fun ms =>
    ServiceStatusDto.mk <$> readMember ms "id" <*> readMember ms "state" <*> readMember ms "detail"
  deserialize_serialize x := by simp [readMember]
  serialize_ne_null _ h := by cases h

structure PrintFailureDto where
  path : Chars
  code : Chars
  printer : Option Chars
  message : Chars
  recovery : Chars
  observedAtMs : UInt64
  deriving DecidableEq

instance : Serde PrintFailureDto where
  serialize x := record [field "path" x.path, field "code" x.code, omitted "printer" x.printer,
    field "message" x.message, field "recovery" x.recovery,
    field "observed_at_ms" x.observedAtMs]
  deserialize v := (members v).bind fun ms =>
    PrintFailureDto.mk <$> readMember ms "path" <*> readMember ms "code" <*>
      readOmitted ms "printer" <*> readMember ms "message" <*> readMember ms "recovery" <*>
      readMember ms "observed_at_ms"
  deserialize_serialize x := by simp [readMember, readOmitted]
  serialize_ne_null _ h := by cases h

structure RuntimeStatusDto where
  services : List ServiceStatusDto
  networkChannelConfigured : Option Bool
  readiness : Option Chars
  sharedPrinters : Option (List Chars)
  clientQueues : Option (List Chars)
  failureCode : Option Chars
  recentFailure : Option PrintFailureDto
  deriving DecidableEq

instance : Serde RuntimeStatusDto where
  serialize x := record [field "services" x.services,
    omitted "network_channel_configured" x.networkChannelConfigured,
    omitted "readiness" x.readiness, omitted "shared_printers" x.sharedPrinters,
    omitted "client_queues" x.clientQueues, omitted "failure_code" x.failureCode,
    omitted "recent_failure" x.recentFailure]
  deserialize v := (members v).bind fun ms =>
    RuntimeStatusDto.mk <$> readMember ms "services" <*>
      readOmitted ms "network_channel_configured" <*> readOmitted ms "readiness" <*>
      readOmitted ms "shared_printers" <*> readOmitted ms "client_queues" <*>
      readOmitted ms "failure_code" <*> readOmitted ms "recent_failure"
  deserialize_serialize x := by simp [readMember, readOmitted]
  serialize_ne_null _ h := by cases h

structure DiagnosticCheckDto where
  check : Chars
  status : Chars
  code : Option Chars
  detail : Chars
  recovery : Option Chars
  deriving DecidableEq

instance : Serde DiagnosticCheckDto where
  serialize x := record [field "check" x.check, field "status" x.status, omitted "code" x.code,
    field "detail" x.detail, omitted "recovery" x.recovery]
  deserialize v := (members v).bind fun ms =>
    DiagnosticCheckDto.mk <$> readMember ms "check" <*> readMember ms "status" <*>
      readOmitted ms "code" <*> readMember ms "detail" <*> readOmitted ms "recovery"
  deserialize_serialize x := by simp [readMember, readOmitted]
  serialize_ne_null _ h := by cases h

structure DiagnosticsReportDto where
  checks : List DiagnosticCheckDto
  healthy : Bool
  recentFailure : Option PrintFailureDto
  deriving DecidableEq

instance : Serde DiagnosticsReportDto where
  serialize x := record [field "checks" x.checks, field "healthy" x.healthy,
    omitted "recent_failure" x.recentFailure]
  deserialize v := (members v).bind fun ms =>
    DiagnosticsReportDto.mk <$> readMember ms "checks" <*> readMember ms "healthy" <*>
      readOmitted ms "recent_failure"
  deserialize_serialize x := by simp [readMember, readOmitted]
  serialize_ne_null _ h := by cases h

structure AppErrorDto where
  code : Chars
  message : Chars
  deriving DecidableEq

instance : Serde AppErrorDto where
  serialize x := record [field "code" x.code, field "message" x.message]
  deserialize v := (members v).bind fun ms =>
    AppErrorDto.mk <$> readMember ms "code" <*> readMember ms "message"
  deserialize_serialize x := by simp [readMember]
  serialize_ne_null _ h := by cases h

def AppErrorDto.ofError (error : AppError) : AppErrorDto :=
  ⟨error.code.asStr.toList, error.message.toList⟩

/-- The error that a client makes of an answer. -/
def appErrorFromDto (dto : AppErrorDto) : AppError :=
  ⟨(ErrorCode.all.find? fun code => code.asStr.toList == dto.code).getD .internal,
    .ofList dto.message⟩

structure LocalPrinterDto where
  name : Chars
  shared : Bool
  deriving DecidableEq

instance : Serde LocalPrinterDto where
  serialize x := record [field "name" x.name, field "shared" x.shared]
  deserialize v := (members v).bind fun ms =>
    LocalPrinterDto.mk <$> readMember ms "name" <*> readMember ms "shared"
  deserialize_serialize x := by simp [readMember]
  serialize_ne_null _ h := by cases h

instance : Serde RecognisedClientQueueDto where
  serialize x := record [field "queue_name" x.queueName, field "server_address" x.serverAddress,
    field "printer_name" x.printerName]
  deserialize v := (members v).bind fun ms =>
    RecognisedClientQueueDto.mk <$> readMember ms "queue_name" <*>
      readMember ms "server_address" <*> readMember ms "printer_name"
  deserialize_serialize x := by simp [readMember]
  serialize_ne_null _ h := by cases h

structure ClientQueueDto where
  queueName : Chars
  serverAddress : Chars
  printerName : Chars
  uri : Chars
  deriving DecidableEq

instance : Serde ClientQueueDto where
  serialize x := record [field "queue_name" x.queueName, field "server_address" x.serverAddress,
    field "printer_name" x.printerName, field "uri" x.uri]
  deserialize v := (members v).bind fun ms =>
    ClientQueueDto.mk <$> readMember ms "queue_name" <*> readMember ms "server_address" <*>
      readMember ms "printer_name" <*> readMember ms "uri"
  deserialize_serialize x := by simp [readMember]
  serialize_ne_null _ h := by cases h

structure TroubleshootingActionDto where
  action : Chars
  outcome : Chars
  deriving DecidableEq

instance : Serde TroubleshootingActionDto where
  serialize x := record [field "action" x.action, field "outcome" x.outcome]
  deserialize v := (members v).bind fun ms =>
    TroubleshootingActionDto.mk <$> readMember ms "action" <*> readMember ms "outcome"
  deserialize_serialize x := by simp [readMember]
  serialize_ne_null _ h := by cases h

structure LocalTroubleshootingDto where
  target : RecognisedClientQueueDto
  version : Chars
  checks : List DiagnosticCheckDto
  queueEmpty : Bool
  testPrintEnabled : Bool
  repairEnabled : Bool
  attemptedActions : List TroubleshootingActionDto
  sessionId : Option UInt64
  requestedMedia : Option Chars
  submission : Option Chars
  physicalResult : Option Chars
  userSymptom : Option Chars
  deriving DecidableEq

instance : Serde LocalTroubleshootingDto where
  serialize x := record [field "target" x.target, field "version" x.version,
    field "checks" x.checks, field "queue_empty" x.queueEmpty,
    field "test_print_enabled" x.testPrintEnabled, field "repair_enabled" x.repairEnabled,
    field "attempted_actions" x.attemptedActions, omitted "session_id" x.sessionId,
    omitted "requested_media" x.requestedMedia, omitted "submission" x.submission,
    omitted "physical_result" x.physicalResult, omitted "user_symptom" x.userSymptom]
  deserialize v := (members v).bind fun ms =>
    LocalTroubleshootingDto.mk <$> readMember ms "target" <*> readMember ms "version" <*>
      readMember ms "checks" <*> readMember ms "queue_empty" <*>
      readMember ms "test_print_enabled" <*> readMember ms "repair_enabled" <*>
      readMember ms "attempted_actions" <*> readOmitted ms "session_id" <*>
      readOmitted ms "requested_media" <*> readOmitted ms "submission" <*>
      readOmitted ms "physical_result" <*> readOmitted ms "user_symptom"
  deserialize_serialize x := by simp [readMember, readOmitted]
  serialize_ne_null _ h := by cases h

structure ServerIdentityDto where
  fingerprint : Chars
  port : UInt16
  deriving DecidableEq

instance : Serde ServerIdentityDto where
  serialize x := record [field "fingerprint" x.fingerprint, field "port" x.port]
  deserialize v := (members v).bind fun ms =>
    ServerIdentityDto.mk <$> readMember ms "fingerprint" <*> readMember ms "port"
  deserialize_serialize x := by simp [readMember]
  serialize_ne_null _ h := by cases h

structure NetworkChannelStatusDto where
  configured : Bool
  deriving DecidableEq

instance : Serde NetworkChannelStatusDto where
  serialize x := record [field "configured" x.configured]
  deserialize v := (members v).bind fun ms =>
    NetworkChannelStatusDto.mk <$> readMember ms "configured"
  deserialize_serialize x := by simp [readMember]
  serialize_ne_null _ h := by cases h

structure ServerTrustReviewDto where
  address : Chars
  currentFingerprint : Chars
  previousFingerprint : Option Chars
  trusted : Bool
  deriving DecidableEq

instance : Serde ServerTrustReviewDto where
  serialize x := record [field "address" x.address,
    field "current_fingerprint" x.currentFingerprint,
    nulled "previous_fingerprint" x.previousFingerprint, field "trusted" x.trusted]
  deserialize v := (members v).bind fun ms =>
    ServerTrustReviewDto.mk <$> readMember ms "address" <*> readMember ms "current_fingerprint" <*>
      readOmitted ms "previous_fingerprint" <*> readMember ms "trusted"
  deserialize_serialize x := by simp [readMember, readOmitted]
  serialize_ne_null _ h := by cases h

structure TrustedServerEntryDto where
  address : Chars
  fingerprint : Chars
  deriving DecidableEq

instance : Serde TrustedServerEntryDto where
  serialize x := record [field "address" x.address, field "fingerprint" x.fingerprint]
  deserialize v := (members v).bind fun ms =>
    TrustedServerEntryDto.mk <$> readMember ms "address" <*> readMember ms "fingerprint"
  deserialize_serialize x := by simp [readMember]
  serialize_ne_null _ h := by cases h

structure TrustedServerPrintersDto where
  address : Chars
  printers : List Chars
  deriving DecidableEq

instance : Serde TrustedServerPrintersDto where
  serialize x := record [field "address" x.address, field "printers" x.printers]
  deserialize v := (members v).bind fun ms =>
    TrustedServerPrintersDto.mk <$> readMember ms "address" <*> readMember ms "printers"
  deserialize_serialize x := by simp [readMember]
  serialize_ne_null _ h := by cases h

/-! ### Messages -/

/-- What a client asks of the daemon. -/
inductive ControlRequest where
  | inspectLocalClientQueue (target : RecognisedClientQueueDto)
  | refreshTestPrintSession (id : UInt64)
  | sendTestPrint (id : UInt64)
  | confirmTestPrint (id : UInt64) (result : Chars) (symptom : Option Chars)
  | closeTestPrintSession (id : UInt64)
  | status
  | serverIdentity
  | startService (id : Chars)
  | stopService (id : Chars)
  | shutdown
  | drain (timeoutSecs : Option UInt64)
  | networkChannelStatus
  | setNetworkChannel (channel : Chars)
  | inspectServer (address : Chars)
  | approveServer (address fingerprint : Chars)
  | forgetServer (address : Chars)
  | listTrustedServers
  | listServerPrinters (address : Chars)
  | installClientQueue (address printer : Chars)
  | repairClientQueue (address printer : Chars)
  | listClientQueues
  | listLocalPrinters
  | setSharedPrinters (printers : List Chars)
  | diagnostics
  deriving DecidableEq

namespace ControlRequest

def fields : ControlRequest → List (String × Option Value)
  | .inspectLocalClientQueue target =>
      [field "op" "inspect-local-client-queue".toList, field "target" target]
  | .refreshTestPrintSession id =>
      [field "op" "refresh-test-print-session".toList, field "id" id]
  | .sendTestPrint id => [field "op" "send-test-print".toList, field "id" id]
  | .confirmTestPrint id result symptom =>
      [field "op" "confirm-test-print".toList,
        field "id" id, field "result" result, omitted "symptom" symptom]
  | .closeTestPrintSession id =>
      [field "op" "close-test-print-session".toList, field "id" id]
  | .status => [field "op" "status".toList]
  | .serverIdentity => [field "op" "server-identity".toList]
  | .startService id => [field "op" "start-service".toList, field "id" id]
  | .stopService id => [field "op" "stop-service".toList, field "id" id]
  | .shutdown => [field "op" "shutdown".toList]
  | .drain timeoutSecs =>
      [field "op" "drain".toList, nulled "timeout_secs" timeoutSecs]
  | .networkChannelStatus => [field "op" "network-channel-status".toList]
  | .setNetworkChannel channel =>
      [field "op" "set-network-channel".toList, field "channel" channel]
  | .inspectServer address =>
      [field "op" "inspect-server".toList, field "address" address]
  | .approveServer address fingerprint =>
      [field "op" "approve-server".toList,
        field "address" address, field "fingerprint" fingerprint]
  | .forgetServer address => [field "op" "forget-server".toList, field "address" address]
  | .listTrustedServers => [field "op" "list-trusted-servers".toList]
  | .listServerPrinters address =>
      [field "op" "list-server-printers".toList, field "address" address]
  | .installClientQueue address printer =>
      [field "op" "install-client-queue".toList,
        field "address" address, field "printer" printer]
  | .repairClientQueue address printer =>
      [field "op" "repair-client-queue".toList,
        field "address" address, field "printer" printer]
  | .listClientQueues => [field "op" "list-client-queues".toList]
  | .listLocalPrinters => [field "op" "list-local-printers".toList]
  | .setSharedPrinters printers =>
      [field "op" "set-shared-printers".toList, field "printers" printers]
  | .diagnostics => [field "op" "diagnostics".toList]

/-- Reads the fields of the message that a tag names. -/
def ofFields (ms : List (String × Value)) (tag : String) : Option ControlRequest :=
  if tag = "inspect-local-client-queue" then (readMember ms "target").map .inspectLocalClientQueue
  else if tag = "refresh-test-print-session" then (readMember ms "id").map .refreshTestPrintSession
  else if tag = "send-test-print" then (readMember ms "id").map .sendTestPrint
  else if tag = "confirm-test-print" then
    (readMember ms "id").bind fun id => (readMember ms "result").bind fun result =>
      (readOmitted ms "symptom").map (.confirmTestPrint id result)
  else if tag = "close-test-print-session" then (readMember ms "id").map .closeTestPrintSession
  else if tag = "status" then some .status
  else if tag = "server-identity" then some .serverIdentity
  else if tag = "start-service" then (readMember ms "id").map .startService
  else if tag = "stop-service" then (readMember ms "id").map .stopService
  else if tag = "shutdown" then some .shutdown
  else if tag = "drain" then (readOmitted ms "timeout_secs").map .drain
  else if tag = "network-channel-status" then some .networkChannelStatus
  else if tag = "set-network-channel" then (readMember ms "channel").map .setNetworkChannel
  else if tag = "inspect-server" then (readMember ms "address").map .inspectServer
  else if tag = "approve-server" then
    (readMember ms "address").bind fun address =>
      (readMember ms "fingerprint").map (.approveServer address)
  else if tag = "forget-server" then (readMember ms "address").map .forgetServer
  else if tag = "list-trusted-servers" then some .listTrustedServers
  else if tag = "list-server-printers" then (readMember ms "address").map .listServerPrinters
  else if tag = "install-client-queue" then
    (readMember ms "address").bind fun address =>
      (readMember ms "printer").map (.installClientQueue address)
  else if tag = "repair-client-queue" then
    (readMember ms "address").bind fun address =>
      (readMember ms "printer").map (.repairClientQueue address)
  else if tag = "list-client-queues" then some .listClientQueues
  else if tag = "list-local-printers" then some .listLocalPrinters
  else if tag = "set-shared-printers" then (readMember ms "printers").map .setSharedPrinters
  else if tag = "diagnostics" then some .diagnostics
  else none

instance : Serde ControlRequest where
  serialize message := record message.fields
  deserialize v := (members v).bind fun ms =>
    (readMember ms "op").bind fun tag => ofFields ms (.ofList tag)
  deserialize_serialize message := by
    cases message with
    | inspectLocalClientQueue target => simp [fields, ofFields, readMember]
    | refreshTestPrintSession id => simp [fields, ofFields, readMember]
    | sendTestPrint id => simp [fields, ofFields, readMember]
    | confirmTestPrint id result symptom => simp [fields, ofFields, readMember, readOmitted]
    | closeTestPrintSession id => simp [fields, ofFields, readMember]
    | status => simp [fields, ofFields, readMember]
    | serverIdentity => simp [fields, ofFields, readMember]
    | startService id => simp [fields, ofFields, readMember]
    | stopService id => simp [fields, ofFields, readMember]
    | shutdown => simp [fields, ofFields, readMember]
    | drain timeoutSecs => simp [fields, ofFields, readMember, readOmitted]
    | networkChannelStatus => simp [fields, ofFields, readMember]
    | setNetworkChannel channel => simp [fields, ofFields, readMember]
    | inspectServer address => simp [fields, ofFields, readMember]
    | approveServer address fingerprint => simp [fields, ofFields, readMember]
    | forgetServer address => simp [fields, ofFields, readMember]
    | listTrustedServers => simp [fields, ofFields, readMember]
    | listServerPrinters address => simp [fields, ofFields, readMember]
    | installClientQueue address printer => simp [fields, ofFields, readMember]
    | repairClientQueue address printer => simp [fields, ofFields, readMember]
    | listClientQueues => simp [fields, ofFields, readMember]
    | listLocalPrinters => simp [fields, ofFields, readMember]
    | setSharedPrinters printers => simp [fields, ofFields, readMember]
    | diagnostics => simp [fields, ofFields, readMember]
  serialize_ne_null _ h := by cases h

end ControlRequest

/-- What the daemon answers. -/
inductive ControlResponse where
  | localTroubleshooting (snapshot : LocalTroubleshootingDto)
  | ok (status : RuntimeStatusDto)
  | drain (drained : Bool) (activeJobs : UInt64)
  | diagnostics (report : DiagnosticsReportDto)
  | serverIdentity (identity : ServerIdentityDto)
  | networkChannel (status : NetworkChannelStatusDto)
  | serverReview (review : ServerTrustReviewDto)
  | trustedServers (servers : List TrustedServerEntryDto)
  | serverPrinters (printers : TrustedServerPrintersDto)
  | forgotten (address : Chars)
  | clientQueue (queue : ClientQueueDto)
  | clientQueues (queues : List RecognisedClientQueueDto)
  | localPrinters (printers : List LocalPrinterDto)
  | err (error : AppErrorDto)
  deriving DecidableEq

namespace ControlResponse

def fields : ControlResponse → List (String × Option Value)
  | .localTroubleshooting snapshot =>
      [field "result" "local-troubleshooting".toList, field "snapshot" snapshot]
  | .ok status => [field "result" "ok".toList, field "status" status]
  | .drain drained activeJobs =>
      [field "result" "drain".toList,
        field "drained" drained, field "active_jobs" activeJobs]
  | .diagnostics report => [field "result" "diagnostics".toList, field "report" report]
  | .serverIdentity identity =>
      [field "result" "server-identity".toList, field "identity" identity]
  | .networkChannel status =>
      [field "result" "network-channel".toList, field "network_channel" status]
  | .serverReview review => [field "result" "server-review".toList, field "review" review]
  | .trustedServers servers =>
      [field "result" "trusted-servers".toList, field "servers" servers]
  | .serverPrinters printers =>
      [field "result" "server-printers".toList, field "printers" printers]
  | .forgotten address => [field "result" "forgotten".toList, field "address" address]
  | .clientQueue queue => [field "result" "client-queue".toList, field "queue" queue]
  | .clientQueues queues => [field "result" "client-queues".toList, field "queues" queues]
  | .localPrinters printers =>
      [field "result" "local-printers".toList, field "printers" printers]
  | .err error => [field "result" "err".toList, field "error" error]

/-- Reads the fields of the message that a tag names. -/
def ofFields (ms : List (String × Value)) (tag : String) : Option ControlResponse :=
  if tag = "local-troubleshooting" then (readMember ms "snapshot").map .localTroubleshooting
  else if tag = "ok" then (readMember ms "status").map .ok
  else if tag = "drain" then
    (readMember ms "drained").bind fun drained => (readMember ms "active_jobs").map (.drain drained)
  else if tag = "diagnostics" then (readMember ms "report").map .diagnostics
  else if tag = "server-identity" then (readMember ms "identity").map .serverIdentity
  else if tag = "network-channel" then (readMember ms "network_channel").map .networkChannel
  else if tag = "server-review" then (readMember ms "review").map .serverReview
  else if tag = "trusted-servers" then (readMember ms "servers").map .trustedServers
  else if tag = "server-printers" then (readMember ms "printers").map .serverPrinters
  else if tag = "forgotten" then (readMember ms "address").map .forgotten
  else if tag = "client-queue" then (readMember ms "queue").map .clientQueue
  else if tag = "client-queues" then (readMember ms "queues").map .clientQueues
  else if tag = "local-printers" then (readMember ms "printers").map .localPrinters
  else if tag = "err" then (readMember ms "error").map .err
  else none

instance : Serde ControlResponse where
  serialize message := record message.fields
  deserialize v := (members v).bind fun ms =>
    (readMember ms "result").bind fun tag => ofFields ms (.ofList tag)
  deserialize_serialize message := by
    cases message with
    | localTroubleshooting snapshot => simp [fields, ofFields, readMember]
    | ok status => simp [fields, ofFields, readMember]
    | drain drained activeJobs => simp [fields, ofFields, readMember]
    | diagnostics report => simp [fields, ofFields, readMember]
    | serverIdentity identity => simp [fields, ofFields, readMember]
    | networkChannel status => simp [fields, ofFields, readMember]
    | serverReview review => simp [fields, ofFields, readMember]
    | trustedServers servers => simp [fields, ofFields, readMember]
    | serverPrinters printers => simp [fields, ofFields, readMember]
    | forgotten address => simp [fields, ofFields, readMember]
    | clientQueue queue => simp [fields, ofFields, readMember]
    | clientQueues queues => simp [fields, ofFields, readMember]
    | localPrinters printers => simp [fields, ofFields, readMember]
    | err error => simp [fields, ofFields, readMember]
  serialize_ne_null _ h := by cases h

end ControlResponse

end ShaPrint.Daemon
