import Relay.Error
import Relay.Json.Value

/-!
# Errors in reports

An error is written as an object with its kind and its wording. The wording is left out where the cause
speaks for itself in words of its own. Some errors say more: whether trying again is useless, whether the
cause lies in the configuration, whether the pipeline has to stop.
-/

namespace Relay

open Json

/-- The report of an error of a kind. -/
def Report.error (kind message : String) (more : List (String × Value)) : Value :=
  .ofMembers ([("error", .text kind), ("message", .text message)] ++ more)

/-- The report of an error of a kind without its wording. -/
def Report.bare (kind : String) (more : List (String × Value)) : Value :=
  .ofMembers (("error", .text kind) :: more)

/-- The kind of a configuration error. -/
def ConfigError.kind : ConfigError → String
  | .zeroSize _ => "ZeroSize"
  | .unknownType _ _ => "UnknownType"
  | .missingTenant _ => "MissingTenant"
  | .missingTenantSource _ _ => "MissingTenantSource"
  | .missingProducer _ => "MissingProducer"
  | .invalid _ _ => "Invalid"

/-- The kind of a processing error. -/
def ProcessError.kind : ProcessError → String
  | .giveUp _ => "GiveUp"
  | .failed _ => "Failed"
  | .canceled => "Canceled"

/-- The kind of a refusal by a worker pool. -/
def ExecutorError.kind : ExecutorError → String
  | .poolClosed _ => "PoolClosed"
  | .queueFull _ => "QueueFull"

/-- The report of a configuration error. -/
def ConfigError.report (e : ConfigError) : Value := Report.error e.kind e.message []

/-- The report of a processing error. -/
def ProcessError.report (e : ProcessError) : Value :=
  Report.error e.kind e.message [("give_up", .bool e.isGiveUp)]

/-- The report of a refusal by a worker pool. -/
def ExecutorError.report (e : ExecutorError) : Value := Report.error e.kind e.message []

/-- The report of a publishing error. -/
def PublishError.report (e : PublishError) : Value :=
  let more := [("give_up", Value.bool e.isGiveUp), ("config", .bool e.isConfig)]
  match e with
  | .config c => Report.error c.kind e.message more
  | .creation _ => Report.bare "ProducerCreation" more
  | .serialization _ => Report.bare "Serialization" more
  | .produce _ => Report.bare "Produce" more
  | .canceled => Report.error "Canceled" e.message more
  | .flush _ => Report.bare "Flush" more

/-- The report of an administration error. -/
def AdminError.report (e : AdminError) : Value :=
  match e with
  | .unsupported _ => Report.error "Unsupported" e.message []
  | .timedOut _ => Report.error "Timeout" e.message []
  | .broker _ => Report.bare "Kafka" []
  | .resource _ _ => Report.error "Resource" e.message []
  | .config c => c.report

/-- The report of a rejected commit or seek. -/
def AckError.report (e : AckError) : Value :=
  match e with
  | .commit _ => Report.bare "Commit" []
  | .other _ => Report.error "Other" e.message []

/-- The report of a dispatch error. -/
def DispatchError.report (e : DispatchError) : Value :=
  let kind := match e with
    | .config c => c.kind
    | .executor x => x.kind
  Report.error kind e.message [("fatal", .bool e.isFatal)]

end Relay
