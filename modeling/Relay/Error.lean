import Relay.Duration

/-!
# Causes of failure

Each layer has its own causes. A configuration error is never retried: it stops the pipeline that met
it. Where a broker or an encoder gives its own account of a failure, the cause carries that text.
-/

namespace Relay

/-- A mistake in the configuration. -/
inductive ConfigError where
  /-- A size that has to be positive is zero. -/
  | zeroSize (field : String)
  /-- A name that stands for nothing of its kind. -/
  | unknownType (kind name : String)
  /-- A subscriber without a policy belongs to no tenant. -/
  | missingTenant (subscriber : String)
  /-- A tenant whose cluster is not known. -/
  | missingTenantSource (pipeline tenant : String)
  /-- A tenant without producers. -/
  | missingProducer (tenant : String)
  /-- A setting outside its range. -/
  | invalid (field reason : String)
  deriving DecidableEq, Repr

/-- The wording of a configuration error. -/
def ConfigError.message : ConfigError → String
  | .zeroSize field => field ++ " must be greater than zero"
  | .unknownType kind name => "unknown " ++ kind ++ " type: " ++ name
  | .missingTenant s => "subscriber " ++ s ++ " has no routing policy to derive a tenant from"
  | .missingTenantSource p t => "no source configuration for tenant " ++ t ++ " in pipeline " ++ p
  | .missingProducer t => "producer pool for tenant " ++ t ++ " is empty"
  | .invalid field reason => "invalid value for " ++ field ++ ": " ++ reason

/-- A failure to filter or map one record. -/
inductive ProcessError where
  /-- Trying again is useless. -/
  | giveUp (reason : String)
  /-- The attempt failed. -/
  | failed (reason : String)
  /-- The task never ran, or ended without a result. -/
  | canceled
  deriving DecidableEq, Repr

/-- The wording of a processing error. -/
def ProcessError.message : ProcessError → String
  | .giveUp reason => "gave up processing: " ++ reason
  | .failed reason => "processing failed: " ++ reason
  | .canceled => "task was canceled before completing"

/-- Whether trying again is useless. -/
def ProcessError.isGiveUp : ProcessError → Bool
  | .giveUp _ => true
  | _ => false

/-- A worker pool that takes no job. -/
inductive ExecutorError where
  | poolClosed (pool : String)
  | queueFull (pool : String)
  deriving DecidableEq, Repr

/-- The wording of a refusal by a worker pool. -/
def ExecutorError.message : ExecutorError → String
  | .poolClosed pool => "worker pool " ++ pool ++ " is shut down"
  | .queueFull pool => "worker pool " ++ pool ++ " queue is full"

/-- A failure to publish one record. -/
inductive PublishError where
  | config (cause : ConfigError)
  | creation (reason : String)
  | serialization (reason : String)
  | produce (reason : String)
  | canceled
  | flush (reason : String)
  deriving DecidableEq, Repr

/-- The wording of a publishing error. -/
def PublishError.message : PublishError → String
  | .config c => c.message
  | .creation r => "failed to build producer: " ++ r
  | .serialization r => "failed to serialize checkpoint record: " ++ r
  | .produce r => "failed to produce to kafka: " ++ r
  | .canceled => "failed to produce to kafka (canceled)"
  | .flush r => "failed to flush producer: " ++ r

/-- Whether the cause lies in the configuration. -/
def PublishError.isConfig : PublishError → Bool
  | .config _ => true
  | _ => false

/-- A payload that cannot be encoded will not encode on a retry either. -/
def PublishError.isGiveUp : PublishError → Bool
  | .serialization _ => true
  | _ => false

/-- A failure of a topic administration call. -/
inductive AdminError where
  | unsupported (operation : String)
  | timedOut (after : Duration)
  | broker (reason : String)
  | resource (name reason : String)
  | config (cause : ConfigError)
  deriving DecidableEq, Repr

/-- The wording of an administration error. -/
def AdminError.message : AdminError → String
  | .unsupported op => "admin operation not supported by broker: " ++ op
  | .timedOut d => "admin operation timed out after " ++ d.text
  | .broker r => "kafka admin error: " ++ r
  | .resource name reason => "admin operation failed for " ++ name ++ ": " ++ reason
  | .config c => c.message

/-- A rejected commit or seek. -/
inductive AckError where
  | commit (reason : String)
  | other (reason : String)
  deriving DecidableEq, Repr

/-- The wording of a rejected commit. -/
def AckError.message : AckError → String
  | .commit r => "offset commit rejected: " ++ r
  | .other r => "offset commit rejected: " ++ r

/-- What ends a dispatch without a summary. -/
inductive DispatchError where
  | config (cause : ConfigError)
  | executor (cause : ExecutorError)
  deriving DecidableEq, Repr

/-- The wording of a dispatch error. -/
def DispatchError.message : DispatchError → String
  | .config c => c.message
  | .executor e => e.message

/-- A fatal error stops the pipeline; the batch is not committed and comes again once the cause is
gone. -/
def DispatchError.isFatal : DispatchError → Bool
  | .config _ => true
  | .executor (.poolClosed _) => true
  | .executor (.queueFull _) => false

/-- A configuration error ends the dispatch; every other failure concerns one record alone. -/
def PublishError.escalate : PublishError → Except DispatchError PublishError
  | .config c => .error (.config c)
  | e => .ok e

/-- The stages in which a record can fail. -/
inductive Stage where
  | filterMap
  | publish
  deriving DecidableEq, Repr

/-- The name of a stage. -/
def Stage.name : Stage → String
  | .filterMap => "filter_map"
  | .publish => "publish"

end Relay
