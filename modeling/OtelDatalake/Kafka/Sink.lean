import OtelDatalake.Core.Error
import OtelDatalake.Foundation.Text
import OtelDatalake.Buffer.Inner

open OtelDatalake.Core OtelDatalake.Buffer

namespace OtelDatalake.Kafka

/-- The codes that `classify_kafka_error` lists, and the other ones by their number. -/
inductive RDKafkaErrorCode where
  | authentication
  | saslAuthenticationFailed
  | topicAuthorizationFailed
  | groupAuthorizationFailed
  | clusterAuthorizationFailed
  | transactionalIdAuthorizationFailed
  | delegationTokenAuthorizationFailed
  | delegationTokenAuthDisabled
  | delegationTokenExpired
  | unsupportedSASLMechanism
  | illegalSASLState
  | securityDisabled
  | ssl
  | fatal
  | fenced
  | producerFenced
  | transactionCoordinatorFenced
  | invalidConfig
  | invalidArgument
  | notConfigured
  | messageSizeTooLarge
  | messageBatchTooLarge
  | invalidMessage
  | invalidMessageSize
  | invalidRecord
  | invalidDifferentRecord
  | badMessage
  | badCompression
  | unsupportedCompressionType
  | unsupportedForMessageFormat
  | invalidTimestamp
  | keySerialization
  | valueSerialization
  | policyViolation
  | invalidTopic
  | unknownTopic
  | unknownPartition
  | queueFull
  | brokerTransportFailure
  | allBrokersDown
  | messageTimedOut
  | operationTimedOut
  | timedOutQueue
  | requestTimedOut
  | leaderNotAvailable
  | notLeaderForPartition
  | brokerNotAvailable
  | replicaNotAvailable
  | networkException
  | notEnoughReplicas
  | notEnoughReplicasAfterAppend
  | throttlingQuotaExceeded
  | other (code : Int)
  deriving DecidableEq, Repr

/-- The variants of `KafkaError` that the sink tells apart; `other` has the code that `rdkafka_error_code` returns. -/
inductive KafkaErrorKind where
  | clientConfig
  | clientCreation
  | messageConsumptionFatal
  | transaction (isFatal : Bool) (code : RDKafkaErrorCode)
  | nul
  | messageProduction (code : RDKafkaErrorCode)
  | other (code : Option RDKafkaErrorCode)
  deriving DecidableEq, Repr

structure KafkaError where
  kind : KafkaErrorKind
  text : String
  deriving DecidableEq, Repr

def KafkaError.rdkafkaErrorCode (err : KafkaError) : Option RDKafkaErrorCode :=
  match err.kind with
  | .transaction _ code => some code
  | .messageProduction code => some code
  | .other code => code
  | _ => none

def classifyErrorCode (text : String) : RDKafkaErrorCode → FailureClass
  | .authentication | .saslAuthenticationFailed | .topicAuthorizationFailed | .groupAuthorizationFailed
  | .clusterAuthorizationFailed | .transactionalIdAuthorizationFailed | .delegationTokenAuthorizationFailed
  | .delegationTokenAuthDisabled | .delegationTokenExpired | .unsupportedSASLMechanism | .illegalSASLState
  | .securityDisabled | .ssl | .fatal | .fenced | .producerFenced | .transactionCoordinatorFenced
  | .invalidConfig | .invalidArgument | .notConfigured => .fatal text
  | .messageSizeTooLarge | .messageBatchTooLarge | .invalidMessage | .invalidMessageSize | .invalidRecord
  | .invalidDifferentRecord | .badMessage | .badCompression | .unsupportedCompressionType
  | .unsupportedForMessageFormat | .invalidTimestamp | .keySerialization | .valueSerialization
  | .policyViolation | .invalidTopic | .unknownTopic | .unknownPartition => .rejected text
  | _ => .transient

def classifyKafkaError (err : KafkaError) : FailureClass :=
  match err.kind with
  | .clientConfig | .clientCreation | .messageConsumptionFatal => .fatal err.text
  | .transaction true _ => .fatal err.text
  | .nul => .rejected err.text
  | _ =>
    match err.rdkafkaErrorCode with
    | some code => classifyErrorCode err.text code
    | none => .transient

def failureSeverity : FailureClass → Nat
  | .transient => 1
  | .rejected _ => 2
  | .fatal _ => 3

def mergeFailureClass (current : Option FailureClass) (next : FailureClass) : FailureClass :=
  match current with
  | some existing => if failureSeverity existing ≥ failureSeverity next then existing else next
  | none => next

structure PreparedSlice where
  partitionKey : Option String
  payload : List UInt8
  deriving DecidableEq, Repr

structure FutureRecord where
  topic : String
  payload : List UInt8
  key : Option String
  deriving DecidableEq, Repr

inductive DeliveryResult where
  | delivered
  | failed (error : KafkaError)
  | cancelled
  deriving DecidableEq, Repr

/-- The answers of the producer to one record: that of `send_result`, with what its delivery future ends with, and
    that of `send`, which gives none where it panics. -/
structure ProducerAnswer where
  sendResult : Except KafkaError DeliveryResult
  send : Option (Except KafkaError Unit)
  deriving DecidableEq

/-- The answers to the records of one lease by their position. -/
abbrev FutureProducer := Nat → FutureRecord → ProducerAnswer

structure KafkaSink where
  topic : String
  deriving DecidableEq, Repr

namespace KafkaSink

def record (sink : KafkaSink) (slice : PreparedSlice) : FutureRecord :=
  { topic := sink.topic, payload := slice.payload, key := slice.partitionKey }

structure SendProgress where
  deliveryFuts : List DeliveryResult := []
  failure : Option FailureClass := none
  deriving DecidableEq, Repr

namespace SendProgress

def fail (progress : SendProgress) (error : KafkaError) : SendProgress :=
  { progress with failure := some (mergeFailureClass progress.failure (classifyKafkaError error)) }

end SendProgress

def isQueueFull (error : KafkaError) : Bool := error.kind == .messageProduction .queueFull

def enqueueSlice (answer : ProducerAnswer) (progress : SendProgress) : Except (Stop PipelineError) SendProgress :=
  match answer.sendResult with
  | .ok deliveryFut => .ok { progress with deliveryFuts := progress.deliveryFuts ++ [deliveryFut] }
  | .error error =>
    if isQueueFull error then
      match answer.send with
      | none => .error .unwound
      | some (.ok ()) => .ok progress
      | some (.error error) => .ok (progress.fail error)
    else .ok (progress.fail error)

def enqueueSlices (sink : KafkaSink) (producer : FutureProducer) (position : Nat) :
    List PreparedSlice → SendProgress → Except (Stop PipelineError) SendProgress
  | [], progress => .ok progress
  | slice :: rest, progress =>
    match enqueueSlice (producer position (sink.record slice)) progress with
    | .error stop => .error stop
    | .ok progress => enqueueSlices sink producer (position + 1) rest progress

def deliveryCancelled : PipelineError := .internal "Kafka delivery future cancelled: oneshot canceled".toList

def awaitDeliveries : List DeliveryResult → Option FailureClass → Except (Stop PipelineError) (Option FailureClass)
  | [], failure => .ok failure
  | .delivered :: rest, failure => awaitDeliveries rest failure
  | .failed error :: rest, failure =>
    awaitDeliveries rest (some (mergeFailureClass failure (classifyKafkaError error)))
  | .cancelled :: _, _ => .error (.returned deliveryCancelled)

/-- The path of `send_prepared_slices` for any number of slices. -/
def sendSlices (sink : KafkaSink) (producer : FutureProducer) (slices : List PreparedSlice) :
    Except (Stop PipelineError) (Option FailureClass) :=
  match sink.enqueueSlices producer 0 slices {} with
  | .error stop => .error stop
  | .ok progress => awaitDeliveries progress.deliveryFuts progress.failure

def sendPreparedSlices (sink : KafkaSink) (producer : FutureProducer) (slices : List PreparedSlice) :
    Except (Stop PipelineError) (Option FailureClass) :=
  match slices with
  | [slice] =>
    match (producer 0 (sink.record slice)).send with
    | none => .error .unwound
    | some (.error error) => .ok (some (classifyKafkaError error))
    | some (.ok ()) => .ok none
  | slices => sink.sendSlices producer slices

/-- What becomes of a lease; one that is neither acknowledged nor rejected is dropped. -/
inductive LeaseEnd where
  | acked
  | nacked (failure : FailureClass)
  | dropped
  deriving DecidableEq, Repr

/-- One lease that `next_lease` returns, with what the calls for it give. -/
structure LeaseVisit where
  numRows : Nat
  prepared : Except PipelineError (List PreparedSlice)
  producer : FutureProducer
  resolved : Except PipelineError Unit

namespace LeaseVisit

def ack (visit : LeaseVisit) : LeaseEnd × Except (Stop PipelineError) Unit := (.acked, visit.resolved.mapError .returned)

def nack (visit : LeaseVisit) (failure : FailureClass) : LeaseEnd × Except (Stop PipelineError) Unit :=
  (.nacked failure, visit.resolved.mapError .returned)

def conclude (visit : LeaseVisit) :
    Except (Stop PipelineError) (Option FailureClass) → LeaseEnd × Except (Stop PipelineError) Unit
  | .error stop => (.dropped, .error stop)
  | .ok (some failure) => visit.nack failure
  | .ok none => visit.ack

end LeaseVisit

def isJoinError (error : PipelineError) : Bool := "Lease::prepare join error".toList.isPrefixOf error.display

def visitLease (sink : KafkaSink) (visit : LeaseVisit) : LeaseEnd × Except (Stop PipelineError) Unit :=
  if visit.numRows = 0 then visit.ack
  else
    match visit.prepared with
    | .ok [] => visit.ack
    | .ok slices => visit.conclude (sink.sendPreparedSlices visit.producer slices)
    | .error (.storage cause) => (.dropped, .error (.returned (.storage cause)))
    | .error error =>
      if isJoinError error then (.dropped, .error (.returned error))
      else visit.nack (.rejected (String.ofList error.display))

/-- `run` over the leases it is given; `closing` is the error that `next_lease` or the final flush returns, if any. -/
def run (sink : KafkaSink) (closing : Except PipelineError Unit) :
    List LeaseVisit → List LeaseEnd × Except (Stop PipelineError) Unit
  | [] => ([], closing.mapError .returned)
  | visit :: rest =>
    match sink.visitLease visit with
    | (ending, .error stop) => ([ending], .error stop)
    | (ending, .ok ()) =>
      let later := run sink closing rest
      (ending :: later.1, later.2)

end KafkaSink

end OtelDatalake.Kafka
