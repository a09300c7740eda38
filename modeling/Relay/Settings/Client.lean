import Relay.Settings.Environment

/-!
# Clients of a cluster

The settings that all clients share, and the properties that a consumer or a producer is set up with.
Offsets are never stored or committed by the client itself: what is safe to commit is decided batch by
batch.
-/

namespace Relay

/-- The settings that all clients share. -/
structure ClientSettings where
  /-- The addresses to connect to first. -/
  hosts : String
  /-- Whether connections are encrypted. -/
  tls : Bool
  /-- How long a producer gathers messages, in milliseconds. -/
  linger : UInt32
  /-- The size of the queue of a producer, in mebibytes. -/
  queueMebibytes : UInt32
  /-- How many messages the queue of a producer holds. -/
  queueMessages : UInt32
  /-- How long a producer tries to deliver a message, in milliseconds. -/
  messageTimeout : UInt32
  /-- How a producer compresses messages. -/
  compression : String
  /-- Where a consumer begins that has committed nothing. -/
  offsetReset : String
  deriving DecidableEq, Repr, Inhabited

/-- Named properties of a client. -/
abbrev Properties := SortedMap String String

namespace ClientSettings

/-- The settings of a service that is told nothing. -/
def standard : ClientSettings where
  hosts := "localhost:9092"
  tls := false
  linger := 20
  queueMebibytes := 400
  queueMessages := 10000000
  messageTimeout := 20000
  compression := "none"
  offsetReset := "earliest"

/-- The settings that an environment gives. -/
def ofEnvironment (env : Environment) : Except UnreadableVariable ClientSettings := do
  let d := standard
  let linger ← env.read "KAFKA_PRODUCER_LINGER_MS" d.linger Environment.word
  let queueMebibytes ← env.read "KAFKA_PRODUCER_QUEUE_MIB" d.queueMebibytes Environment.word
  let queueMessages ← env.read "KAFKA_PRODUCER_QUEUE_MESSAGES" d.queueMessages Environment.word
  let messageTimeout ← env.read "KAFKA_MESSAGE_TIMEOUT_MS" d.messageTimeout Environment.word
  let compression ← env.read "KAFKA_COMPRESSION_CODEC" d.compression some
  let tls ← env.read "KAFKA_TLS" d.tls Environment.flag
  let hosts ← env.read "KAFKA_HOSTS" d.hosts some
  let offsetReset ← env.read "KAFKA_CONSUMER_OFFSET_RESET" d.offsetReset some
  return {
    hosts, tls, linger, queueMebibytes, queueMessages, messageTimeout, compression, offsetReset }

/-- The same settings for another cluster. -/
def withHosts (c : ClientSettings) (hosts : String) : ClientSettings := { c with hosts }

/-- The properties that encrypt connections, if they are to be encrypted. -/
def encryption (c : ClientSettings) : List (String × String) :=
  if c.tls then [("security.protocol", "ssl"), ("enable.ssl.certificate.verification", "false")] else []

/-- The properties of the consumer of a group. -/
def consumer (c : ClientSettings) (group : String) : Properties :=
  .ofList ([
    ("bootstrap.servers", c.hosts),
    ("group.id", group),
    ("enable.auto.offset.store", "false"),
    ("enable.auto.commit", "false"),
    ("socket.timeout.ms", "10000"),
    ("session.timeout.ms", "60000"),
    ("heartbeat.interval.ms", "5000"),
    ("max.poll.interval.ms", "300000")] ++ c.encryption ++ [("auto.offset.reset", c.offsetReset)])

/-- The properties of a producer. -/
def producer (c : ClientSettings) (client : String) : Properties :=
  .ofList ([
    ("bootstrap.servers", c.hosts),
    ("client.id", client),
    ("statistics.interval.ms", "10000"),
    ("linger.ms", toString c.linger.toNat),
    ("message.timeout.ms", toString c.messageTimeout.toNat),
    ("compression.codec", c.compression),
    ("queue.buffering.max.kbytes", toString (c.queueMebibytes * 1024).toNat),
    ("queue.buffering.max.messages", toString c.queueMessages.toNat)] ++ c.encryption)

end ClientSettings

/-- Properties with some of them set to other values, one after the other. -/
def Properties.setAll (p : Properties) (changes : List (String × String)) : Properties :=
  changes.foldl (fun p c => p.insert c.1 c.2) p

end Relay
