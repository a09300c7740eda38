import Relay.Duration
import Relay.Json.Access
import Relay.Json.Writer
import Relay.Record

/-!
# Records in reports

How bytes, places, records and durations are written in reports. Bytes are a text if they are one, and
an object with their hexadecimal digits otherwise; both are read, whatever the bytes. A place is a triple
of topic, partition and offset; offsets by partition are a list of places. A duration is a pair of seconds
and nanoseconds.
-/

namespace Relay

open Json

/-! ## Bytes -/

namespace Bytes

/-- The two digits of a byte. -/
def hex (b : UInt8) : List Char := [Value.hexChar (b.toNat / 16), Value.hexChar (b.toNat % 16)]

/-- The value of a hexadecimal digit. -/
def hexDigit (c : Char) : Nat :=
  if c.isDigit then c.toNat - 48 else if 'a' ≤ c ∧ c ≤ 'f' then c.toNat - 87 else c.toNat - 55

/-- The bytes of hexadecimal digits. -/
def ofHex : List Char → Bytes
  | a :: b :: rest => UInt8.ofNat (16 * hexDigit a + hexDigit b) :: ofHex rest
  | _ => []

/-- The report of bytes. -/
def report (b : Bytes) : Value :=
  match b.toText? with
  | some s => .text s
  | none => .ofMembers [("hex", .text (String.ofList (b.flatMap hex)))]

/-- The bytes of a report. -/
def ofReport? : Value → Option Bytes
  | .text s => some (ofText s)
  | .object ms => (SortedMap.find? "hex" ms).map fun h => ofHex h.asText.toList
  | _ => none

end Bytes

/-! ## Places -/

/-- The report of a place. -/
def Coordinates.report (c : Coordinates) : Value :=
  .list [.text c.partition.topic, .ofInt c.partition.number, .ofInt c.offset]

/-- The place of a report. -/
def Coordinates.ofReport (v : Value) : Coordinates :=
  match v.asList with
  | [topic, number, offset] => ⟨⟨topic.asText, number.asInt⟩, offset.asInt⟩
  | _ => default

/-- The place that stands in the members of an object. Without them it is the beginning of the topic
`events`. -/
def Coordinates.ofMembers (v : Value) : Coordinates :=
  ⟨⟨v.textOr "topic" "events", v.intOr "partition" 0⟩, v.intOr "offset" 0⟩

/-- The report of offsets by partition. -/
def Offsets.report (o : Offsets) : Value := .ofList (fun e => Coordinates.report ⟨e.1, e.2⟩) o.entries

/-- The offsets of a report. -/
def Offsets.ofReport (v : Value) : Offsets :=
  .ofList (v.asList.map fun c => let c := Coordinates.ofReport c; (c.partition, c.offset))

/-! ## Records -/

/-- The report of a header. -/
def Header.report (h : Header) : Value := .list [.text h.name, .ofOption Bytes.report h.value]

/-- The header of a report. -/
def Header.ofReport (v : Value) : Header :=
  match v.asList with
  | name :: value :: _ => ⟨name.asText, Bytes.ofReport? value⟩
  | name :: _ => ⟨name.asText, none⟩
  | _ => ⟨"", none⟩

/-- The record of a report. -/
def Record.ofReport (v : Value) : Record where
  coordinates := .ofMembers v
  key := Bytes.ofReport? (v.field "key")
  headers := (v.field "headers").asList.map Header.ofReport
  value := v.field "value"

/-- The report of a duration. -/
def Duration.report (d : Duration) : Value := .list [.ofNat d.seconds, .ofNat d.subsec]

end Relay
