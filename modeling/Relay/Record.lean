import Relay.Bytes
import Relay.Json.Reader

/-!
# Records

A record is one entry of a partitioned log, decoded. Its coordinates are its partition and its offset;
partitions are ordered by topic, then by number.
-/

namespace Relay

/-- A numbered part of a topic. -/
structure Partition where
  /-- The topic. -/
  topic : String
  /-- The number of the partition. -/
  number : Int
  deriving DecidableEq, Repr, Inhabited, Hashable

namespace Partition

instance : Ord Partition where
  compare := compareLex (compareOn topic) (compareOn number)

instance : Std.TransOrd Partition :=
  inferInstanceAs (Std.TransCmp (compareLex (compareOn topic) (compareOn number)))

instance : Std.LawfulEqOrd Partition where
  eq_of_compare {a b} h := by
    have h : (compareOn topic a b).then (compareOn number a b) = .eq := h
    rw [Ordering.then_eq_eq] at h
    obtain ⟨ht, hn⟩ := h
    have ht : a.topic = b.topic := Std.LawfulEqCmp.eq_of_compare ht
    have hn : a.number = b.number := Std.LawfulEqCmp.eq_of_compare hn
    cases a; cases b; simp_all

/-- The text of a partition. -/
def text (p : Partition) : String := p.topic ++ "-" ++ toString p.number

end Partition

/-- The place of a record in the log. -/
structure Coordinates where
  /-- The partition. -/
  partition : Partition
  /-- The offset within the partition. -/
  offset : Int
  deriving DecidableEq, Repr, Inhabited, Hashable

namespace Coordinates

instance : Ord Coordinates where
  compare := compareLex (compareOn partition) (compareOn offset)

instance : Std.TransOrd Coordinates :=
  inferInstanceAs (Std.TransCmp (compareLex (compareOn partition) (compareOn offset)))

/-- Whether a place does not come after another in the order of partitions and offsets. -/
def le (a b : Coordinates) : Bool := (compare a b).isLE

end Coordinates

/-- Offsets by partition. -/
abbrev Offsets := SortedMap Partition Int

/-- A header of a record. -/
structure Header where
  /-- The name, which other headers may share. -/
  name : String
  /-- The value, if there is one. -/
  value : Option Bytes
  deriving DecidableEq, Repr, Inhabited

/-- A header as the log hands it out: its name ends before the first null character. -/
def Header.ended (h : Header) : Header :=
  { h with name := String.ofList (h.name.toList.takeWhile (· != '\x00')) }

/-- A message of the log, before decoding. -/
structure Message where
  /-- Where it stands. -/
  coordinates : Coordinates
  /-- The key. -/
  key : Option Bytes
  /-- The headers, in order. -/
  headers : List Header
  /-- The payload. -/
  payload : Option Bytes
  deriving DecidableEq, Repr

/-- A decoded record. -/
structure Record where
  /-- Where it stands. -/
  coordinates : Coordinates
  /-- The key. -/
  key : Option Bytes
  /-- The headers, in order. -/
  headers : List Header
  /-- The payload. -/
  value : Json.Value
  deriving Repr, Inhabited

namespace Record

/-- The partition of a record. -/
def partition (r : Record) : Partition := r.coordinates.partition

/-- The offset of a record. -/
def offset (r : Record) : Int := r.coordinates.offset

/-- The key, empty if there is none. -/
def keyBytes (r : Record) : Bytes := r.key.getD []

end Record

/-- The value of the first header of a name, if it carries one. -/
def headerValue? (headers : List Header) (name : String) : Option Bytes :=
  (headers.find? fun h => h.name == name).bind (·.value)

/-- The value of the first header of a name, if it carries one. -/
def Record.header? (r : Record) (name : String) : Option Bytes := headerValue? r.headers name

/-- Why a message has no record. -/
inductive DecodeError where
  /-- The message has no payload. -/
  | noPayload
  /-- The payload is no JSON text. -/
  | badPayload
  deriving DecidableEq, Repr

/-- The wording of a decoding error. -/
def DecodeError.message : DecodeError → String
  | .noPayload => "No payload in message"
  | .badPayload => "Failed to deserialize message payload"

/-- Decode a message: its payload has to be a JSON text. -/
def Message.decode (m : Message) : Except DecodeError Record :=
  match m.payload with
  | none => .error .noPayload
  | some bytes =>
    match Json.Value.ofBytes? bytes with
    | none => .error .badPayload
    | some v => .ok ⟨m.coordinates, m.key, m.headers.map Header.ended, v⟩

/-- A message that could not be decoded. It keeps what is known of its coordinates. -/
structure Undecodable where
  /-- The partition, if known. -/
  partition : Option Partition
  /-- The offset, if known. -/
  offset : Option Int
  deriving DecidableEq, Repr

/-- The coordinates of an undecodable message, if both parts are known. -/
def Undecodable.coordinates? (u : Undecodable) : Option Coordinates :=
  match u.partition, u.offset with
  | some p, some o => some ⟨p, o⟩
  | _, _ => none

/-- The records and the undecodable messages consumed together. -/
structure Batch where
  /-- The decoded records, in source order. -/
  records : List Record
  /-- The messages that could not be decoded. -/
  errors : List Undecodable
  deriving Repr, Inhabited

/-- Whether a batch holds nothing. -/
def Batch.isEmpty (b : Batch) : Bool := b.records.isEmpty && b.errors.isEmpty

end Relay
