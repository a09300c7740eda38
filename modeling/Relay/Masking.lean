import Relay.Subscriber

/-!
# What subscribers may not see

A mapper turns the payload of a record into the payload that is republished. The field mask removes the
parts that the subscriber's policies hide. A mapper may keep state of its own.
-/

namespace Relay

/-- A payload on its way to a subscriber. -/
structure Carried where
  /-- The payload. -/
  value : Json.Value
  /-- Whether it is the record's payload as it came, which no mapper has copied. -/
  own : Bool
  deriving Repr, Inhabited

/-- The payload of a record as it came. -/
def Record.carried (r : Record) : Carried := ⟨r.value, true⟩

/-- A step from one payload to the next, with state of type `σ`. -/
structure Mapper (σ : Type) where
  /-- The name. -/
  name : String
  /-- The payload that comes out. -/
  map : Routed → Carried → σ → Except ProcessError Carried × σ

/-- Hide the parts of a payload that the masks of the subscriber address, one mask after the other. A
mask that addresses nothing is ignored. A payload without fields cannot be masked. -/
def Routed.mask (r : Routed) (c : Carried) : Except ProcessError Carried :=
  if r.subscriber.masks.isEmpty then .ok c
  else if c.value.isObject then .ok ⟨r.subscriber.masks.foldl Json.Value.without c.value, false⟩
  else
    .error <| .giveUp <|
      "cannot mask fields of non-object payload at " ++ r.partition.text ++ "@" ++ toString r.offset

namespace Mapper

variable {σ : Type}

/-- The mapper that changes nothing. -/
def keep : Mapper σ := ⟨"NOOP_MAPPER", fun _ c s => (.ok c, s)⟩

/-- The mapper that removes masked fields. -/
def fieldMask : Mapper σ := ⟨"FIELD_MASK_MAPPER", fun r c s => (r.mask c, s)⟩

/-- The mapper of a name. -/
def ofName (n : String) : Except ConfigError (Mapper σ) :=
  if n = "NOOP_MAPPER" then .ok keep
  else if n = "FIELD_MASK_MAPPER" then .ok fieldMask
  else .error (.unknownType "mapper" n)

end Mapper

end Relay
