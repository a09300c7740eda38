import Relay.Masking
import Relay.Permission

/-!
# Chains of filters and mappers

The filters of a chain run in order and the first that rejects a record ends the run. The mappers run
for records that passed every filter, each on the payload of the one before.
-/

namespace Relay

/-- What a chain made of a record. -/
structure Outcome where
  /-- Whether the record passed the filters. -/
  passed : Bool
  /-- The payload to republish. -/
  carried : Carried
  deriving Repr, Inhabited

/-- Filters and mappers, in order. -/
structure Chain (σ : Type) where
  /-- The filters. -/
  filters : List Filter
  /-- The mappers. -/
  mappers : List (Mapper σ)

namespace Chain

variable {σ : Type}

/-- The chain of named filters and mappers. The first unknown name is reported. -/
def ofNames (filters mappers : List String) : Except ConfigError (Chain σ) := do
  let filters ← filters.mapM Filter.ofName
  let mappers ← mappers.mapM Mapper.ofName
  return ⟨filters, mappers⟩

/-- The names of the filters and of the mappers. -/
def names (c : Chain σ) : List String × List String :=
  (c.filters.map Filter.name, c.mappers.map Mapper.name)

/-- Let the filters see the subscribers of the coming batch. -/
def refresh (c : Chain σ) (subscribers : List Subscriber) : Chain σ :=
  { c with filters := c.filters.map (Filter.refresh subscribers) }

/-- Whether a record passes every filter of a list. -/
def passes (r : Routed) : List Filter → Except ProcessError Bool
  | [] => .ok true
  | f :: fs =>
    match f.passes r with
    | .ok true => passes r fs
    | .ok false => .ok false
    | .error e => .error e

/-- The payload after every mapper of a list. -/
def mapAll (r : Routed) : List (Mapper σ) → Carried → σ → Except ProcessError Carried × σ
  | [], c, s => (.ok c, s)
  | m :: ms, c, s =>
    match m.map r c s with
    | (.ok c, s) => mapAll r ms c s
    | (.error e, s) => (.error e, s)

/-- Run the chain on a record. A record that is filtered out keeps its payload. -/
def process (c : Chain σ) (r : Routed) (s : σ) : Except ProcessError Outcome × σ :=
  match passes r c.filters with
  | .error e => (.error e, s)
  | .ok false => (.ok ⟨false, r.record.carried⟩, s)
  | .ok true =>
    match mapAll r c.mappers r.record.carried s with
    | (.ok carried, s) => (.ok ⟨true, carried⟩, s)
    | (.error e, s) => (.error e, s)

end Chain

end Relay
