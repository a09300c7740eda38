import Relay.Json.Fields
import Relay.Subscriber

/-!
# Subscribers as JSON

A subscriber is written with every field. Reading accepts fields in any order, skips unknown ones,
supplies the standard value of an absent field that has one, and accepts the list form of a record.

A predicate is an object whose `type` names its form, or a list that starts with that name. It is
taken in as a whole before it is looked at, so that also the parts of it that are not used have to have
a value; inside another predicate, the form may be given by its number.
-/

namespace Relay

open Json

/-! ## Writing -/

namespace Predicate

mutual

/-- The JSON value of a predicate. -/
def toValue : Predicate → Value
  | .all => .ofMembers [("type", .text "all")]
  | .header name value =>
    .ofMembers [("type", .text "header"), ("name", .text name), ("value", .text value)]
  | .keyPrefix lead => .ofMembers [("type", .text "key_prefix"), ("prefix", .text lead)]
  | .field pointer value =>
    .ofMembers [("type", .text "field"), ("pointer", .text pointer), ("value", value)]
  | .anyOf ps => .ofMembers [("type", .text "any_of"), ("predicates", .list (toValues ps))]
  | .allOf ps => .ofMembers [("type", .text "all_of"), ("predicates", .list (toValues ps))]

/-- The JSON values of a list of predicates. -/
def toValues : List Predicate → List Value
  | [] => []
  | p :: ps => toValue p :: toValues ps

end

end Predicate

/-- The JSON value of a policy. -/
def Policy.toValue (p : Policy) : Value :=
  .ofMembers [
    ("tenant_id", .text p.tenant),
    ("condition", p.condition.elim .null Predicate.toValue),
    ("exclude_fields", .list (p.masks.map .text))]

/-- The JSON value of a rule. -/
def Rule.toValue (r : Rule) : Value :=
  .ofMembers [
    ("is_sequence", .bool r.sequential),
    ("predicate", r.predicate.toValue),
    ("policies", .list (r.policies.map Policy.toValue))]

/-- The JSON value of a retention. -/
def Retention.toValue (r : Retention) : Value :=
  .ofMembers [("log_retention_ms", .ofInt r.millis), ("log_retention_bytes", .ofInt r.bytes)]

/-- The JSON value of a subscriber. -/
def Subscriber.toValue (s : Subscriber) : Value :=
  .ofMembers [("id", .text s.id), ("rule", s.rule.toValue), ("settings", s.retention.toValue)]

/-! ## Reading -/

namespace Predicate

/-- The forms of a predicate. -/
inductive Form where
  | all
  | header
  | keyPrefix
  | field
  | anyOf
  | allOf
  deriving DecidableEq

/-- The forms in order, with their names. -/
def forms : List (String × Form) :=
  [("all", .all), ("header", .header), ("key_prefix", .keyPrefix), ("field", .field),
    ("any_of", .anyOf), ("all_of", .allOf)]

/-- The form that a tag names; inside another predicate it may be given by its number. -/
def form? (nested : Bool) : Tree → Option Form
  | .text (some s) => (forms.find? fun f => f.1 == s).map (·.2)
  | .number (some (.int i)) =>
    if nested && decide (0 ≤ i) then (forms[i.toNat]?).map (·.2) else none
  | _ => none

/-- The tag of a predicate, and the rest of it. -/
def tagged? : Tree → Option (Tree × Tree)
  | .object ms =>
    if ms.any fun m => m.1.isNone then none
    else
      match Tree.field? "type" ms with
      | some (some tag) => some (tag, .object (ms.filter fun m => m.1 != some "type"))
      | _ => none
  | .list (tag :: items) => some (tag, .list items)
  | _ => none

/-- Whether a tree may follow the tag of a form without fields: an object, or nothing. -/
def noFields : Tree → Bool
  | .object _ => true
  | .list items => items.isEmpty
  | _ => false

/-- The predicate of a tree, for trees of at most the given number of levels. -/
def ofTree? : Nat → Bool → Tree → Option Predicate
  | 0, _, _ => none
  | levels + 1, nested, t =>
    match tagged? t with
    | none => none
    | some (tag, rest) =>
      match form? nested tag with
      | none => none
      | some .all => if noFields rest then some .all else none
      | some .header =>
        match rest.fields? ["name", "value"] with
        | some [some n, some v] =>
          match n.text?, v.text? with
          | some n, some v => some (.header n v)
          | _, _ => none
        | _ => none
      | some .keyPrefix =>
        match rest.fields? ["prefix"] with
        | some [some p] => p.text?.map .keyPrefix
        | _ => none
      | some .field =>
        match rest.fields? ["pointer", "value"] with
        | some [some p, some v] =>
          match p.text?, v.value? levels with
          | some p, some v => some (.field p v)
          | _, _ => none
        | _ => none
      | some .anyOf =>
        match rest.fields? ["predicates"] with
        | some [some (.list ts)] => (ts.mapM (ofTree? levels true)).map .anyOf
        | _ => none
      | some .allOf =>
        match rest.fields? ["predicates"] with
        | some [some (.list ts)] => (ts.mapM (ofTree? levels true)).map .allOf
        | _ => none

/-- The predicate of a tree that is taken in as a whole. -/
def decode? (levels : Nat) (t : Tree) : Option Predicate :=
  if (t.value? levels).isSome then ofTree? levels false t else none

end Predicate

/-- The condition of a policy: absent, or a predicate. -/
def Policy.condition? (levels : Nat) : Tree → Option (Option Predicate)
  | .null => some none
  | t => (Predicate.decode? levels t).map some

/-- The policy of a tree. -/
def Policy.decode? : Nat → Tree → Option Policy
  | 0, _ => none
  | levels + 1, t => do
    let [tenant, condition, masks] ← t.fields? ["tenant_id", "condition", "exclude_fields"] | none
    let tenant ← Tree.required Tree.text? tenant
    let condition ← Tree.orElse none (Policy.condition? levels) condition
    let masks ← Tree.orElse [] (Tree.items? (fun _ => Tree.text?) levels) masks
    return ⟨tenant, condition, masks⟩

/-- The rule of a tree. -/
def Rule.decode? : Nat → Tree → Option Rule
  | 0, _ => none
  | levels + 1, t => do
    let [sequential, predicate, policies] ← t.fields? ["is_sequence", "predicate", "policies"] | none
    let sequential ← Tree.orElse false Tree.bool? sequential
    let predicate ← Tree.orElse .all (Predicate.decode? levels) predicate
    let policies ← Tree.orElse [] (Tree.items? Policy.decode? levels) policies
    return ⟨sequential, predicate, policies⟩

/-- The retention of a tree. -/
def Retention.decode? : Nat → Tree → Option Retention
  | 0, _ => none
  | _ + 1, t => do
    let [millis, bytes] ← t.fields? ["log_retention_ms", "log_retention_bytes"] | none
    let millis ← Tree.orElse Retention.standard.millis Tree.int64? millis
    let bytes ← Tree.orElse Retention.standard.bytes Tree.int64? bytes
    return ⟨millis, bytes⟩

/-- The subscriber of a tree. -/
def Subscriber.decode? : Nat → Tree → Option Subscriber
  | 0, _ => none
  | levels + 1, t => do
    let [id, rule, retention] ← t.fields? ["id", "rule", "settings"] | none
    let id ← Tree.required Tree.text? id
    let rule ← Tree.required (Rule.decode? levels) rule
    let retention ← Tree.orElse Retention.standard (Retention.decode? levels) retention
    return ⟨id, rule, retention⟩

/-- The subscriber of a JSON text. -/
def Subscriber.ofText? (s : String) : Option Subscriber :=
  (Tree.ofText? s).bind (Subscriber.decode? deepest)

/-- The predicate of a JSON text. -/
def Predicate.ofText? (s : String) : Option Predicate :=
  (Tree.ofText? s).bind (Predicate.decode? deepest)

end Relay
