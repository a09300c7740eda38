import Relay.Json.Pointer
import Relay.Record

/-!
# Predicates on records

A predicate decides by the key, a header or a field of the payload, or combines predicates.
-/

namespace Relay

/-- A condition on a record. -/
inductive Predicate where
  /-- Every record. -/
  | all
  /-- Records whose first header of this name has this value. -/
  | header (name value : String)
  /-- Records whose key starts with this text. -/
  | keyPrefix (lead : String)
  /-- Records whose payload has this value where the pointer leads. -/
  | field (pointer : String) (value : Json.Value)
  /-- Records that some of the predicates accept. -/
  | anyOf (predicates : List Predicate)
  /-- Records that all of the predicates accept. -/
  | allOf (predicates : List Predicate)
  deriving Repr, Inhabited

namespace Predicate

mutual

/-- Whether a predicate accepts a record. -/
def accepts (r : Record) : Predicate → Bool
  | .all => true
  | .header name value => r.header? name == some (Bytes.ofText value)
  | .keyPrefix lead => (Bytes.ofText lead).isPrefixOf r.keyBytes
  | .field pointer value =>
    match r.value.pointer? pointer with
    | some v => v.eqv value
    | none => false
  | .anyOf ps => acceptsAny r ps
  | .allOf ps => acceptsAll r ps

/-- Whether some predicate of a list accepts a record. -/
def acceptsAny (r : Record) : List Predicate → Bool
  | [] => false
  | p :: ps => accepts r p || acceptsAny r ps

/-- Whether every predicate of a list accepts a record. -/
def acceptsAll (r : Record) : List Predicate → Bool
  | [] => true
  | p :: ps => accepts r p && acceptsAll r ps

end

mutual

/-- Equality of predicates, where payload values compare as values. -/
def eqv : Predicate → Predicate → Bool
  | .all, .all => true
  | .header n v, .header n' v' => n == n' && v == v'
  | .keyPrefix l, .keyPrefix l' => l == l'
  | .field p v, .field p' v' => p == p' && v.eqv v'
  | .anyOf ps, .anyOf qs => eqvAll ps qs
  | .allOf ps, .allOf qs => eqvAll ps qs
  | _, _ => false

/-- Equality of lists of predicates. -/
def eqvAll : List Predicate → List Predicate → Bool
  | [], [] => true
  | p :: ps, q :: qs => eqv p q && eqvAll ps qs
  | _, _ => false

end

theorem acceptsAny_eq_any (r : Record) (ps : List Predicate) :
    acceptsAny r ps = ps.any (accepts r) := by
  induction ps with
  | nil => rfl
  | cons p ps ih => simp [acceptsAny, ih]

theorem acceptsAll_eq_all (r : Record) (ps : List Predicate) :
    acceptsAll r ps = ps.all (accepts r) := by
  induction ps with
  | nil => rfl
  | cons p ps ih => simp [acceptsAll, ih]

end Predicate

end Relay
