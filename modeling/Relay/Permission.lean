import Relay.Subscriber

/-!
# Permission to see records

A filter decides whether a record may reach its subscriber. The policy filter passes a record when one
of the subscriber's policies admits it. It merges the conditions of each subscriber's policies ahead of a
batch and looks the merged decision up by the subscriber's id; a subscriber it has not seen is judged by
its own policies.
-/

namespace Relay

/-- The merged conditions of a subscriber's policies: none if every record is admitted. -/
abbrev Admission := Option Predicate

/-- Whether merged conditions admit a record. -/
def Admission.admits (a : Admission) (r : Record) : Bool :=
  match a with
  | none => true
  | some p => p.accepts r

/-- The merged conditions of a list of policies. One policy without a condition admits every record; no
policy at all admits none. -/
def Policy.merge (policies : List Policy) : Admission :=
  if policies.any fun p => p.condition.isNone then none
  else some (.anyOf (policies.filterMap (·.condition)))

/-- Merged conditions by subscriber id. -/
abbrev Admissions := SortedMap String Admission

/-- The merged conditions of each subscriber of a list; of subscribers with one id the last counts. -/
def Admissions.ofSubscribers (subscribers : List Subscriber) : Admissions :=
  .ofList (subscribers.map fun s => (s.id, Policy.merge s.rule.policies))

/-- The merged conditions of a subscriber. -/
def Admissions.lookup (a : Admissions) (s : Subscriber) : Admission :=
  (a.get? s.id).getD (Policy.merge s.rule.policies)

/-- A decision on paired records. -/
inductive Filter where
  /-- Every record passes. -/
  | pass
  /-- A record passes if its subscriber's policies admit it. -/
  | policy (admissions : Admissions)
  deriving Repr

namespace Filter

/-- The name of a filter. -/
def name : Filter → String
  | .pass => "NOOP_FILTER"
  | .policy _ => "POLICY_FILTER"

/-- The filter of a name, before it has seen any subscribers. -/
def ofName (n : String) : Except ConfigError Filter :=
  if n = "NOOP_FILTER" then .ok .pass
  else if n = "POLICY_FILTER" then .ok (.policy .empty)
  else .error (.unknownType "filter" n)

/-- The filter after it has seen the subscribers of the coming batch. -/
def refresh (subscribers : List Subscriber) : Filter → Filter
  | .pass => .pass
  | .policy _ => .policy (.ofSubscribers subscribers)

/-- Whether a record may reach its subscriber. -/
def passes (f : Filter) (r : Routed) : Except ProcessError Bool :=
  match f with
  | .pass => .ok true
  | .policy admissions => .ok ((admissions.lookup r.subscriber).admits r.record)

end Filter

/-- Merging keeps the decision: a record is admitted when one of the policies admits it. -/
theorem Policy.admits_merge (policies : List Policy) (r : Record) :
    (Policy.merge policies).admits r = policies.any (·.admits r) := by
  unfold Policy.merge
  split
  · rename_i h
    obtain ⟨p, hp, hc⟩ := List.any_eq_true.1 h
    have : policies.any (·.admits r) = true :=
      List.any_eq_true.2 ⟨p, hp, by simp_all [Policy.admits]⟩
    rw [this]; rfl
  · rename_i h
    simp only [Admission.admits, Predicate.accepts, Predicate.acceptsAny_eq_any]
    induction policies with
    | nil => rfl
    | cons p ps ih =>
      cases hc : p.condition with
      | none => simp [hc] at h
      | some c =>
        simp only [List.any_cons, hc, Option.isNone_some, Bool.false_or] at h
        simp [hc, ih h, Policy.admits]

end Relay
