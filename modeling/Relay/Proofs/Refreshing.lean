import Relay.Proofs.Permits

/-!
# What a policy filter remembers

A policy filter keeps what it merged for the subscribers that it was shown, and it is shown a list of them before every
batch. Showing it a list replaces all that it kept. So however many lists it was shown, it decides as if it looked up
the policies in the last of them; for a subscriber that is not in this list the policies of the subscriber itself count.
-/

namespace Relay

section Registrant

variable {subscribers before after : List Subscriber} {s t : Subscriber} {id : String}

theorem registrant?_of_last (ht : t.id = id) (hafter : ∀ u ∈ after, u.id ≠ id) :
    registrant? (before ++ t :: after) id = some t := by
  rw [registrant?, List.find?_eq_some_iff_append]
  refine ⟨by simpa using ht, after.reverse, before.reverse, by simp, fun u hu => ?_⟩
  have hne : u.id ≠ id := hafter u (List.mem_reverse.1 hu)
  simpa using hne

theorem registrant?_eq_none (h : ∀ u ∈ subscribers, u.id ≠ id) : registrant? subscribers id = none := by
  rw [registrant?, List.find?_eq_none]
  intro u hu
  simpa using h u (List.mem_reverse.1 hu)

end Registrant

theorem Policy.admits_iff {p : Policy} {r : Record} :
    p.admits r = true ↔ p.condition = none ∨ ∃ c, p.condition = some c ∧ c.accepts r = true := by
  unfold admits
  cases p.condition <;> simp

theorem Subscriber.permits_iff {s : Subscriber} {r : Record} :
    s.permits r = true ↔
      ∃ p ∈ s.rule.policies, p.condition = none ∨ ∃ c, p.condition = some c ∧ c.accepts r = true := by
  simp only [permits, List.any_eq_true, Policy.admits_iff]

/-- Whose policies count for the records of a subscriber after lists of subscribers were shown, one after another. -/
def judge (history : List (List Subscriber)) (s : Subscriber) : Subscriber :=
  (history.getLast?.bind (registrant? · s.id)).getD s

namespace Filter

/-- A policy filter that was shown lists of subscribers, one after another. -/
def refreshed (history : List (List Subscriber)) : Filter :=
  history.foldl (fun f subscribers => f.refresh subscribers) (.policy .empty)

variable {history : List (List Subscriber)} {s : Subscriber}

theorem refreshed_append_singleton (history : List (List Subscriber)) (subscribers : List Subscriber) :
    refreshed (history ++ [subscribers]) = (refreshed history).refresh subscribers := by
  rw [refreshed, List.foldl_append]
  rfl

theorem lookup_ofSubscribers (subscribers : List Subscriber) (s : Subscriber) :
    (Admissions.ofSubscribers subscribers).lookup s =
      Policy.merge ((registrant? subscribers s.id).getD s).rule.policies := by
  rw [Admissions.lookup, Admissions.get?_ofSubscribers]
  cases registrant? subscribers s.id <;> rfl

/-- One more list makes the filter look up the policies there, whatever it looked up before. -/
theorem refresh_looks_up {f : Filter} (h : ∃ a, f = .policy a) (subscribers : List Subscriber) :
    ∃ a, f.refresh subscribers = .policy a ∧
      ∀ s, a.lookup s = Policy.merge ((registrant? subscribers s.id).getD s).rule.policies := by
  obtain ⟨_, rfl⟩ := h
  exact ⟨_, rfl, lookup_ofSubscribers subscribers⟩

theorem refreshed_looks_up (history : List (List Subscriber)) :
    ∃ a, refreshed history = .policy a ∧ ∀ s, a.lookup s = Policy.merge (judge history s).rule.policies := by
  induction history using List.reverseRecOn with
  | nil => exact ⟨.empty, rfl, fun _ => rfl⟩
  | append_singleton earlier subscribers ih =>
    obtain ⟨a, ha, -⟩ := ih
    obtain ⟨a', ha', hlookup⟩ := refresh_looks_up ⟨a, ha⟩ subscribers
    refine ⟨a', (refreshed_append_singleton earlier subscribers).trans ha', fun s => ?_⟩
    rw [hlookup, judge, List.getLast?_concat]
    rfl

theorem passes_refreshed (history : List (List Subscriber)) (r : Routed) :
    (refreshed history).passes r = .ok ((judge history r.subscriber).permits r.record) := by
  obtain ⟨a, ha, hlookup⟩ := refreshed_looks_up history
  rw [ha, passes, hlookup, Policy.admits_merge]
  rfl

/-- A policy filter that was shown lists of subscribers always decides. A record passes just if a policy of one
subscriber has no condition or one that accepts the record: of the last subscriber in the last list that has the id of
the record's own one, or of this one itself if there is none in the last list or no list. Of the lists only the last one
counts, and without policies nothing passes. -/
theorem passes_as_last_shown (history : List (List Subscriber)) (r : Routed) :
    let judge := judge history r.subscriber
    (∃ passed, (refreshed history).passes r = .ok passed ∧
      (passed = true ↔ ∃ p ∈ judge.rule.policies,
        p.condition = none ∨ ∃ c, p.condition = some c ∧ c.accepts r.record = true) ∧
      (judge.rule.policies = [] → passed = false)) ∧
    (∀ earlier before t after, history = earlier ++ [before ++ t :: after] → t.id = r.subscriber.id →
      (∀ u ∈ after, u.id ≠ r.subscriber.id) → judge = t) ∧
    ((∀ subscribers, history.getLast? = some subscribers → ∀ u ∈ subscribers, u.id ≠ r.subscriber.id) →
      judge = r.subscriber) ∧
    ∀ history', history'.getLast? = history.getLast? → (refreshed history').passes r = (refreshed history).passes r := by
  intro s
  refine ⟨⟨s.permits r.record, passes_refreshed history r, Subscriber.permits_iff, fun hnone => ?_⟩, ?_, ?_, ?_⟩
  · rw [Subscriber.permits, hnone]
    rfl
  · rintro earlier before t after rfl hid hafter
    simp only [s, judge, List.getLast?_concat, Option.bind_some, registrant?_of_last hid hafter, Option.getD_some]
  · intro hunknown
    cases hlast : history.getLast? with
    | none => simp only [s, judge, hlast, Option.bind_none, Option.getD_none]
    | some subscribers =>
      have hnone : registrant? subscribers r.subscriber.id = none := registrant?_eq_none (hunknown subscribers hlast)
      simp only [s, judge, hlast, Option.bind_some, hnone, Option.getD_none]
  · intro history' hlast
    rw [passes_refreshed, passes_refreshed, judge, judge, hlast]

/-- Records that were kept back pass after the next list, whichever policies their own subscriber has. -/
example :
    let strict : Subscriber := ⟨"s", ⟨false, .all, []⟩, .standard⟩
    let relaxed : Subscriber := ⟨"s", ⟨false, .all, [⟨"", none, []⟩]⟩, .standard⟩
    let record : Record := ⟨⟨⟨"", 0⟩, 0⟩, none, [], .null⟩
    (refreshed [[relaxed, strict]]).passes ⟨relaxed, record⟩ = .ok false ∧
      (refreshed [[relaxed, strict], [relaxed]]).passes ⟨strict, record⟩ = .ok true := by
  constructor <;> cbv

end Filter

end Relay
