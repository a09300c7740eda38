import Relay.Proofs.ToldFields
import Relay.Subscriber.Codec

/-!
# Reading what tells a subscriber

A subscriber is told by its own JSON, and by each tree that differs from it in the order of fields, in fields left out
that hold their standard value, and in unknown fields (`Subscriber.Told`). Reading any of these trees gives back the
subscriber, as deep as its predicates may be nested (`Subscriber.reading_recovers`).
-/

namespace Relay

open Json RecordField

namespace Predicate

mutual

/-- The payload values in a predicate have their objects in key order. -/
def Canonical : Predicate → Prop
  | .field _ v => v.Canonical
  | .anyOf ps | .allOf ps => CanonicalAll ps
  | .all | .header _ _ | .keyPrefix _ => True

/-- `Canonical` for every predicate of a list. -/
def CanonicalAll : List Predicate → Prop
  | [] => True
  | p :: ps => Canonical p ∧ CanonicalAll ps

end

mutual

/-- The trees that tell a predicate. -/
def Told : Predicate → Tree → Prop
  | .all => Tells [text "type" "all"]
  | .header name value => Tells [text "type" "header", text "name" name, text "value" value]
  | .keyPrefix lead => Tells [text "type" "key_prefix", text "prefix" lead]
  | .field pointer value =>
    Tells [text "type" "field", text "pointer" pointer, ⟨"value", False, fun t => t.Denotes value⟩]
  | .anyOf ps => Tells [text "type" "any_of", items "predicates" False (ToldAll ps)]
  | .allOf ps => Tells [text "type" "all_of", items "predicates" False (ToldAll ps)]

/-- The lists of trees that tell predicates one by one. -/
def ToldAll : List Predicate → List Tree → Prop
  | [], ts => ts = []
  | p :: ps, ts => ∃ t ts', ts = t :: ts' ∧ Told p t ∧ ToldAll ps ts'

end

end Predicate

/-- The trees that tell a condition; a condition that is absent may be written as such. -/
def Policy.ToldCondition : Option Predicate → Tree → Prop
  | none, t => t = .null
  | some c, t => c.Told t

/-- The trees that tell a policy. -/
def Policy.Told (p : Policy) : Tree → Prop :=
  Tells [
    text "tenant_id" p.tenant,
    ⟨"condition", p.condition = none, Policy.ToldCondition p.condition⟩,
    items "exclude_fields" (p.masks = []) (List.Forall₂ (fun m t => t = .text (some m)) p.masks)]

/-- The trees that tell a rule. -/
def Rule.Told (r : Rule) : Tree → Prop :=
  Tells [
    ⟨"is_sequence", r.sequential = false, fun t => t = .bool r.sequential⟩,
    ⟨"predicate", r.predicate = .all, r.predicate.Told⟩,
    items "policies" (r.policies = []) (List.Forall₂ Policy.Told r.policies)]

/-- The trees that tell a retention. -/
def Retention.Told (r : Retention) : Tree → Prop :=
  Tells [
    ⟨"log_retention_ms", r.millis = standard.millis, fun t => t = .number (some (.int r.millis))⟩,
    ⟨"log_retention_bytes", r.bytes = standard.bytes, fun t => t = .number (some (.int r.bytes))⟩]

/-- The trees that tell a subscriber. -/
def Subscriber.Told (s : Subscriber) : Tree → Prop :=
  Tells [
    text "id" s.id,
    ⟨"rule", False, s.rule.Told⟩,
    ⟨"settings", s.retention = .standard, s.retention.Told⟩]

/-- The numbers of a retention have 64 bits with sign. -/
structure Retention.Typed (r : Retention) : Prop where
  millis : -9223372036854775808 ≤ r.millis ∧ r.millis < 9223372036854775808
  bytes : -9223372036854775808 ≤ r.bytes ∧ r.bytes < 9223372036854775808

/-- What a subscriber holds are values of its types. -/
structure Subscriber.Typed (s : Subscriber) : Prop where
  predicate : s.rule.predicate.Canonical
  conditions : ∀ p ∈ s.rule.policies, ∀ c, p.condition = some c → c.Canonical
  retention : s.retention.Typed

/-! ## Reading predicates -/

namespace Predicate

variable {l : Nat} {tag : String} {fields : List RecordField} {t : Tree}

/-- Reading the tag of a predicate leaves an object in which its fields are found. -/
theorem tagged?_told (h : Tells (text "type" tag :: fields) t) (hnodup : ("type" :: fields.map name).Nodup)
    (ht : t.Valued l) :
    ∃ l' rest os, l = l' + 1 ∧ tagged? t = some (.text (some tag), .object rest) ∧
      (Tree.object rest).fields? (fields.map name) = some os ∧ List.Forall₂ (Found l') fields os := by
  obtain ⟨ms, rfl⟩ := h.exists_object
  obtain ⟨l, rfl, hms⟩ := ht.members
  obtain ⟨o, ho, hfound⟩ := h.field? hnodup hms List.mem_cons_self
  obtain rfl := hfound.eq_text
  have hfield : Tree.field? "type" ms = some (some (.text (some tag))) := ho
  have hrest : (Tree.object (ms.filter fun m => m.1 != some "type")).Valued (l + 1) :=
    Tree.valued_object_iff.2 fun m hm => hms m (List.mem_of_mem_filter hm)
  obtain ⟨hother, hnodup⟩ := List.nodup_cons.1 hnodup
  obtain ⟨_, os, ⟨⟩, hos, hfounds⟩ := (h.without hother).fields? hnodup hrest
  refine ⟨l, _, os, rfl, ?_, hos, hfounds⟩
  rw [tagged?, if_neg (by rw [Tree.any_isNone_eq_false hms]; exact Bool.false_ne_true), hfield]
  rfl

theorem tagged?_toldAll {ps : List Predicate}
    (h : Tells [text "type" tag, items "predicates" False (ToldAll ps)] t) (ht : t.Valued l) :
    ∃ l' rest ts, l = l' + 1 ∧ tagged? t = some (.text (some tag), .object rest) ∧
      (Tree.object rest).fields? ["predicates"] = some [some (.list ts)] ∧ ToldAll ps ts ∧ ∀ t ∈ ts, t.Valued l' := by
  obtain ⟨l, rest, os, rfl, htag, hos, hfound⟩ := tagged?_told h (by simp [items]) ht
  obtain _ | ⟨hitems, ⟨⟩⟩ := hfound
  obtain ⟨_, rfl, ⟨ts, rfl, htold⟩, hvalued⟩ := hitems.exists_of_required not_false
  exact ⟨l, rest, ts, rfl, htag, hos, htold, fun t ht => hvalued.of_item ht⟩

mutual

theorem ofTree?_told : ∀ {p : Predicate} {t : Tree} {l : Nat} {nested : Bool}, p.Told t → t.Valued l →
    ofTree? l nested t = some p
  | .all, t, _, nested, h, ht => by
    rw [Told] at h
    obtain ⟨l, rest, os, rfl, htag, -, -⟩ := tagged?_told h (by simp) ht
    simp [ofTree?, htag, form?, forms, noFields]
  | .header name value, t, _, nested, h, ht => by
    rw [Told] at h
    obtain ⟨l, rest, os, rfl, htag, hos, hfound⟩ := tagged?_told h (by simp [text]) ht
    obtain _ | ⟨hname, _ | ⟨hvalue, ⟨⟩⟩⟩ := hfound
    obtain rfl := hname.eq_text
    obtain rfl := hvalue.eq_text
    have hfields : (Tree.object rest).fields? ["name", "value"] = _ := hos
    simp [ofTree?, htag, form?, forms, hfields, Tree.text?]
  | .keyPrefix lead, t, _, nested, h, ht => by
    rw [Told] at h
    obtain ⟨l, rest, os, rfl, htag, hos, hfound⟩ := tagged?_told h (by simp [text]) ht
    obtain _ | ⟨hlead, ⟨⟩⟩ := hfound
    obtain rfl := hlead.eq_text
    have hfields : (Tree.object rest).fields? ["prefix"] = _ := hos
    simp [ofTree?, htag, form?, forms, hfields, Tree.text?]
  | .field pointer value, t, _, nested, h, ht => by
    rw [Told] at h
    obtain ⟨l, rest, os, rfl, htag, hos, hfound⟩ := tagged?_told h (by simp [text]) ht
    obtain _ | ⟨hpointer, _ | ⟨hvalue, ⟨⟩⟩⟩ := hfound
    obtain rfl := hpointer.eq_text
    obtain ⟨t', rfl, hdenotes, hvalued⟩ := hvalue.exists_of_required not_false
    have hfields : (Tree.object rest).fields? ["pointer", "value"] = _ := hos
    have hread : t'.value? l = some value := Tree.Denotes.value? hdenotes hvalued
    simp [ofTree?, htag, form?, forms, hfields, Tree.text?, hread]
  | .anyOf ps, t, _, nested, h, ht => by
    rw [Told] at h
    obtain ⟨l, rest, ts, rfl, htag, hfields, htold, hts⟩ := tagged?_toldAll h ht
    have hread : ts.mapM (ofTree? l true) = some ps := mapM_ofTree?_told htold hts
    simp [ofTree?, htag, form?, forms, hfields, hread]
  | .allOf ps, t, _, nested, h, ht => by
    rw [Told] at h
    obtain ⟨l, rest, ts, rfl, htag, hfields, htold, hts⟩ := tagged?_toldAll h ht
    have hread : ts.mapM (ofTree? l true) = some ps := mapM_ofTree?_told htold hts
    simp [ofTree?, htag, form?, forms, hfields, hread]

theorem mapM_ofTree?_told : ∀ {ps : List Predicate} {ts : List Tree} {l : Nat}, ToldAll ps ts →
    (∀ t ∈ ts, t.Valued l) → ts.mapM (ofTree? l true) = some ps
  | [], ts, l, h, _ => by
    rw [ToldAll] at h
    subst h
    rfl
  | p :: ps, ts, l, h, hts => by
    rw [ToldAll] at h
    obtain ⟨t, ts, rfl, hp, hps⟩ := h
    obtain ⟨ht, hts⟩ := List.forall_mem_cons.1 hts
    rw [List.mapM_cons, ofTree?_told hp ht, mapM_ofTree?_told hps hts]
    rfl

end

/-- Reading what tells a predicate gives back the predicate. -/
theorem decode?_told {p : Predicate} (h : p.Told t) (ht : t.Valued l) : decode? l t = some p := by
  have hread : ofTree? l false t = some p := ofTree?_told h ht
  obtain ⟨v, hv⟩ := ht
  rw [decode?, hv, hread]
  rfl

theorem exists_object_of_told {p : Predicate} (h : p.Told t) : ∃ ms, t = .object ms := by
  cases p <;>
    · rw [Told] at h
      exact h.exists_object

end Predicate

/-! ## Reading subscribers -/

section

variable {l : Nat} {t : Tree}

theorem Policy.condition?_told {c : Option Predicate} (h : ToldCondition c t) (ht : t.Valued l) :
    condition? l t = some c := by
  cases c with
  | none =>
    rw [ToldCondition] at h
    subst h
    rfl
  | some c =>
    rw [ToldCondition] at h
    have hread := Predicate.decode?_told h ht
    obtain ⟨ms, rfl⟩ := Predicate.exists_object_of_told h
    rw [condition?, hread]
    · rfl
    · rintro ⟨⟩

theorem Policy.decode?_told {p : Policy} (h : p.Told t) (ht : t.Valued l) : decode? l t = some p := by
  obtain ⟨l, os, rfl, hos, hfound⟩ := Tells.fields? h (by simp [text, items]) ht
  obtain _ | ⟨htenant, _ | ⟨hcondition, _ | ⟨hmasks, ⟨⟩⟩⟩⟩ := hfound
  have hfields : t.fields? ["tenant_id", "condition", "exclude_fields"] = _ := hos
  have htenant := htenant.required_text
  have hcondition := hcondition.orElse id fun _ => condition?_told
  have hmasks := hmasks.orElse_items fun {_ m t} h _ => show t.text? = some m by rw [h, Tree.text?]
  simp [decode?, hfields, htenant, hcondition, hmasks]

theorem Rule.decode?_told {r : Rule} (h : r.Told t) (ht : t.Valued l) : decode? l t = some r := by
  obtain ⟨l, os, rfl, hos, hfound⟩ := Tells.fields? h (by simp [items]) ht
  obtain _ | ⟨hsequential, _ | ⟨hpredicate, _ | ⟨hpolicies, ⟨⟩⟩⟩⟩ := hfound
  have hfields : t.fields? ["is_sequence", "predicate", "policies"] = _ := hos
  have hsequential := hsequential.orElse id fun t h _ => show t.bool? = some r.sequential by rw [h, Tree.bool?]
  have hpredicate := hpredicate.orElse id fun _ => Predicate.decode?_told
  have hpolicies := hpolicies.orElse_items Policy.decode?_told
  simp [decode?, hfields, hsequential, hpredicate, hpolicies]

theorem Retention.decode?_told {r : Retention} (hr : r.Typed) (h : r.Told t) (ht : t.Valued l) :
    decode? l t = some r := by
  obtain ⟨l, os, rfl, hos, hfound⟩ := Tells.fields? h (by simp) ht
  obtain _ | ⟨hmillis, _ | ⟨hbytes, ⟨⟩⟩⟩ := hfound
  have hfields : t.fields? ["log_retention_ms", "log_retention_bytes"] = _ := hos
  have hmillis := hmillis.orElse id fun t h _ => show t.int64? = some r.millis by rw [h]; exact if_pos hr.millis
  have hbytes := hbytes.orElse id fun t h _ => show t.int64? = some r.bytes by rw [h]; exact if_pos hr.bytes
  simp [decode?, hfields, hmillis, hbytes]

theorem Subscriber.decode?_told {s : Subscriber} (hs : s.Typed) (h : s.Told t) (ht : t.Valued l) :
    decode? l t = some s := by
  obtain ⟨l, os, rfl, hos, hfound⟩ := Tells.fields? h (by simp [text]) ht
  obtain _ | ⟨hid, _ | ⟨hrule, _ | ⟨hretention, ⟨⟩⟩⟩⟩ := hfound
  have hfields : t.fields? ["id", "rule", "settings"] = _ := hos
  have hid := hid.required_text
  have hrule := hrule.required not_false fun _ => Rule.decode?_told
  have hretention := hretention.orElse (fun h => h) fun _ => Retention.decode?_told hs.retention
  simp [decode?, hfields, hid, hrule, hretention]

end

/-! ## What is written -/

namespace Predicate

mutual

theorem canonical_toValue : ∀ {p : Predicate}, p.Canonical → p.toValue.Canonical
  | .all, _ | .header _ _, _ | .keyPrefix _, _ => by
    rw [toValue]
    exact Value.canonical_ofMembers (by simp [Value.CanonicalMembers, Value.Canonical])
  | .field pointer value, h => by
    rw [Canonical] at h
    rw [toValue]
    exact Value.canonical_ofMembers (by simp [Value.CanonicalMembers, Value.Canonical, h])
  | .anyOf ps, h | .allOf ps, h => by
    rw [Canonical] at h
    have hitems := canonicalItems_toValues h
    rw [toValue]
    exact Value.canonical_ofMembers (by simp [Value.CanonicalMembers, Value.Canonical, hitems])

theorem canonicalItems_toValues : ∀ {ps : List Predicate}, CanonicalAll ps → Value.CanonicalItems (toValues ps)
  | [], _ => by simp only [toValues, Value.CanonicalItems]
  | p :: ps, h => by
    rw [CanonicalAll] at h
    rw [toValues, Value.CanonicalItems]
    exact ⟨canonical_toValue h.1, canonicalItems_toValues h.2⟩

end

mutual

theorem told_toValue : ∀ {p : Predicate}, p.Canonical → p.Told (.ofValue p.toValue)
  | .all, _ => by
    rw [Told, toValue]
    exact tells_ofValue (by simp) (.told rfl .nil)
  | .header name value, _ => by
    rw [Told, toValue]
    exact tells_ofValue (by simp) (.told rfl (.told rfl (.told rfl .nil)))
  | .keyPrefix lead, _ => by
    rw [Told, toValue]
    exact tells_ofValue (by simp) (.told rfl (.told rfl .nil))
  | .field pointer value, h => by
    rw [Canonical] at h
    have hdenotes : (Tree.ofValue value).Denotes value := ⟨value.depth, Tree.value?_ofValue h (Nat.le_refl _)⟩
    rw [Told, toValue]
    exact tells_ofValue (by simp) (.told rfl (.told rfl (.told hdenotes .nil)))
  | .anyOf ps, h | .allOf ps, h => by
    rw [Canonical] at h
    have htold := toldAll_toValues h
    rw [Told, toValue]
    exact tells_ofValue (by simp) (.told rfl (.told ⟨_, rfl, htold⟩ .nil))

theorem toldAll_toValues : ∀ {ps : List Predicate}, CanonicalAll ps → ToldAll ps (Tree.ofItems (toValues ps))
  | [], _ => by rw [ToldAll, toValues, Tree.ofItems]
  | p :: ps, h => by
    rw [CanonicalAll] at h
    rw [ToldAll, toValues, Tree.ofItems]
    exact ⟨_, _, rfl, told_toValue h.1, toldAll_toValues h.2⟩

end

end Predicate

theorem forall₂_ofItems {α : Type} {write : α → Value} {tell : α → Tree → Prop} {as : List α}
    (h : ∀ a ∈ as, tell a (.ofValue (write a))) : List.Forall₂ tell as (Tree.ofItems (as.map write)) := by
  rw [Tree.ofItems_eq, List.map_map, List.forall₂_map_right_iff, List.forall₂_same]
  exact h

theorem Policy.canonical_toValue {p : Policy} (h : ∀ c, p.condition = some c → c.Canonical) : p.toValue.Canonical := by
  have hcondition : (p.condition.elim .null Predicate.toValue).Canonical := by
    cases hc : p.condition with
    | none => simp only [Option.elim_none, Value.Canonical]
    | some c => exact Predicate.canonical_toValue (h c hc)
  have hmasks : Value.CanonicalItems (p.masks.map .text) :=
    Value.canonicalItems_of_mem (List.forall_mem_map.2 fun _ _ => by simp only [Value.Canonical])
  exact Value.canonical_ofMembers (by simp [Value.CanonicalMembers, Value.Canonical, hcondition, hmasks])

theorem Rule.canonical_toValue {r : Rule} (hpredicate : r.predicate.Canonical)
    (hpolicies : ∀ p ∈ r.policies, ∀ c, p.condition = some c → c.Canonical) : r.toValue.Canonical := by
  have hpredicate := Predicate.canonical_toValue hpredicate
  have hpolicies : Value.CanonicalItems (r.policies.map Policy.toValue) :=
    Value.canonicalItems_of_mem (List.forall_mem_map.2 fun p hp => Policy.canonical_toValue (hpolicies p hp))
  exact Value.canonical_ofMembers (by simp [Value.CanonicalMembers, Value.Canonical, hpredicate, hpolicies])

theorem Retention.canonical_toValue (r : Retention) : r.toValue.Canonical :=
  Value.canonical_ofMembers (by simp [Value.CanonicalMembers, Value.Canonical, Value.ofInt])

theorem Policy.told_toValue {p : Policy} (h : ∀ c, p.condition = some c → c.Canonical) :
    p.Told (.ofValue p.toValue) := by
  have hcondition : ToldCondition p.condition (.ofValue (p.condition.elim .null Predicate.toValue)) := by
    cases hc : p.condition with
    | none => rfl
    | some c => exact Predicate.told_toValue (h c hc)
  have hmasks : List.Forall₂ (fun m t => t = .text (some m)) p.masks (Tree.ofItems (p.masks.map .text)) :=
    forall₂_ofItems fun _ _ => rfl
  exact tells_ofValue (by simp) (.told rfl (.told hcondition (.told ⟨_, rfl, hmasks⟩ .nil)))

theorem Rule.told_toValue {r : Rule} (hpredicate : r.predicate.Canonical)
    (hpolicies : ∀ p ∈ r.policies, ∀ c, p.condition = some c → c.Canonical) : r.Told (.ofValue r.toValue) := by
  have hpolicies := forall₂_ofItems fun p hp => Policy.told_toValue (hpolicies p hp)
  exact tells_ofValue (by simp) (.told rfl (.told (Predicate.told_toValue hpredicate) (.told ⟨_, rfl, hpolicies⟩ .nil)))

theorem Retention.told_toValue (r : Retention) : r.Told (.ofValue r.toValue) :=
  tells_ofValue (by simp) (.told rfl (.told rfl .nil))

namespace Subscriber

variable {s : Subscriber}

theorem told_toValue (hs : s.Typed) : s.Told (.ofValue s.toValue) := by
  have hrule := Rule.told_toValue hs.predicate hs.conditions
  have hretention := s.retention.told_toValue
  exact tells_ofValue (by simp) (.told rfl (.told hrule (.told hretention .nil)))

theorem canonical_toValue (hs : s.Typed) : s.toValue.Canonical := by
  have hrule := Rule.canonical_toValue hs.predicate hs.conditions
  have hretention := s.retention.canonical_toValue
  exact Value.canonical_ofMembers (by simp [Value.CanonicalMembers, Value.Canonical, hrule, hretention])

/-- The JSON of a subscriber is one of the trees that tell it, and reading any of these within levels in which it has a
value gives back the subscriber; the JSON of the subscriber has a value within as many levels as it is deep. -/
theorem reading_recovers (hs : s.Typed) :
    s.Told (.ofValue s.toValue) ∧
      (∀ levels, s.toValue.depth ≤ levels → decode? levels (.ofValue s.toValue) = some s) ∧
      ∀ t levels, s.Told t → t.Valued levels → decode? levels t = some s := by
  have htold := told_toValue hs
  refine ⟨htold, ?_, fun t levels h ht => decode?_told hs h ht⟩
  intro levels hlevels
  exact decode?_told hs htold ⟨_, Tree.value?_ofValue (canonical_toValue hs) hlevels⟩

/-- A subscriber of two tenants with standard retention, whose predicate is nested. -/
def courier : Subscriber where
  id := "courier"
  rule :=
    { sequential := false
      predicate := .anyOf [.field "/place" (.object [("x", .ofInt 1), ("y", .null)]), .allOf [.all]]
      policies := [⟨"north", none, []⟩, ⟨"south", some (.keyPrefix "s-"), ["/price"]⟩] }
  retention := .standard

/-- A tree that tells it, with tags and names last, without fields that hold their standard value, and with unknown
fields. -/
def courierTree : Tree :=
  .object [
    (some "note", .null),
    (some "rule", .object [
      (some "policies", .list [
        .object [(some "tenant_id", .text (some "north"))],
        .object [
          (some "owner", .list []),
          (some "exclude_fields", .list [.text (some "/price")]),
          (some "condition", .object [(some "prefix", .text (some "s-")), (some "type", .text (some "key_prefix"))]),
          (some "tenant_id", .text (some "south"))]]),
      (some "predicate", .object [
        (some "predicates", .list [
          .object [
            (some "value", .object [(some "y", .null), (some "x", .number (some (.int 1)))]),
            (some "pointer", .text (some "/place")),
            (some "type", .text (some "field"))],
          .object [
            (some "predicates", .list [.object [(some "since", .bool true), (some "type", .text (some "all"))]]),
            (some "type", .text (some "all_of"))]]),
        (some "type", .text (some "any_of"))])]),
    (some "id", .text (some "courier"))]

theorem courier_typed : courier.Typed where
  predicate := by
    simp only [courier, Predicate.Canonical, Predicate.CanonicalAll, Value.Canonical, Value.CanonicalMembers,
      Value.ofInt, and_true, List.pairwise_cons]
    decide
  conditions := by
    rintro p hp c hc
    rcases List.mem_cons.1 hp with rfl | hp
    · cases hc
    · obtain rfl := List.mem_singleton.1 hp
      obtain rfl := Option.some.inj hc
      simp only [Predicate.Canonical]
  retention := ⟨by decide, by decide⟩

theorem courier_told : courier.Told courierTree := by
  refine tells_reversed [_, _] [_] (.told rfl (.told ?_ (.omitted rfl .nil))) (by simp [text])
  refine tells_reversed [_, _] []
    (.omitted rfl (.told ?predicate (.told ⟨_, rfl, .cons ?north (.cons ?south .nil)⟩ .nil))) (by simp)
  case predicate =>
    refine tells_reversed [_, _] [] (.told rfl (.told ⟨_, rfl, _, _, rfl, ?_, _, _, rfl, ?_, rfl⟩ .nil)) (by simp)
    · exact tells_reversed [_, _, _] [] (.told rfl (.told rfl (.told ⟨1, rfl⟩ .nil))) (by simp)
    · refine tells_reversed [_, _] [] (.told rfl (.told ⟨_, rfl, _, _, rfl, ?_, rfl⟩ .nil)) (by simp)
      exact tells_reversed [_] [_] (.told rfl .nil) (by simp [text])
  case north => exact tells_reversed [_] [] (.told rfl (.omitted rfl (.omitted rfl .nil))) (by simp)
  case south =>
    refine tells_reversed [_, _, _] [_] (.told rfl (.told ?_ (.told ⟨_, rfl, .cons rfl .nil⟩ .nil)))
      (by simp [text, items])
    exact tells_reversed [_, _] [] (.told rfl (.told rfl .nil)) (by simp)

theorem reading_recovers_courier :
    courier.Typed ∧ courier.Told courierTree ∧ courierTree.Valued 7 ∧ decode? 7 courierTree = some courier := by
  have hvalued : courierTree.Valued 7 := ⟨_, rfl⟩
  exact ⟨courier_typed, courier_told, hvalued, (reading_recovers courier_typed).2.2 _ _ courier_told hvalued⟩

end Subscriber

end Relay
