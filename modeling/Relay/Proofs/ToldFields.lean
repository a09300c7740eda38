import Mathlib.Data.List.Forall2
import Relay.Json.Fields
import Relay.Proofs.TreeValues

/-!
# Fields told by trees

An object tells the fields of a record if its members are those of the fields in any order, some that may be left out
missing, and members of other names among them (`Tells`). Then reading the fields by their names finds what each of
them holds (`Tells.fields?`), and so it does in what stays after one field is taken away (`Tells.without`).
-/

namespace Relay.Json

/-- A field of a record: its name, whether it may be left out, and the trees that tell what it holds. -/
structure RecordField where
  name : String
  optional : Prop
  tells : Tree → Prop

namespace RecordField

/-- A field that always holds this text. -/
def text (name s : String) : RecordField := ⟨name, False, fun t => t = .text (some s)⟩

/-- A field that holds a list. -/
def items (name : String) (optional : Prop) (tell : List Tree → Prop) : RecordField :=
  ⟨name, optional, fun t => ∃ ts, t = .list ts ∧ tell ts⟩

/-- Members that tell fields, in the order of the fields. -/
inductive Members : List RecordField → List (Option String × Tree) → Prop where
  | nil : Members [] []
  | told {f : RecordField} {fs : List RecordField} {t : Tree} {ms : List (Option String × Tree)} :
      f.tells t → Members fs ms → Members (f :: fs) ((some f.name, t) :: ms)
  | omitted {f : RecordField} {fs : List RecordField} {ms : List (Option String × Tree)} :
      f.optional → Members fs ms → Members (f :: fs) ms

/-- What is found of a field: nothing if it may be left out, or a tree that tells it, with a value within some
levels. -/
inductive Found (l : Nat) (f : RecordField) : Option Tree → Prop where
  | omitted : f.optional → Found l f none
  | told {t : Tree} : f.tells t → t.Valued l → Found l f (some t)

end RecordField

open RecordField

/-- A tree tells fields: it is an object of members that tell them, in any order, among members of other names. -/
def Tells (fields : List RecordField) (t : Tree) : Prop :=
  ∃ ms told others, t = .object ms ∧ ms.Perm (told ++ others) ∧ Members fields told ∧
    ∀ m ∈ others, ∀ f ∈ fields, m.1 ≠ some f.name

section

variable {α : Type} {l : Nat} {f : RecordField} {fields : List RecordField} {t : Tree} {o : Option Tree}
  {ms told : List (Option String × Tree)}

theorem Tells.exists_object (h : Tells fields t) : ∃ ms, t = .object ms := by
  obtain ⟨ms, _, _, hobject, -⟩ := h
  exact ⟨ms, hobject⟩

/-! ## Members by name -/

theorem RecordField.Members.exists_name (h : Members fields told) {m : Option String × Tree} (hm : m ∈ told) :
    ∃ f ∈ fields, m.1 = some f.name := by
  induction h with
  | nil => simp at hm
  | told _ _ ih =>
    rcases List.mem_cons.1 hm with rfl | hm
    · exact ⟨_, List.mem_cons_self, rfl⟩
    · obtain ⟨g, hg, hname⟩ := ih hm
      exact ⟨g, List.mem_cons_of_mem _ hg, hname⟩
  | omitted _ _ ih =>
    obtain ⟨g, hg, hname⟩ := ih hm
    exact ⟨g, List.mem_cons_of_mem _ hg, hname⟩

theorem RecordField.Members.filter_eq_nil (h : Members fields told) (hf : f.name ∉ fields.map name) :
    told.filter (fun m => m.1 == some f.name) = [] := by
  rw [List.filter_eq_nil_iff]
  intro m hm heq
  obtain ⟨g, hg, hname⟩ := h.exists_name hm
  have hsame : g.name = f.name := Option.some.inj (hname.symm.trans (eq_of_beq heq))
  exact hf (hsame ▸ List.mem_map_of_mem hg)

/-- Of a field of another name than all others there is one member, or none where it may be left out. -/
theorem RecordField.Members.filter_eq (h : Members fields told) (hnodup : (fields.map name).Nodup) (hf : f ∈ fields) :
    (f.optional ∧ told.filter (fun m => m.1 == some f.name) = []) ∨
      ∃ t, f.tells t ∧ told.filter (fun m => m.1 == some f.name) = [(some f.name, t)] := by
  induction h with
  | nil => simp at hf
  | @told g fs t ms hg hms ih =>
    obtain ⟨hother, hnodup⟩ := List.nodup_cons.1 hnodup
    rcases List.mem_cons.1 hf with rfl | hf
    · refine .inr ⟨t, hg, ?_⟩
      rw [List.filter_cons_of_pos (by simp), hms.filter_eq_nil hother]
    · have hne : g.name ≠ f.name := fun heq => hother (heq ▸ List.mem_map_of_mem hf)
      rw [List.filter_cons_of_neg (by simpa using hne)]
      exact ih hnodup hf
  | @omitted g fs ms hg hms ih =>
    obtain ⟨hother, hnodup⟩ := List.nodup_cons.1 hnodup
    rcases List.mem_cons.1 hf with rfl | hf
    · exact .inl ⟨hg, hms.filter_eq_nil hother⟩
    · exact ih hnodup hf

/-! ## Reading -/

theorem Tells.field? (h : Tells fields (.object ms)) (hnodup : (fields.map name).Nodup)
    (hms : ∀ m ∈ ms, Tree.ValuedMember l m) (hf : f ∈ fields) : ∃ o, Tree.field? f.name ms = some o ∧ Found l f o := by
  obtain ⟨_, told, others, ⟨⟩, hperm, htold, hothers⟩ := h
  have hnone : others.filter (fun m => m.1 == some f.name) = [] := by
    rw [List.filter_eq_nil_iff]
    intro m hm heq
    exact hothers m hm f hf (eq_of_beq heq)
  have hfilter := hperm.filter fun m => m.1 == some f.name
  rw [List.filter_append, hnone, List.append_nil] at hfilter
  rw [Tree.field?]
  rcases htold.filter_eq hnodup hf with ⟨hopt, hnil⟩ | ⟨t, ht, hone⟩
  · rw [hnil, List.perm_nil] at hfilter
    exact ⟨none, by rw [hfilter], .omitted hopt⟩
  · rw [hone, List.perm_singleton] at hfilter
    have hmem : (some f.name, t) ∈ ms := by
      have hkept : (some f.name, t) ∈ ms.filter fun m => m.1 == some f.name := by simp [hfilter]
      exact List.mem_of_mem_filter hkept
    exact ⟨some t, by rw [hfilter], .told ht (hms _ hmem).2⟩

theorem exists_mapM_field? (h : ∀ f ∈ fields, ∃ o, Tree.field? f.name ms = some o ∧ Found l f o) :
    ∃ os, (fields.map name).mapM (Tree.field? · ms) = some os ∧ List.Forall₂ (Found l) fields os := by
  induction fields with
  | nil => exact ⟨[], rfl, .nil⟩
  | cons f fs ih =>
    obtain ⟨⟨o, ho, hfound⟩, hfs⟩ := List.forall_mem_cons.1 h
    obtain ⟨os, hos, hfounds⟩ := ih hfs
    refine ⟨o :: os, ?_, .cons hfound hfounds⟩
    rw [List.map_cons, List.mapM_cons, ho, hos]
    rfl

theorem Tree.any_isNone_eq_false (hms : ∀ m ∈ ms, Tree.ValuedMember l m) : (ms.any fun m => m.1.isNone) = false := by
  rw [List.any_eq_false]
  intro m hm
  rw [Option.isNone_iff_eq_none]
  exact Option.isSome_iff_ne_none.1 (hms m hm).1

/-- Reading fields of different names finds what each of them holds. -/
theorem Tells.fields? (h : Tells fields t) (hnodup : (fields.map name).Nodup) (ht : t.Valued l) :
    ∃ l' os, l = l' + 1 ∧ t.fields? (fields.map name) = some os ∧ List.Forall₂ (Found l') fields os := by
  obtain ⟨ms, rfl⟩ := h.exists_object
  obtain ⟨l, rfl, hms⟩ := ht.members
  obtain ⟨os, hos, hfounds⟩ := exists_mapM_field? fun f hf => h.field? hnodup hms hf
  refine ⟨l, os, rfl, ?_, hfounds⟩
  rw [Tree.fields?, if_neg (by rw [Tree.any_isNone_eq_false hms]; exact Bool.false_ne_true), hos]

/-- Without the members of one field, an object tells the other ones. -/
theorem Tells.without (h : Tells (f :: fields) (.object ms)) (hf : f.name ∉ fields.map name) :
    Tells fields (.object (ms.filter fun m => m.1 != some f.name)) := by
  obtain ⟨_, told, others, ⟨⟩, hperm, htold, hothers⟩ := h
  have hrest : ∀ {ms}, Members fields ms → (ms.filter fun m => m.1 != some f.name) = ms := by
    intro ms hms
    rw [List.filter_eq_self]
    intro m hm
    obtain ⟨g, hg, hname⟩ := hms.exists_name hm
    have hne : g.name ≠ f.name := fun heq => hf (heq ▸ List.mem_map_of_mem hg)
    simpa [hname] using hne
  have hperm := hperm.filter fun m => m.1 != some f.name
  rw [List.filter_append] at hperm
  refine ⟨_, told.filter fun m => m.1 != some f.name, _, rfl, hperm, ?_, ?_⟩
  · cases htold with
    | told _ hms =>
      rw [List.filter_cons_of_neg (by simp), hrest hms]
      exact hms
    | omitted _ hms =>
      rw [hrest hms]
      exact hms
  · intro m hm g hg
    exact hothers m (List.mem_of_mem_filter hm) g (List.mem_cons_of_mem _ hg)

namespace RecordField.Found

theorem exists_of_required (h : Found l f o) (hf : ¬ f.optional) : ∃ t, o = some t ∧ f.tells t ∧ t.Valued l := by
  cases h with
  | omitted hopt => exact absurd hopt hf
  | told ht hvalued => exact ⟨_, rfl, ht, hvalued⟩

theorem eq_text {name s : String} (h : Found l (.text name s) o) : o = some (.text (some s)) := by
  obtain ⟨t, rfl, rfl, -⟩ := h.exists_of_required not_false
  rfl

theorem required {read : Tree → Option α} {a : α} (h : Found l f o) (hf : ¬ f.optional)
    (hread : ∀ t, f.tells t → t.Valued l → read t = some a) : Tree.required read o = some a := by
  obtain ⟨t, rfl, ht, hvalued⟩ := h.exists_of_required hf
  exact hread t ht hvalued

theorem required_text {name s : String} (h : Found l (.text name s) o) : Tree.required Tree.text? o = some s :=
  h.required not_false fun t ht _ => by rw [ht, Tree.text?]

theorem orElse {read : Tree → Option α} {default a : α} (h : Found l f o) (hf : f.optional → a = default)
    (hread : ∀ t, f.tells t → t.Valued l → read t = some a) : Tree.orElse default read o = some a := by
  cases h with
  | omitted hopt => rw [Tree.orElse, hf hopt]
  | told ht hvalued => exact hread _ ht hvalued

end RecordField.Found

/-- Reading a list whose trees tell its items. -/
theorem Tree.items?_eq_some {read : Nat → Tree → Option α} {tell : α → Tree → Prop} {as : List α} {ts : List Tree}
    (h : List.Forall₂ tell as ts) (ht : (Tree.list ts).Valued l)
    (hread : ∀ {l' a t}, tell a t → t.Valued l' → read l' t = some a) : Tree.items? read l (.list ts) = some as := by
  obtain ⟨l', rfl, hts⟩ := ht.items
  rw [Tree.items?]
  clear ht
  induction h with
  | nil => rfl
  | cons htell _ ih =>
    obtain ⟨hvalued, hvalueds⟩ := List.forall_mem_cons.1 hts
    rw [List.mapM_cons, hread htell hvalued, ih hvalueds]
    rfl

theorem RecordField.Found.orElse_items {read : Nat → Tree → Option α} {name : String} {tell : α → Tree → Prop}
    {as : List α}
    (h : Found l (.items name (as = []) (List.Forall₂ tell as)) o)
    (hread : ∀ {l' a t}, tell a t → t.Valued l' → read l' t = some a) :
    Tree.orElse [] (Tree.items? read l) o = some as := by
  refine h.orElse id ?_
  rintro _ ⟨ts, rfl, htold⟩ hts
  exact Tree.items?_eq_some htold hts hread

theorem tells_reversed (told others : List (Option String × Tree)) (h : Members fields told)
    (hothers : ∀ m ∈ others, ∀ f ∈ fields, m.1 ≠ some f.name) : Tells fields (.object (told ++ others).reverse) :=
  ⟨_, told, others, rfl, List.reverse_perm _, h, hothers⟩

/-- The tree of an object tells fields if its members do. -/
theorem tells_ofValue {ms : List (String × Value)} (hnodup : (ms.map (·.1)).Nodup)
    (h : Members fields (ms.map fun m => (some m.1, Tree.ofValue m.2))) : Tells fields (.ofValue (.ofMembers ms)) := by
  obtain ⟨members, hmembers, hperm⟩ := Tree.exists_ofValue_ofMembers hnodup
  refine ⟨members, _, [], hmembers, ?_, h, by simp⟩
  rwa [List.append_nil]

end

end Relay.Json
