import Relay.Proofs.WorkRules

/-!
# Chains of retries

One failure after another is judged, each of the attempt that the decision before called for. The `k`-th
decision of such a chain is about the attempt after `k` retries, with the beginning that the first attempt had
(`chain_decision`). So there are no more retries than allowed, their count never leaves its type, and as the
waits grow with the count (`interval_mono`), none is shorter than one before. The instants of the failures may
come in any order.
-/

namespace Relay

/-- A failed attempt that is to be judged. -/
structure Failure where
  /-- When it is judged. -/
  now : Nat
  /-- Whether trying again is useless. -/
  giveUp : Bool
  /-- Whether the service level knows retries. -/
  enabled : Bool
  deriving DecidableEq

/-- Nothing but the count of retries speaks against one more: it may help, and the window lasts. -/
def Failure.Mendable (p : RetryPolicy) (began : Nat) (f : Failure) : Prop :=
  f.giveUp = false ∧ f.enabled = true ∧ f.now - began < p.window.nanos

/-- The attempt that a decision calls for. -/
def Decision.next? : Decision → Option Attempt
  | .retry next _ => some next
  | .abandon _ => none

namespace RetryPolicy

/-- The decisions on one failure after another, up to the first that abandons the work. -/
def chain (p : RetryPolicy) : Attempt → List Failure → List Decision
  | _, [] => []
  | a, f :: fs =>
    match p.decide f.now a f.giveUp f.enabled with
    | .retry next backoff => .retry next backoff :: chain p next fs
    | .abandon reason => [.abandon reason]

variable {p : RetryPolicy}

/-! ## Waits -/

/-- The wait before the `n`-th retry if it can be expressed, whatever the maximum. -/
def exact (p : RetryPolicy) (n : UInt32) : Option Duration :=
  (power? p.coefficient.toNat (n.toNat - 1)).bind p.initial.times?

theorem exact_eq_some_iff {n : UInt32} {d : Duration} :
    p.exact n = some d ↔ Nat.pow p.coefficient.toNat (n.toNat - 1) < 4294967296 ∧
      p.initial.nanos * Nat.pow p.coefficient.toNat (n.toNat - 1) ≤ Duration.longest.nanos ∧
      d = ⟨p.initial.nanos * Nat.pow p.coefficient.toNat (n.toNat - 1)⟩ := by
  rw [exact, power?_eq]
  by_cases hpower : Nat.pow p.coefficient.toNat (n.toNat - 1) < 4294967296
  · rw [if_pos hpower, Option.bind_some, Duration.times?]
    by_cases hlong : p.initial.nanos * Nat.pow p.coefficient.toNat (n.toNat - 1) ≤ Duration.longest.nanos
    · rw [if_pos hlong, Option.some.injEq]
      exact ⟨fun h => ⟨hpower, hlong, h.symm⟩, fun h => h.2.2.symm⟩
    · rw [if_neg hlong]
      exact ⟨fun h => by simp at h, fun h => absurd h.2.1 hlong⟩
  · rw [if_neg hpower, Option.bind_none]
    exact ⟨fun h => by simp at h, fun h => absurd h.1 hpower⟩

/-- Where a wait can be expressed, so can all before it, and they are not longer. -/
theorem exact_mono (hc : 1 ≤ p.coefficient) {m n : UInt32} (h : m ≤ n) {d : Duration}
    (hd : p.exact n = some d) : ∃ d', p.exact m = some d' ∧ d'.nanos ≤ d.nanos := by
  obtain ⟨hpower, hlong, rfl⟩ := exact_eq_some_iff.1 hd
  have hexponent : m.toNat - 1 ≤ n.toNat - 1 := Nat.sub_le_sub_right (UInt32.le_iff_toNat_le.1 h) 1
  have hfactor : Nat.pow p.coefficient.toNat (m.toNat - 1) ≤ Nat.pow p.coefficient.toNat (n.toNat - 1) :=
    Nat.pow_le_pow_right (UInt32.le_iff_toNat_le.1 hc) hexponent
  have hwait := Nat.mul_le_mul_left p.initial.nanos hfactor
  exact ⟨_, exact_eq_some_iff.2 ⟨Nat.lt_of_le_of_lt hfactor hpower, Nat.le_trans hwait hlong, rfl⟩, hwait⟩

theorem nanos_min (a b : Duration) : (a.min b).nanos = min a.nanos b.nanos := by
  unfold Duration.min
  split <;> omega

theorem interval_of_exact {n : UInt32} {d : Duration} (h : p.exact n = some d) :
    p.interval n = (p.maximum.map d.min).getD d := by
  have h : (power? p.coefficient.toNat (n.toNat - 1)).bind p.initial.times? = some d := h
  rw [interval, h]
  cases p.maximum <;> rfl

theorem interval_of_inexact {n : UInt32} (h : p.exact n = none) :
    p.interval n = p.maximum.getD .longest := by
  have h : (power? p.coefficient.toNat (n.toNat - 1)).bind p.initial.times? = none := h
  rw [interval, h]
  cases p.maximum <;> rfl

theorem interval_le_maximum {m : Duration} (hm : p.maximum = some m) (n : UInt32) :
    (p.interval n).nanos ≤ m.nanos := by
  cases hd : p.exact n with
  | none =>
    rw [interval_of_inexact hd, hm]
    exact Nat.le_refl _
  | some d =>
    rw [interval_of_exact hd, hm, Option.map_some, Option.getD_some, nanos_min]
    exact Nat.min_le_right _ _

/-- No wait is shorter than one before it, also where the power or the product of a later one is too large to
express. -/
theorem interval_mono (hc : 1 ≤ p.coefficient) {m n : UInt32} (h : m ≤ n) :
    (p.interval m).nanos ≤ (p.interval n).nanos := by
  cases hn : p.exact n with
  | none =>
    rw [interval_of_inexact hn]
    cases hmax : p.maximum with
    | some longest => exact interval_le_maximum hmax m
    | none =>
      cases hm : p.exact m with
      | none => exact Nat.le_of_eq (by rw [interval_of_inexact hm, hmax])
      | some d =>
        rw [interval_of_exact hm, hmax]
        obtain ⟨-, hlong, rfl⟩ := exact_eq_some_iff.1 hm
        exact hlong
  | some d =>
    obtain ⟨d', hm, hle⟩ := exact_mono hc h hn
    rw [interval_of_exact hn, interval_of_exact hm]
    cases p.maximum with
    | none => exact hle
    | some longest =>
      show (d'.min longest).nanos ≤ (d.min longest).nanos
      rw [nanos_min, nanos_min]
      omega

/-! ## Single decisions -/

section Decide

variable {now : Nat} {a next : Attempt} {giveUp enabled : Bool} {wait : Duration}

theorem permits_iff :
    p.permits now a = true ↔ a.times.toNat < p.times.toNat ∧ now - a.began < p.window.nanos := by
  rw [permits, Bool.and_eq_true, decide_eq_true_iff, decide_eq_true_iff, UInt32.lt_iff_toNat_lt]
  rfl

theorem decide_eq_retry_iff :
    p.decide now a giveUp enabled = .retry next wait ↔
      giveUp = false ∧ enabled = true ∧ p.permits now a = true ∧ next = a.next ∧ wait = p.interval next.times := by
  cases giveUp <;> cases enabled <;> cases hpermits : p.permits now a <;> simp [decide, hpermits]
  constructor
  · rintro ⟨rfl, rfl⟩
    exact ⟨rfl, rfl⟩
  · rintro ⟨rfl, rfl⟩
    exact ⟨rfl, rfl⟩

theorem decide_eq_giveUp_iff : p.decide now a giveUp enabled = .abandon .giveUp ↔ giveUp = true := by
  cases giveUp <;> cases enabled <;> cases hpermits : p.permits now a <;> simp [decide, hpermits]

theorem decide_eq_retryDisabled_iff :
    p.decide now a giveUp enabled = .abandon .retryDisabled ↔ giveUp = false ∧ enabled = false := by
  cases giveUp <;> cases enabled <;> cases hpermits : p.permits now a <;> simp [decide, hpermits]

theorem decide_eq_exhausted_iff :
    p.decide now a giveUp enabled = .abandon .exhausted ↔
      giveUp = false ∧ enabled = true ∧ p.permits now a = false := by
  cases giveUp <;> cases enabled <;> cases hpermits : p.permits now a <;> simp [decide, hpermits]

end Decide

/-! ## Chains -/

variable {a : Attempt} {fs : List Failure}

/-- The `k`-th decision of a chain is about the attempt after `k` more retries; there are as many at most. -/
theorem chain_decision {k : Nat} {d : Decision} (ha : a.times.toNat ≤ p.times.toNat)
    (h : (p.chain a fs)[k]? = some d) :
    ∃ f b, fs[k]? = some f ∧ b.began = a.began ∧ b.times.toNat = a.times.toNat + k ∧
      b.times.toNat ≤ p.times.toNat ∧ d = p.decide f.now b f.giveUp f.enabled := by
  induction fs generalizing a k with
  | nil => simp [chain] at h
  | cons f fs ih =>
    rw [chain] at h
    cases hd : p.decide f.now a f.giveUp f.enabled with
    | abandon reason =>
      rw [hd] at h
      cases k with
      | zero =>
        obtain rfl : Decision.abandon reason = d := by simpa using h
        exact ⟨f, a, rfl, rfl, rfl, ha, hd.symm⟩
      | succ k => simp at h
    | retry next wait =>
      rw [hd] at h
      cases k with
      | zero =>
        obtain rfl : Decision.retry next wait = d := by simpa using h
        exact ⟨f, a, rfl, rfl, rfl, ha, hd.symm⟩
      | succ k =>
        obtain ⟨rfl, htimes, hlt⟩ := times_of_decide hd
        obtain ⟨f', b, hf, hbegan, hcount, hle, hdecision⟩ := ih (a := a.next) (by omega) (by simpa using h)
        exact ⟨f', b, hf, hbegan, by omega, hle, hdecision⟩

theorem length_retries_le (ha : a.times.toNat ≤ p.times.toNat) :
    a.times.toNat + ((p.chain a fs).filterMap Decision.next?).length ≤ p.times.toNat := by
  induction fs generalizing a with
  | nil => exact ha
  | cons f fs ih =>
    rw [chain]
    cases hd : p.decide f.now a f.giveUp f.enabled with
    | abandon reason => exact ha
    | retry next wait =>
      obtain ⟨rfl, htimes, hlt⟩ := times_of_decide hd
      have hrest := ih (a := a.next) (by omega)
      simp only [List.filterMap_cons, Decision.next?, List.length_cons]
      omega

/-- While nothing but the count limits the retries, there are as many as the count allows, and the work is
abandoned when they are used up. -/
theorem chain_mendable (ha : a.times.toNat ≤ p.times.toNat) (h : ∀ f ∈ fs, f.Mendable p a.began) :
    ((p.chain a fs).filterMap Decision.next?).length = min fs.length (p.times.toNat - a.times.toNat) ∧
      (p.times.toNat - a.times.toNat < fs.length →
        (p.chain a fs).getLast? = some (.abandon .exhausted)) := by
  induction fs generalizing a with
  | nil => exact ⟨by simp [chain], fun hlt => absurd hlt (by simp)⟩
  | cons f fs ih =>
    obtain ⟨hgiveUp, henabled, hwindow⟩ := h f List.mem_cons_self
    by_cases hcount : a.times.toNat < p.times.toNat
    · have hpermits : p.permits f.now a = true := permits_iff.2 ⟨hcount, hwindow⟩
      have hd : p.decide f.now a f.giveUp f.enabled = .retry a.next (p.interval a.next.times) :=
        decide_eq_retry_iff.2 ⟨hgiveUp, henabled, hpermits, rfl, rfl⟩
      obtain ⟨-, htimes, -⟩ := times_of_decide hd
      obtain ⟨hlength, hlast⟩ := ih (a := a.next) (by omega) fun g hg => h g (List.mem_cons_of_mem _ hg)
      rw [chain, hd]
      refine ⟨?_, fun hlt => ?_⟩
      · simp only [List.filterMap_cons, Decision.next?, List.length_cons, hlength]
        omega
      · have hend := hlast (by simp only [List.length_cons] at hlt; omega)
        simp only [List.getLast?_cons, hend, Option.getD_some]
    · have hpermits : p.permits f.now a = false := by
        rw [Bool.eq_false_iff]
        exact fun ht => hcount (permits_iff.1 ht).1
      have hd : p.decide f.now a f.giveUp f.enabled = .abandon .exhausted :=
        decide_eq_exhausted_iff.2 ⟨hgiveUp, henabled, hpermits⟩
      rw [chain, hd]
      refine ⟨?_, fun _ => rfl⟩
      simp only [List.filterMap_cons, List.filterMap_nil, Decision.next?, List.length_nil]
      omega

/-- In every chain of decisions from a first attempt there are at most as many retries as allowed. The `k`-th
retry carries the count `k`, which is no more than its type can hold, and the beginning of the first attempt; no
wait is shorter than one before it or longer than the maximum. A failure that no retry can mend is given up
whatever the budget, one without retries is not retried, and any other one ends the chain if and only if the
count is used up or the window has passed. While neither the flags nor the window stand against it there are
exactly as many retries as allowed. -/
theorem chain_keeps_budget {p : RetryPolicy} (hc : 1 ≤ p.coefficient) (began : Nat) (fs : List Failure) :
    let decisions := p.chain (.first began) fs
    let retries := decisions.filterMap Decision.next?
    retries.length ≤ p.times.toNat ∧
      (∀ k next wait, decisions[k]? = some (.retry next wait) →
        next.began = began ∧ next.times.toNat = k + 1 ∧ k + 1 < UInt32.size) ∧
      (∀ (j k : Nat) next next' wait wait', j ≤ k → decisions[j]? = some (.retry next wait) →
        decisions[k]? = some (.retry next' wait') → wait.nanos ≤ wait'.nanos) ∧
      (∀ longest, p.maximum = some longest → ∀ next wait, Decision.retry next wait ∈ decisions →
        wait.nanos ≤ longest.nanos) ∧
      (∀ k f d, fs[k]? = some f → decisions[k]? = some d →
        (d = .abandon .giveUp ↔ f.giveUp = true) ∧
        (d = .abandon .retryDisabled ↔ f.giveUp = false ∧ f.enabled = false) ∧
        (d = .abandon .exhausted ↔ f.giveUp = false ∧ f.enabled = true ∧
          (p.times.toNat ≤ k ∨ p.window.nanos ≤ f.now - began))) ∧
      ((∀ f ∈ fs, f.Mendable p began) → retries.length = min fs.length p.times.toNat ∧
        (p.times.toNat < fs.length → decisions.getLast? = some (.abandon .exhausted))) := by
  intro decisions retries
  have hfirst : (Attempt.first began).times.toNat ≤ p.times.toNat := Nat.zero_le _
  have hretry : ∀ k next wait, decisions[k]? = some (.retry next wait) →
      next.began = began ∧ next.times.toNat = k + 1 ∧ wait = p.interval next.times := by
    intro k next wait hk
    obtain ⟨f, b, -, hbegan, hcount, -, hd⟩ := chain_decision hfirst hk
    obtain ⟨-, -, -, rfl, rfl⟩ := decide_eq_retry_iff.1 hd.symm
    obtain ⟨-, htimes, -⟩ := times_of_decide hd.symm
    have hzero : (Attempt.first began).times.toNat = 0 := rfl
    exact ⟨hbegan, by omega, rfl⟩
  refine ⟨?_, ?_, ?_, ?_, ?_, ?_⟩
  · have hlength : (Attempt.first began).times.toNat + retries.length ≤ p.times.toNat := length_retries_le hfirst
    exact Nat.le_trans (Nat.le_add_left _ _) hlength
  · intro k next wait hk
    obtain ⟨hbegan, htimes, -⟩ := hretry k next wait hk
    exact ⟨hbegan, htimes, htimes ▸ next.times.toNat_lt⟩
  · intro j k next next' wait wait' hjk hj hk
    obtain ⟨-, htimes, rfl⟩ := hretry j next wait hj
    obtain ⟨-, htimes', rfl⟩ := hretry k next' wait' hk
    exact interval_mono hc (UInt32.le_iff_toNat_le.2 (by omega))
  · intro longest hmax next wait hmem
    obtain ⟨k, hk⟩ := List.getElem?_of_mem hmem
    obtain ⟨-, -, rfl⟩ := hretry k next wait hk
    exact interval_le_maximum hmax _
  · intro k f d hf hk
    obtain ⟨f', b, hf', hbegan, hcount, -, rfl⟩ := chain_decision hfirst hk
    obtain rfl : f = f' := Option.some.inj (hf.symm.trans hf')
    have hpermits : p.permits f.now b = false ↔ p.times.toNat ≤ k ∨ p.window.nanos ≤ f.now - began := by
      have hzero : (Attempt.first began).times.toNat = 0 := rfl
      have hbegan : b.began = began := hbegan
      rw [Bool.eq_false_iff, ne_eq, permits_iff, hbegan]
      omega
    refine ⟨decide_eq_giveUp_iff, decide_eq_retryDisabled_iff, ?_⟩
    rw [decide_eq_exhausted_iff, hpermits]
  · intro hmendable
    exact chain_mendable hfirst hmendable

/-- Two retries are allowed, of which the second would be too long to express; a third failure comes before the
second in time. -/
theorem chain_of_two_retries :
    let p : RetryPolicy := ⟨4294967295, .ofSeconds 4294967297, some (.ofSeconds 5000000000), 2, .ofSeconds 60⟩
    let fs : List Failure := [⟨5, false, true⟩, ⟨9, false, true⟩, ⟨7, false, true⟩]
    let decisions := p.chain (.first 3) fs
    decisions = [.retry ⟨3, 1⟩ (.ofSeconds 4294967297), .retry ⟨3, 2⟩ (.ofSeconds 5000000000), .abandon .exhausted] ∧
      1 ≤ p.coefficient ∧ (∀ f ∈ fs, f.Mendable p 3) ∧
      (∀ next wait, Decision.retry next wait ∈ decisions → wait.nanos ≤ (Duration.ofSeconds 5000000000).nanos) ∧
      (decisions.filterMap Decision.next?).length = 2 ∧ decisions.getLast? = some (.abandon .exhausted) := by
  intro p fs decisions
  have hc : 1 ≤ p.coefficient := by decide
  have hmendable : ∀ f ∈ fs, f.Mendable p 3 := by
    intro f hf
    simp only [fs, List.mem_cons, List.not_mem_nil, or_false] at hf
    rcases hf with rfl | rfl | rfl <;> exact ⟨rfl, rfl, by decide⟩
  obtain ⟨-, -, -, hlongest, -, hexact⟩ := chain_keeps_budget hc 3 fs
  obtain ⟨hlength, hlast⟩ := hexact hmendable
  exact ⟨by decide, hc, hmendable, hlongest _ rfl, hlength, hlast (by decide)⟩

end RetryPolicy

end Relay
