import Relay.Proofs.RetryChains
import Relay.Proofs.ValidSettings

/-!
# Waits as exact as their numbers

A wait is the first one times a power of the coefficient, but no longer than the maximum. The power is taken in 32 bits,
and the maximum stands for a wait whose power does not fit in them. This is right if the wait has passed the maximum by
then; it has, if the maximum is at most `2 ^ 32` times the first wait. Otherwise there are waits that jump from below the
maximum to the maximum.
-/

namespace Relay

namespace RetryPolicy

variable {p : RetryPolicy} {longest : Duration} {n : UInt32}

/-- The wait before the `n`-th retry in nanoseconds, in numbers of any size and without a maximum. -/
def grown (p : RetryPolicy) (n : UInt32) : Nat := p.initial.nanos * p.coefficient.toNat ^ (n.toNat - 1)

theorem interval_of_large_power (hm : p.maximum = some longest) (h : 2 ^ 32 ≤ p.coefficient.toNat ^ (n.toNat - 1)) :
    p.interval n = longest := by
  have hinexact : p.exact n = none := by
    cases hd : p.exact n with
    | none => rfl
    | some d =>
      obtain ⟨hpower, -⟩ := exact_eq_some_iff.1 hd
      exact absurd hpower (Nat.not_lt.2 h)
  rw [interval_of_inexact hinexact, hm]
  rfl

/-- A wait whose power fits is exact: if it cannot be expressed itself, it has passed every maximum. -/
theorem interval_of_small_power (hm : p.maximum = some longest) (hlongest : longest.nanos ≤ Duration.longest.nanos)
    (h : p.coefficient.toNat ^ (n.toNat - 1) < 2 ^ 32) :
    (p.interval n).nanos = min (p.grown n) longest.nanos := by
  by_cases hfits : p.grown n ≤ Duration.longest.nanos
  · have hd : p.exact n = some ⟨p.grown n⟩ := exact_eq_some_iff.2 ⟨h, hfits, rfl⟩
    rw [interval_of_exact hd, hm]
    exact nanos_min _ _
  · have hinexact : p.exact n = none := by
      cases hd : p.exact n with
      | none => rfl
      | some d =>
        obtain ⟨-, hlong, -⟩ := exact_eq_some_iff.1 hd
        exact absurd hlong hfits
    rw [interval_of_inexact hinexact, hm]
    show longest.nanos = min (p.grown n) longest.nanos
    omega

theorem interval_eq_min_iff (hm : p.maximum = some longest) (hlongest : longest.nanos ≤ Duration.longest.nanos) :
    (p.interval n).nanos = min (p.grown n) longest.nanos ↔
      p.coefficient.toNat ^ (n.toNat - 1) < 2 ^ 32 ∨ longest.nanos ≤ p.grown n := by
  by_cases hpower : p.coefficient.toNat ^ (n.toNat - 1) < 2 ^ 32
  · exact iff_of_true (interval_of_small_power hm hlongest hpower) (.inl hpower)
  · rw [interval_of_large_power hm (Nat.le_of_not_lt hpower)]
    omega

end RetryPolicy

namespace Settings

theorem nanos_ofMillis_le {n : Nat} (h : n < Nat.pow 2 64) : (Duration.ofMillis n).nanos ≤ Duration.longest.nanos := by
  have hbound : Nat.pow 2 64 * 1000000 ≤ Duration.longest.nanos := by decide
  have hnanos : (Duration.ofMillis n).nanos = n * 1000000 := rfl
  have hmul := Nat.mul_le_mul_right 1000000 (Nat.le_of_lt h)
  omega

/-- Whatever the settings were read from, there is a longest wait. The wait before a retry is what it has grown to, but no
longer than that, just if the power that it grew by fits in 32 bits or it has reached the longest wait; otherwise it is
the longest wait although it has not grown so far. If the longest wait is at most `2 ^ 32` times the first one, all waits
are exact. -/
theorem interval_exact_iff {env : Environment} {s : Settings} (h : ofEnvironment env = .ok s) :
    ∃ maximum < 2 ^ 64, s.retry.maximum = some (.ofMillis maximum) ∧
      let longest := (Duration.ofMillis maximum).nanos
      (∀ n, (s.retry.interval n).nanos = min (s.retry.grown n) longest ↔
        s.retry.coefficient.toNat ^ (n.toNat - 1) < 2 ^ 32 ∨ longest ≤ s.retry.grown n) ∧
      (∀ n, (s.retry.interval n).nanos ≠ min (s.retry.grown n) longest →
        s.retry.interval n = .ofMillis maximum ∧ s.retry.grown n < longest) ∧
      (longest ≤ s.retry.initial.nanos * 2 ^ 32 → ∀ n, (s.retry.interval n).nanos = min (s.retry.grown n) longest) := by
  obtain ⟨maximum, hbound, hm⟩ := exists_maximum_millis h
  have hlongest := nanos_ofMillis_le hbound
  refine ⟨maximum, hbound, hm, ?_⟩
  intro longest
  have hexact : ∀ n, (s.retry.interval n).nanos = min (s.retry.grown n) longest ↔
      s.retry.coefficient.toNat ^ (n.toNat - 1) < 2 ^ 32 ∨ longest ≤ s.retry.grown n := by
    intro n
    exact RetryPolicy.interval_eq_min_iff hm hlongest
  refine ⟨hexact, fun n hne => ?_, fun hfirst n => ?_⟩
  · have hneither := mt (hexact n).2 hne
    have hpower : 2 ^ 32 ≤ s.retry.coefficient.toNat ^ (n.toNat - 1) := by omega
    exact ⟨RetryPolicy.interval_of_large_power hm hpower, by omega⟩
  · rw [hexact]
    by_cases hpower : s.retry.coefficient.toNat ^ (n.toNat - 1) < 2 ^ 32
    · exact .inl hpower
    · have hgrown : s.retry.initial.nanos * 2 ^ 32 ≤ s.retry.grown n :=
        Nat.mul_le_mul_left _ (Nat.le_of_not_lt hpower)
      exact .inr (Nat.le_trans hfirst hgrown)

/-- What an instance is told that is not to wait before its retries. -/
def toldNotToWait : Environment :=
  .ofList [("RETRY_INITIAL_INTERVAL_MS", "0"), ("RETRY_BACKOFF_COEFFICIENT", "65536")]

/-- Its settings. -/
def waitless : Settings := { standard with retry := { standard.retry with initial := .ofMillis 0, coefficient := 65536 } }

theorem ofEnvironment_toldNotToWait : ofEnvironment toldNotToWait = .ok waitless := by rfl

/-- The third retry waits for five seconds, although nought is what the wait has grown to. -/
theorem interval_inexact_third :
    ofEnvironment toldNotToWait = .ok waitless ∧ waitless.validate = .ok () ∧ waitless.retry.grown 3 = 0 ∧
      waitless.retry.interval 3 = .ofMillis 5000 ∧
      (waitless.retry.interval 3).nanos ≠ min (waitless.retry.grown 3) (Duration.ofMillis 5000).nanos := by
  obtain ⟨maximum, -, hm, hexact, hjumps, -⟩ := interval_exact_iff ofEnvironment_toldNotToWait
  have hmaximum : Duration.ofMillis maximum = .ofMillis 5000 := Option.some.inj hm.symm
  rw [hmaximum] at hexact hjumps
  have hinexact : (waitless.retry.interval 3).nanos ≠ min (waitless.retry.grown 3) (Duration.ofMillis 5000).nanos :=
    mt (hexact 3).1 (by decide)
  exact ⟨ofEnvironment_toldNotToWait, rfl, by decide, (hjumps 3 hinexact).1, hinexact⟩

end Settings

end Relay
