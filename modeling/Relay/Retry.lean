import Relay.Duration

/-!
# Retrying

A failed attempt is repeated while its budget lasts: a number of retries, and a window of time since the
first attempt. The wait before a retry grows by a constant factor up to a maximum. Instants are
nanoseconds on one clock.
-/

namespace Relay

/-- An attempt at some work. -/
structure Attempt where
  /-- When the first attempt began. -/
  began : Nat
  /-- How many retries came before this attempt and including it. -/
  times : UInt32
  deriving DecidableEq, Repr, Inhabited

namespace Attempt

/-- The first attempt, at an instant. -/
def first (now : Nat) : Attempt := ⟨now, 0⟩

/-- The retry after an attempt. -/
def next (a : Attempt) : Attempt := ⟨a.began, a.times + 1⟩

/-- The time since the first attempt. -/
def elapsed (a : Attempt) (now : Nat) : Duration := ⟨now - a.began⟩

end Attempt

/-- Why some work is not attempted again. -/
inductive AbandonReason where
  /-- Trying again is useless. -/
  | giveUp
  /-- The budget is used up. -/
  | exhausted
  /-- The service level knows no retries. -/
  | retryDisabled
  deriving DecidableEq, Repr, Inhabited

/-- The name of a reason. -/
def AbandonReason.name : AbandonReason → String
  | .giveUp => "give_up"
  | .exhausted => "exhausted"
  | .retryDisabled => "retry_disabled"

/-- What to do about a failed attempt. -/
inductive Decision where
  /-- Wait, then make the next attempt. -/
  | retry (next : Attempt) (backoff : Duration)
  /-- Stop trying. -/
  | abandon (reason : AbandonReason)
  deriving DecidableEq, Repr

/-- The budget of retries and the waits between them. -/
structure RetryPolicy where
  /-- The factor from one wait to the next. -/
  coefficient : UInt32
  /-- The wait before the first retry. -/
  initial : Duration
  /-- The longest wait. -/
  maximum : Option Duration
  /-- How many retries there may be. -/
  times : UInt32
  /-- How long after the first attempt there may be retries. -/
  window : Duration
  deriving DecidableEq, Repr, Inhabited

namespace RetryPolicy

/-- Three retries in a minute, the first after a tenth of a second, each wait twice the one before. -/
def standard : RetryPolicy := ⟨2, .ofMillis 100, none, 3, .ofSeconds 60⟩

/-- A power, if it is below `2 ^ 32`. Large exponents are decided without computing the power. -/
def power? (base n : Nat) : Option Nat :=
  if base ≤ 1 ∨ n < 32 then
    let p := if base ≤ 1 then (if n = 0 then 1 else base) else Nat.pow base n
    if p < 4294967296 then some p else none
  else none

/-- The wait before the `n`-th retry: the first wait times a power of the coefficient, at most the
maximum. Where the power or the wait is too large to express, the maximum stands for it. -/
def interval (p : RetryPolicy) (n : UInt32) : Duration :=
  let exact := (power? p.coefficient.toNat (n.toNat - 1)).bind p.initial.times?
  match exact, p.maximum with
  | some d, some m => d.min m
  | some d, none => d
  | none, some m => m
  | none, none => .longest

/-- Whether there may be one more retry after an attempt. -/
def permits (p : RetryPolicy) (now : Nat) (a : Attempt) : Bool :=
  a.times < p.times && (a.elapsed now).nanos < p.window.nanos

/-- What to do about an attempt that failed. -/
def decide (p : RetryPolicy) (now : Nat) (a : Attempt) (giveUp enabled : Bool) : Decision :=
  if giveUp then .abandon .giveUp
  else if !enabled then .abandon .retryDisabled
  else if p.permits now a then .retry a.next (p.interval a.next.times)
  else .abandon .exhausted

/-- The shortcut for large exponents is exact. -/
theorem power?_eq (base n : Nat) :
    power? base n = if Nat.pow base n < 4294967296 then some (Nat.pow base n) else none := by
  unfold power?
  by_cases hb : base ≤ 1
  · have hp : (if n = 0 then 1 else base) = Nat.pow base n := by
      match base, hb with
      | 0, _ => cases n <;> simp
      | 1, _ => cases n <;> simp
    simp only [hb, true_or, if_true, hp]
  · by_cases hn : n < 32
    · simp [hb, hn]
    · have h2 : Nat.pow 2 32 ≤ Nat.pow base n :=
        Nat.le_trans (Nat.pow_le_pow_right (by omega) (Nat.le_of_not_lt hn))
          (Nat.pow_le_pow_left (by omega) n)
      rw [if_neg (by omega), if_neg (Nat.not_lt.2 h2)]

end RetryPolicy

end Relay
