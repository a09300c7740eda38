import Relay.Proofs.WorkRules

/-!
# The history of a record

What the journal says of one record in one stage is a list of signs: an attempt is in flight or was refused,
it ended well or failed, its failure was judged. A history is such a list as the budget of retries allows it,
and it tells where the record stands. How often a record is attempted, and after which signs it is attempted no
more, follows from its history alone.
-/

namespace Relay

/-- What happened to a record in a stage. -/
inductive Sign where
  /-- An attempt is in flight. -/
  | begun (times : UInt32)
  /-- An attempt failed at launch. -/
  | refused (times : UInt32) (giveUp : Bool)
  /-- An attempt ended well, maybe with a payload. -/
  | done (value : Option Json.Value)
  /-- An attempt in flight failed. -/
  | failed (giveUp : Bool)
  /-- A failed attempt was judged at an instant. -/
  | judged (attempt : Attempt) (now : Nat) (decision : Decision)

/-- Where a record stands in a stage. -/
inductive Stand where
  /-- An attempt is to be launched. -/
  | due (a : Attempt)
  /-- An attempt is in flight. -/
  | out (a : Attempt)
  /-- An attempt failed and is to be judged. -/
  | down (a : Attempt) (giveUp : Bool)
  /-- There is no further attempt. -/
  | closed
  deriving DecidableEq, Repr

/-- The signs of a record whose budget began at an instant, the latest first, and where it stands. -/
inductive History (b : Budget) (began : Nat) : List Sign → Stand → Prop where
  | fresh : History b began [] (.due (.first began))
  | begun {signs : List Sign} {a : Attempt} (h : History b began signs (.due a)) :
      History b began (.begun a.times :: signs) (.out a)
  | refused {signs : List Sign} {a : Attempt} (giveUp : Bool) (h : History b began signs (.due a)) :
      History b began (.refused a.times giveUp :: signs) (.down a giveUp)
  | done {signs : List Sign} {a : Attempt} (value : Option Json.Value) (h : History b began signs (.out a)) :
      History b began (.done value :: signs) .closed
  | failed {signs : List Sign} {a : Attempt} (giveUp : Bool) (h : History b began signs (.out a)) :
      History b began (.failed giveUp :: signs) (.down a giveUp)
  | retried {signs : List Sign} {a next : Attempt} {giveUp : Bool} {now : Nat} {backoff : Duration}
      (h : History b began signs (.down a giveUp))
      (decided : b.policy.decide now a giveUp b.enabled = .retry next backoff) :
      History b began (.judged a now (.retry next backoff) :: signs) (.due next)
  | abandoned {signs : List Sign} {a : Attempt} {giveUp : Bool} {now : Nat} {reason : AbandonReason}
      (h : History b began signs (.down a giveUp))
      (decided : b.policy.decide now a giveUp b.enabled = .abandon reason) :
      History b began (.judged a now (.abandon reason) :: signs) .closed

/-- How often a record may be retried. -/
def Budget.retries (b : Budget) : Nat := if b.enabled then b.policy.times.toNat else 0

/-- A retry keeps the beginning of the budget, counts one more, and needs a budget that allows it. -/
theorem Budget.retry {b : Budget} {now : Nat} {a next : Attempt} {giveUp : Bool} {backoff : Duration}
    (h : b.policy.decide now a giveUp b.enabled = .retry next backoff) :
    giveUp = false ∧ next.began = a.began ∧ next.times.toNat = a.times.toNat + 1 ∧
      a.times.toNat < b.retries ∧ (a.elapsed now).nanos < b.policy.window.nanos := by
  obtain ⟨rfl, htimes, hlt⟩ := RetryPolicy.times_of_decide h
  simp only [RetryPolicy.decide] at h
  split at h
  · simp at h
  · next hg =>
    split at h
    · simp at h
    · next he =>
      split at h
      · next hp =>
        simp only [RetryPolicy.permits, Bool.and_eq_true, decide_eq_true_eq] at hp
        have henabled : b.enabled = true := by simpa using he
        exact ⟨by simpa using hg, rfl, htimes, by rwa [Budget.retries, if_pos henabled], hp.2⟩
      · simp at h

def Stand.attempt? : Stand → Option Attempt
  | .due a => some a
  | .out a => some a
  | .down a _ => some a
  | .closed => none

/-- The number of retries before the attempt that a sign makes. -/
def Sign.try? : Sign → Option Nat
  | .begun times => some times.toNat
  | .refused times _ => some times.toNat
  | _ => none

/-- The attempts among some signs, each by the number of retries before it. -/
def tries (signs : List Sign) : List Nat := signs.filterMap Sign.try?

/-- Whether a number of attempts fits where a record stands. -/
def Stand.Counts : Stand → Nat → Prop
  | .due a, n => n = a.times.toNat
  | .out a, n => n = a.times.toNat + 1
  | .down a _, n => n = a.times.toNat + 1
  | .closed, n => 1 ≤ n

/-- Whether a sign is the verdict that gives a record up. -/
def Sign.gaveUp : Sign → Bool
  | .judged _ _ (.abandon _) => true
  | _ => false

/-- Whether a sign leaves no attempt to come: a result, a failure that no retry can mend, or a failure that is
judged when the window of the budget has passed. -/
def Sign.IsLast (b : Budget) : Sign → Prop
  | .begun _ => False
  | .refused _ giveUp => giveUp = true
  | .done _ => True
  | .failed giveUp => giveUp = true
  | .judged a now _ => b.policy.window.nanos ≤ (a.elapsed now).nanos

/-- Whether a record stands where no attempt comes any more. -/
def Stand.Spent : Stand → Prop
  | .closed => True
  | .down _ giveUp => giveUp = true
  | _ => False

namespace History

variable {b : Budget} {began : Nat} {signs newer older : List Sign} {stand : Stand} {sign : Sign}

/-! ## The attempts -/

/-- Every attempt belongs to the budget that the first one began. -/
theorem attempt_le (h : History b began signs stand) :
    ∀ a ∈ stand.attempt?, a.began = began ∧ a.times.toNat ≤ b.retries := by
  induction h with
  | fresh =>
    rintro a ⟨⟩
    exact ⟨rfl, Nat.zero_le _⟩
  | begun _ ih => exact ih
  | refused _ _ ih => exact ih
  | done => simp [Stand.attempt?]
  | failed _ _ ih => exact ih
  | retried _ decided ih =>
    rintro a ⟨⟩
    obtain ⟨-, hbegan, htimes, hlt, -⟩ := Budget.retry decided
    obtain ⟨hbegan', -⟩ := ih _ rfl
    exact ⟨hbegan.trans hbegan', by omega⟩
  | abandoned => simp [Stand.attempt?]

/-- The attempts are counted from nought, none is left out and none is made twice. -/
theorem tries_eq (h : History b began signs stand) :
    ∃ n, tries signs = (List.range n).reverse ∧ n ≤ b.retries + 1 ∧ stand.Counts n := by
  induction h with
  | fresh => exact ⟨0, rfl, Nat.zero_le _, rfl⟩
  | begun h ih =>
    obtain ⟨n, htries, -, rfl⟩ := ih
    obtain ⟨-, hle⟩ := h.attempt_le _ rfl
    exact ⟨_, by rw [List.range_succ]; simpa [tries, Sign.try?] using htries, by omega, rfl⟩
  | refused _ h ih =>
    obtain ⟨n, htries, -, rfl⟩ := ih
    obtain ⟨-, hle⟩ := h.attempt_le _ rfl
    exact ⟨_, by rw [List.range_succ]; simpa [tries, Sign.try?] using htries, by omega, rfl⟩
  | done _ _ ih =>
    obtain ⟨n, htries, hle, hcount⟩ := ih
    exact ⟨n, htries, hle, by simp only [Stand.Counts] at hcount ⊢; omega⟩
  | failed _ _ ih => exact ih
  | retried _ decided ih =>
    obtain ⟨n, htries, hle, hcount⟩ := ih
    obtain ⟨-, -, htimes, -, -⟩ := Budget.retry decided
    exact ⟨n, htries, hle, hcount.trans htimes.symm⟩
  | abandoned _ _ ih =>
    obtain ⟨n, htries, hle, hcount⟩ := ih
    exact ⟨n, htries, hle, by simp only [Stand.Counts] at hcount ⊢; omega⟩

/-- A record that stands at its first attempt has no signs yet. -/
theorem eq_nil_of_first {now : Nat} (h : History b began signs (.due (.first now))) : signs = [] := by
  generalize hs : Stand.due (.first now) = stand at h
  cases h with
  | fresh => rfl
  | retried _ decided =>
    -- a retry counts at least one attempt before it
    obtain rfl := Stand.due.inj hs
    obtain ⟨-, -, htimes, -⟩ := Budget.retry decided
    simp [Attempt.first] at htimes
  | begun => simp at hs
  | refused => simp at hs
  | done => simp at hs
  | failed => simp at hs
  | abandoned => simp at hs

theorem tries_ne_nil (h : History b began signs stand) (hs : signs ≠ []) : tries signs ≠ [] := by
  obtain ⟨n, htries, -, hcount⟩ := h.tries_eq
  have hn : n ≠ 0 := by
    rintro rfl
    cases stand with
    | due a =>
      obtain ⟨hbegan, -⟩ := h.attempt_le a rfl
      have ha : a = .first a.began := congrArg (Attempt.mk a.began) (UInt32.toNat_inj.1 hcount.symm)
      rw [ha] at h
      exact hs h.eq_nil_of_first
    | out => simp [Stand.Counts] at hcount
    | down => simp [Stand.Counts] at hcount
    | closed => simp [Stand.Counts] at hcount
  simpa [htries] using hn

/-! ## What came before -/

/-- Before each sign there is a history that is not closed. -/
theorem before (h : History b began (sign :: older) stand) :
    ∃ stand', stand' ≠ .closed ∧ History b began older stand' := by
  cases h with
  | begun h => exact ⟨_, by simp, h⟩
  | refused _ h => exact ⟨_, by simp, h⟩
  | done _ h => exact ⟨_, by simp, h⟩
  | failed _ h => exact ⟨_, by simp, h⟩
  | retried h _ => exact ⟨_, by simp, h⟩
  | abandoned h _ => exact ⟨_, by simp, h⟩

theorem earlier (h : History b began (newer ++ older) stand) : ∃ stand', History b began older stand' := by
  induction newer generalizing stand with
  | nil => exact ⟨stand, h⟩
  | cons sign newer ih =>
    obtain ⟨stand', -, h⟩ := h.before
    exact ih h

theorem began_of_judged {a : Attempt} {now : Nat} {decision : Decision} (h : History b began signs stand)
    (hm : .judged a now decision ∈ signs) : a.began = began := by
  obtain ⟨newer, older, rfl⟩ := List.append_of_mem hm
  obtain ⟨stand', h⟩ := h.earlier
  cases h with
  | retried h _ => exact (h.attempt_le _ rfl).1
  | abandoned h _ => exact (h.attempt_le _ rfl).1

/-! ## After the last attempt -/

/-- After the last attempt a record is spent. -/
theorem spent_of_isLast (h : History b began (sign :: older) stand) (hl : sign.IsLast b) : stand.Spent := by
  cases h with
  | begun => exact hl.elim
  | refused _ _ => exact hl
  | done => trivial
  | failed _ _ => exact hl
  | retried _ decided =>
    obtain ⟨-, -, -, -, hlt⟩ := Budget.retry decided
    simp only [Sign.IsLast] at hl
    omega
  | abandoned => trivial

/-- A record that is spent stays so, and is not attempted. -/
theorem spent_of_earlier (h : History b began (newer ++ older) stand)
    (hspent : ∀ stand', History b began older stand' → stand'.Spent) :
    stand.Spent ∧ tries newer = [] := by
  induction newer generalizing stand with
  | nil => exact ⟨hspent _ h, rfl⟩
  | cons sign newer ih =>
    cases h with
    | begun h => exact ((ih h).1).elim
    | refused _ h => exact ((ih h).1).elim
    | done _ h => exact ((ih h).1).elim
    | failed _ h => exact ((ih h).1).elim
    | retried h decided =>
      -- a failure that no retry can mend is not retried
      have hgiveUp := (ih h).1
      obtain ⟨hfalse, -⟩ := Budget.retry decided
      simp [Stand.Spent, hfalse] at hgiveUp
    | abandoned h _ => exact ⟨trivial, (ih h).2⟩

/-- Nothing is attempted after the last attempt. -/
theorem no_try_after (h : History b began (newer ++ sign :: older) stand) (hl : sign.IsLast b) :
    tries newer = [] := (h.spent_of_earlier fun _ h' => h'.spent_of_isLast hl).2

/-- Nothing follows what ends a record. -/
theorem eq_nil_of_closed (h : History b began (newer ++ older) stand)
    (hclosed : ∀ stand', History b began older stand' → stand' = .closed) : newer = [] := by
  induction newer generalizing stand with
  | nil => rfl
  | cons sign newer ih =>
    obtain ⟨stand', hne, h⟩ := h.before
    obtain rfl := ih h
    exact absurd (hclosed _ h) hne

theorem eq_nil_of_done {value : Option Json.Value}
    (h : History b began (newer ++ .done value :: older) stand) : newer = [] :=
  h.eq_nil_of_closed fun _ h' => by cases h'; rfl

theorem head_of_done {value : Option Json.Value} (h : History b began signs stand)
    (hm : .done value ∈ signs) : signs.head? = some (.done value) := by
  obtain ⟨newer, older, rfl⟩ := List.append_of_mem hm
  obtain rfl := h.eq_nil_of_done
  rfl

/-- The verdict that gives a record up is the latest sign. -/
theorem head_of_gaveUp (h : History b began signs stand) (hm : sign ∈ signs) (hg : sign.gaveUp = true) :
    signs.head? = some sign := by
  obtain ⟨newer, older, rfl⟩ := List.append_of_mem hm
  obtain rfl := h.eq_nil_of_closed fun _ h' => by cases h' <;> first | rfl | simp [Sign.gaveUp] at hg
  rfl

end History

/-- Where the attempt at an item stands. -/
def Task.stand {α τ : Type} (t : Task α τ) : Stand :=
  match t.phase with
  | .resting _ => .due t.attempt
  | .flying _ => .out t.attempt
  | .failed giveUp => .down t.attempt giveUp

theorem Task.stand_ne_closed {α τ : Type} (t : Task α τ) : t.stand ≠ .closed := by
  unfold Task.stand
  split <;> simp

end Relay
