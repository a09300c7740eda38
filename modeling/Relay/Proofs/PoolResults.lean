import Relay.Proofs.PoolRuns

/-!
# What becomes of a submission

A job starts once at most, and on the pool of its record. It has the result with which it ended, or it was canceled,
and then for one of three reasons: it was revoked before a worker took it, it panicked, or its pool was stopped before
a worker took it. Canceling everything revokes exactly what was submitted before.
-/

namespace Relay.Executor

variable {e₀ e e' : Executor} {a : Action} {actions before after more : List Action} {limits : Limits}
  {s : ExecutorSettings} {lane : Lane} {p : Pool} {t : Task} {id : Nat}

/-! ## Revoked jobs -/

/-- A job was canceled by itself, or everything was canceled after it was submitted. -/
def Revoked (actions : List Action) (id : Nat) : Prop :=
  .cancel id ∈ actions ∨ ∃ before after, actions = before ++ .cancelAll :: after ∧ id < (submissions before).length

/-- Why a job is canceled. -/
inductive Cancels (e₀ : Executor) (actions : List Action) (id : Nat) : Prop where
  | panicked {lane : Lane} (panic : .finish lane id none ∈ actions)
  | revoked {before after : List Action} {lane : Lane} {e : Executor} {p : Pool} {t : Task} {rest : List Task}
      (cut : actions = before ++ .start lane :: after) (run : e₀.run before = some e) (pool : e.pool? lane = some p)
      (queue : p.queue = t :: rest) (own : t.id = id) (revoked : Revoked before id)
  | stopped {before after : List Action} {lane : Lane} {e : Executor} {p : Pool} {t : Task}
      (cut : actions = before ++ .abort lane :: after) (run : e₀.run before = some e) (pool : e.pool? lane = some p)
      (queued : t ∈ p.queue) (own : t.id = id)

theorem Cancels.append (h : Cancels e₀ actions id) (more : List Action) : Cancels e₀ (actions ++ more) id := by
  cases h with
  | panicked panic => exact .panicked (List.mem_append_left _ panic)
  | revoked cut run pool queue own revoked =>
    exact .revoked (by rw [cut, List.append_assoc, List.cons_append]) run pool queue own revoked
  | stopped cut run pool queued own =>
    exact .stopped (by rw [cut, List.append_assoc, List.cons_append]) run pool queued own

end Relay.Executor
