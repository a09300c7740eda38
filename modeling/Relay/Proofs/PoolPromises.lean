import Relay.Chain
import Relay.Proofs.PoolResults

/-!
# What worker pools promise

A job that was accepted starts, unless its pool is stopped before: as long as it is in the queue, the workers of the
pool can go on, and each of their steps brings it nearer to its start (`Pool.delay`). Together with the order of the
line this gives the order of processing for records of one key.
-/

namespace Relay

/-- How many steps of its workers can come at most before a pool takes a job that has so many ahead of it. -/
def Pool.delay (p : Pool) (ahead : Nat) : Nat := 2 * ahead + p.running.length

/-! ## Chains -/

/-- A mapper that does not answer as if its job were canceled. -/
def Mapper.Answers {σ : Type} (m : Mapper σ) : Prop := ∀ r c s, (m.map r c s).1 ≠ .error .canceled

namespace Executor

variable {e₀ e e₁ e' : Executor} {a : Action} {actions before after more : List Action} {limits : Limits}
  {s : ExecutorSettings} {lane : Lane} {p p' p₁ : Pool} {t : Task} {id bound : Nat} {taken : List Nat}
  {answers : List (Nat × Except ProcessError Outcome)}

def Action.isWork (lane : Lane) : Action → Bool
  | .start lane' | .finish lane' _ _ => lane' == lane
  | _ => false

/-- How often workers of a pool took a job or ended one. -/
def work (lane : Lane) (actions : List Action) : Nat := actions.countP (·.isWork lane)

theorem work_concat (lane : Lane) (actions : List Action) (a : Action) :
    work lane (actions ++ [a]) = work lane actions + if a.isWork lane then 1 else 0 := by
  simp [work, List.countP_append, List.countP_cons]

/-! ## From the queue to a worker -/

/-- What can have become of a job that was in the queue of a pool. -/
inductive Outlook (lane : Lane) (t : Task) (bound : Nat) (more : List Action) (e : Executor) (p : Pool) : Prop where
  | taken (started : (lane, t.id) ∈ e.started)
  | dropped (stop : .abort lane ∈ more) (aborted : p.aborted = true)
      (canceled : (t.id, .error .canceled) ∈ e.results) (last : ∀ id, (lane, id) ∈ e.started → id < t.id)
  | queued {ahead behind : List Task} (queue : p.queue = ahead ++ t :: behind)
      (near : work lane more + p.delay ahead.length ≤ bound)

theorem Touch.quiet (h : e.Touch lane p a p' taken answers) (haborted : p.aborted = true) :
    p'.aborted = true ∧ taken = [] := by
  cases h with
  | skipped queue free live => simp [haborted] at live
  | started queue free live => simp [haborted] at live
  | stopped => exact ⟨rfl, rfl⟩
  | _ => exact ⟨haborted, rfl⟩

/-- Every step of its workers brings a job of the queue nearer to its start, unless it is taken or the workers are
stopped. -/
theorem Touch.nearer (h : e.Touch lane p a p' taken answers) {ahead behind : List Task}
    (hqueue : p.queue = ahead ++ t :: behind) :
    t.id ∈ taken ∨
      (a = .abort lane ∧ p' = p.stop ∧ taken = [] ∧ (t.id, .error .canceled) ∈ answers) ∨
      ∃ ahead' behind', p'.queue = ahead' ++ t :: behind' ∧
        (if a.isWork lane then 1 else 0) + p'.delay ahead'.length ≤ p.delay ahead.length := by
  -- a worker takes the job itself, or one that is ahead of it
  have htake : ∀ {t' rest}, p.queue = t' :: rest →
      t' = t ∨ ∃ ahead', ahead.length = ahead'.length + 1 ∧ rest = ahead' ++ t :: behind := by
    intro t' rest hhead
    rw [hqueue] at hhead
    rcases List.cons_eq_append_iff.1 hhead.symm with ⟨rfl, hhead⟩ | ⟨ahead', rfl, hrest⟩
    · exact .inl (List.cons.inj hhead).1.symm
    · exact .inr ⟨ahead', rfl, hrest⟩
  cases h with
  | kept _ aside =>
    have hidle : a.isWork lane = false := by
      cases a <;> simp_all [Action.isWork, Action.lane?]
    exact .inr (.inr ⟨ahead, behind, hqueue, by simp [hidle]⟩)
  | @queued r own opened room first =>
    exact .inr (.inr ⟨ahead, behind ++ [e.task r], by simp [hqueue], by simp [Action.isWork, Pool.delay]⟩)
  | blocked => exact .inr (.inr ⟨ahead, behind, hqueue, by simp [Action.isWork, Pool.delay]⟩)
  | @entered t' rest waiting room live =>
    exact .inr (.inr ⟨ahead, behind ++ [t'], by simp [hqueue], by simp [Action.isWork, Pool.delay]⟩)
  | withdrawn id => exact .inr (.inr ⟨ahead, behind, hqueue, by simp [Action.isWork, Pool.delay, Pool.withdraw]⟩)
  | @skipped t' rest queue free live =>
    rcases htake queue with rfl | ⟨ahead', hlength, hrest⟩
    · exact .inl List.mem_cons_self
    · refine .inr (.inr ⟨ahead', behind, hrest, ?_⟩)
      simp only [Action.isWork, beq_self_eq_true, if_true, Pool.delay]
      omega
  | @started t' rest queue free live =>
    rcases htake queue with rfl | ⟨ahead', hlength, hrest⟩
    · exact .inl List.mem_cons_self
    · refine .inr (.inr ⟨ahead', behind, hrest, ?_⟩)
      simp only [Action.isWork, beq_self_eq_true, if_true, Pool.delay, List.length_append, List.length_singleton]
      omega
  | @ended id running result =>
    refine .inr (.inr ⟨ahead, behind, hqueue, ?_⟩)
    obtain ⟨t', ht', hid⟩ := List.mem_map.1 running
    have hfewer : (p.release id).running.length < p.running.length :=
      List.length_filter_lt_length_iff_exists.2 ⟨t', ht', by simp [hid]⟩
    simp only [Action.isWork, beq_self_eq_true, if_true, Pool.delay]
    omega
  | stopped => exact .inr (.inl ⟨rfl, rfl, rfl, List.mem_map.2 ⟨t, by simp [hqueue], rfl⟩⟩)

theorem Outlook.step (h : Outlook lane t bound more e p) (hline : e.Lines lane p)
    (htouch : e.Touch lane p a p' taken answers) (hs : e'.startedOn lane = e.startedOn lane ++ taken)
    (hr : e'.results = answers ++ e.results) : Outlook lane t bound (more ++ [a]) e' p' := by
  cases h with
  | taken started =>
    refine .taken (mem_startedOn.1 ?_)
    rw [hs]
    exact List.mem_append_left _ (mem_startedOn.2 started)
  | dropped stop aborted canceled last =>
    obtain ⟨haborted, rfl⟩ := htouch.quiet aborted
    refine .dropped (List.mem_append_left _ stop) haborted (hr ▸ List.mem_append_right _ canceled) fun id hm => ?_
    rw [← mem_startedOn, hs, List.append_nil] at hm
    exact last id (mem_startedOn.1 hm)
  | @queued ahead behind queue near =>
    rcases htouch.nearer queue with hm | ⟨rfl, rfl, rfl, hcanceled⟩ | ⟨ahead', behind', queue', hnearer⟩
    · refine .taken (mem_startedOn.1 ?_)
      rw [hs]
      exact List.mem_append_right _ hm
    · refine .dropped (List.mem_append_right _ List.mem_cons_self) rfl (hr ▸ List.mem_append_left _ hcanceled)
        fun id hm => ?_
      rw [← mem_startedOn, hs, List.append_nil] at hm
      exact hline.lt_of_queue (by simp [queue]) id hm
    · refine .queued queue' ?_
      rw [work_concat]
      omega

section Kept

variable (hstart : start limits s = .ok e₀) (hrun : e₀.run actions = some e)

include hstart hrun

end Kept

end Executor

namespace Backlog

open Executor

/-- No more can be made than these pools. -/
def limits : Limits := ⟨1, 1, 2⟩

/-- A record of a sequential subscriber. -/
def record : Routed := ⟨⟨"", ⟨true, .all, [⟨"", none, []⟩]⟩, .standard⟩, ⟨⟨⟨"", 0⟩, 0⟩, some [0], [], .null⟩⟩

def own : Lane := .isolated 1

end Backlog

end Relay
