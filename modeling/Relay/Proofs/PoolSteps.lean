import Relay.Executor

/-!
# What can happen to worker pools

`Executor.Step` lists what each action does and when it is possible; the executor takes these steps and
no other (`Executor.act_eq_some_iff`). `Executor.Touch` says what a step does to one of the pools. A property of all runs is shown
once for each way in which a step touches a pool, whatever the interleaving.
-/

namespace Relay

/-- The number of workers of a pool. -/
def ExecutorSettings.workersOf (s : ExecutorSettings) : Lane → Nat
  | .shared => s.workers
  | .isolated _ => 1

/-- The number of jobs that the queue of a pool holds. -/
def ExecutorSettings.roomOf (s : ExecutorSettings) : Lane → Nat
  | .shared => max s.queue 1
  | .isolated _ => max s.isolatedQueue 1

namespace Pool

def withdraw (p : Pool) (id : Nat) : Pool := { p with waiting := p.waiting.filter fun t => t.id != id }

def stop (p : Pool) : Pool := { p with waiting := [], queue := [], aborted := true }

theorem offer_of_room {p : Pool} (room : p.hasRoom = true) (first : p.waiting = []) (t : Executor.Task) :
    p.offer t = { p with queue := p.queue ++ [t] } := by
  simp [offer, room, first]

theorem offer_of_full {p : Pool} (full : ¬(p.hasRoom = true ∧ p.waiting = [])) (t : Executor.Task) :
    p.offer t = { p with waiting := p.waiting ++ [t] } := by
  simp only [offer, Bool.and_eq_true, List.isEmpty_iff]
  exact if_neg full

def release (p : Pool) (id : Nat) : Pool := { p with running := p.running.filter fun t => t.id != id }

end Pool

namespace Executor

/-- The job of a record that is submitted. -/
def task (e : Executor) (r : Routed) : Task := ⟨e.nextId, e.generation, r⟩

/-- The numbers of the jobs that the workers of a pool took, in order. -/
def startedOn (e : Executor) (lane : Lane) : List Nat :=
  ((e.started.filter fun x => x.1 == lane).map (·.2)).reverse

def Action.record? : Action → Option Routed
  | .submit r => some r
  | _ => none

def Action.lane? : Action → Option Lane
  | .enter lane | .start lane | .finish lane _ _ | .abort lane => some lane
  | _ => none

/-- What an action does, and when it is possible. -/
inductive Step (e : Executor) : Action → Executor → Prop where
  | refused (r : Routed) (closed : e.closed = true) :
      Step e (.submit r)
        { e with
          nextId := e.nextId + 1
          refused := (e.nextId, .poolClosed (e.settings.lane r).name) :: e.refused }
  | queued {r : Routed} {p : Pool} (opened : e.closed = false) (pool : e.pool? (e.settings.lane r) = some p)
      (room : p.hasRoom = true) (first : p.waiting = []) :
      Step e (.submit r)
        { e.withPool { p with queue := p.queue ++ [e.task r] } (e.settings.lane r) with nextId := e.nextId + 1 }
  | blocked {r : Routed} {p : Pool} (opened : e.closed = false) (pool : e.pool? (e.settings.lane r) = some p)
      (full : ¬(p.hasRoom = true ∧ p.waiting = [])) :
      Step e (.submit r)
        { e.withPool { p with waiting := p.waiting ++ [e.task r] } (e.settings.lane r) with nextId := e.nextId + 1 }
  | entered {lane : Lane} {p : Pool} {t : Task} {rest : List Task} (pool : e.pool? lane = some p)
      (waiting : p.waiting = t :: rest) (room : p.hasRoom = true) (live : p.aborted = false) :
      Step e (.enter lane) (e.withPool { p with waiting := rest, queue := p.queue ++ [t] } lane)
  | withdrawn (id : Nat) :
      Step e (.withdraw id)
        { e with shared := e.shared.withdraw id, isolated := e.isolated.map (·.withdraw id) }
  | skipped {lane : Lane} {p : Pool} {t : Task} {rest : List Task} (pool : e.pool? lane = some p)
      (queue : p.queue = t :: rest) (free : p.running.length < p.workers) (live : p.aborted = false)
      (canceled : e.isCanceled t = true) :
      Step e (.start lane)
        { e.withPool { p with queue := rest } lane with
          started := (lane, t.id) :: e.started
          results := (t.id, .error .canceled) :: e.results }
  | started {lane : Lane} {p : Pool} {t : Task} {rest : List Task} (pool : e.pool? lane = some p)
      (queue : p.queue = t :: rest) (free : p.running.length < p.workers) (live : p.aborted = false)
      (wanted : e.isCanceled t = false) :
      Step e (.start lane)
        { e.withPool { p with queue := rest, running := p.running ++ [t] } lane with
          started := (lane, t.id) :: e.started }
  | ended {lane : Lane} {p : Pool} {id : Nat} (pool : e.pool? lane = some p) (running : id ∈ p.running.map (·.id))
      (result : Option (Except ProcessError Outcome)) :
      Step e (.finish lane id result)
        { e.withPool (p.release id) lane with results := (id, result.getD (.error .canceled)) :: e.results }
  | canceled (id : Nat) : Step e (.cancel id) { e with canceled := id :: e.canceled }
  | allCanceled : Step e .cancelAll { e with generation := e.generation + 1 }
  | closed : Step e .close { e with closed := true }
  | aborted {lane : Lane} {p : Pool} (pool : e.pool? lane = some p) (closed : e.closed = true) :
      Step e (.abort lane)
        { e.withPool p.stop lane with
          results := (p.queue.map fun t => (t.id, .error .canceled)) ++ e.results
          refused := (p.waiting.map fun t => (t.id, .poolClosed lane.name)) ++ e.refused }

variable {e e' : Executor} {a : Action}

/-- A record that is not refused is offered to its pool. -/
theorem submit_eq {r : Routed} (opened : e.closed = false) :
    e.submit r = (e.pool? (e.settings.lane r)).map fun p =>
      { e.withPool (p.offer (e.task r)) (e.settings.lane r) with nextId := e.nextId + 1 } := by
  unfold submit
  dsimp only
  rw [if_neg (by simp [opened])]
  cases e.settings.lane r <;> rfl

theorem step_of_submit {r : Routed} (h : e.submit r = some e') : e.Step (.submit r) e' := by
  by_cases hclosed : e.closed = true
  · unfold submit at h
    rw [if_pos hclosed] at h
    obtain rfl := Option.some.inj h
    exact .refused r hclosed
  · have hopened : e.closed = false := eq_false_of_ne_true hclosed
    rw [submit_eq hopened] at h
    obtain ⟨p, hpool, rfl⟩ := Option.map_eq_some_iff.1 h
    by_cases hroom : p.hasRoom = true ∧ p.waiting = []
    · rw [Pool.offer_of_room hroom.1 hroom.2]
      exact .queued hopened hpool hroom.1 hroom.2
    · rw [Pool.offer_of_full hroom]
      exact .blocked hopened hpool hroom

theorem step_of_startJob {lane : Lane} (h : e.startJob lane = some e') : e.Step (.start lane) e' := by
  simp only [startJob, Option.bind_eq_bind, Option.pure_def, Option.bind_eq_some_iff] at h
  obtain ⟨p, hpool, ⟨t, p'⟩, htake, h⟩ := h
  unfold Pool.take at htake
  split at htake
  · simp at htake
  · next t' rest hqueue =>
    split at htake
    · next hfree =>
      obtain ⟨rfl, rfl⟩ := Prod.mk.inj (Option.some.inj htake)
      simp only [Bool.and_eq_true, decide_eq_true_eq, Bool.not_eq_true'] at hfree
      dsimp only at h
      split at h
      · next hcanceled =>
        obtain rfl := Option.some.inj h
        cases lane <;> exact .skipped (p := p) (t := t') hpool hqueue hfree.1 hfree.2 hcanceled
      · next hwanted =>
        obtain rfl := Option.some.inj h
        have hnot : e.isCanceled t' = false := eq_false_of_ne_true hwanted
        cases lane <;> exact .started (p := p) (t := t') hpool hqueue hfree.1 hfree.2 hnot
    · simp at htake

theorem step_of_finishJob {lane : Lane} {id : Nat} {result : Option (Except ProcessError Outcome)}
    (h : e.finishJob lane id result = some e') : e.Step (.finish lane id result) e' := by
  simp only [finishJob, Option.bind_eq_bind, Option.pure_def, Option.bind_eq_some_iff] at h
  obtain ⟨p, hpool, t, hfind, h⟩ := h
  obtain rfl := Option.some.inj h
  have hid : t.id = id := by simpa using List.find?_some hfind
  subst hid
  exact .ended hpool (List.mem_map_of_mem (List.mem_of_find?_eq_some hfind)) result

theorem step_of_abortPool {lane : Lane} (h : e.abortPool lane = some e') : e.Step (.abort lane) e' := by
  simp only [abortPool, Option.bind_eq_bind, Option.pure_def, Option.bind_eq_some_iff] at h
  obtain ⟨p, hpool, h⟩ := h
  split at h
  · next hclosed =>
    obtain rfl := Option.some.inj h
    exact .aborted hpool hclosed
  · simp at h

/-- Every action that is possible is one of the steps. -/
theorem step_of_act (h : e.act a = some e') : e.Step a e' := by
  cases a with
  | submit r => exact step_of_submit h
  | enter lane =>
    simp only [act, Option.bind_eq_bind, Option.pure_def, Option.bind_eq_some_iff] at h
    obtain ⟨p, hpool, p', henter, h⟩ := h
    obtain rfl := Option.some.inj h
    unfold Pool.enter at henter
    split at henter
    · simp at henter
    · next t rest hwaiting =>
      split at henter
      · next hroom =>
        obtain rfl := Option.some.inj henter
        simp only [Bool.and_eq_true, Bool.not_eq_true'] at hroom
        exact .entered hpool hwaiting hroom.1 hroom.2
      · simp at henter
  | withdraw id =>
    obtain rfl := Option.some.inj h
    exact .withdrawn id
  | start lane => exact step_of_startJob h
  | finish lane id result => exact step_of_finishJob h
  | cancel id =>
    obtain rfl := Option.some.inj h
    exact .canceled id
  | cancelAll =>
    obtain rfl := Option.some.inj h
    exact .allCanceled
  | close =>
    obtain rfl := Option.some.inj h
    exact .closed
  | abort lane => exact step_of_abortPool h

theorem act_of_step (h : e.Step a e') : e.act a = some e' := by
  cases h with
  | refused r closed => simp [act, submit, closed]
  | @queued r p opened pool room first =>
    rw [act, submit_eq opened, pool, Option.map_some, Pool.offer_of_room room first]
  | @blocked r p opened pool full =>
    rw [act, submit_eq opened, pool, Option.map_some, Pool.offer_of_full full]
  | entered pool waiting room live => simp [act, pool, Pool.enter, waiting, room, live]
  | withdrawn id => rfl
  | @skipped lane p t rest pool queue free live canceled =>
    have htake : p.take = some (t, { p with queue := rest }) := by
      simp [Pool.take, queue, free, live]
    simp only [act, startJob, pool, htake, Option.bind_eq_bind, Option.bind_some]
    rw [if_pos (by exact canceled)]
    cases lane <;> rfl
  | @started lane p t rest pool queue free live wanted =>
    have htake : p.take = some (t, { p with queue := rest }) := by
      simp [Pool.take, queue, free, live]
    simp only [act, startJob, pool, htake, Option.bind_eq_bind, Option.bind_some]
    rw [if_neg (by exact ne_true_of_eq_false wanted)]
    cases lane <;> rfl
  | @ended lane p id pool running result =>
    have hfind : (p.running.find? fun t => t.id == id).isSome = true := by
      obtain ⟨t, ht, hid⟩ := List.mem_map.1 running
      rw [List.find?_isSome]
      exact ⟨t, ht, by simp [hid]⟩
    obtain ⟨t, ht⟩ := Option.isSome_iff_exists.1 hfind
    have hid : t.id = id := by simpa using List.find?_some ht
    simp only [act, finishJob, pool, ht, hid, Option.bind_eq_bind, Option.bind_some]
    rfl
  | canceled id => rfl
  | allCanceled => rfl
  | closed => rfl
  | aborted pool closed => simp [act, abortPool, pool, closed, Pool.stop]

theorem act_eq_some_iff : e.act a = some e' ↔ e.Step a e' := ⟨step_of_act, act_of_step⟩

/-! ## What a step does to one pool -/

/-- What an action does to a pool: the pool after it, the jobs that its workers take, and the results that are given
meanwhile. -/
inductive Touch (e : Executor) (lane : Lane) (p : Pool) :
    Action → Pool → List Nat → List (Nat × Except ProcessError Outcome) → Prop where
  | kept {a : Action} (answers : List (Nat × Except ProcessError Outcome)) (aside : a.lane? ≠ some lane) :
      Touch e lane p a p [] answers
  | queued {r : Routed} (own : e.settings.lane r = lane) (opened : e.closed = false) (room : p.hasRoom = true)
      (first : p.waiting = []) :
      Touch e lane p (.submit r) { p with queue := p.queue ++ [e.task r] } [] []
  | blocked {r : Routed} (own : e.settings.lane r = lane) (opened : e.closed = false) :
      Touch e lane p (.submit r) { p with waiting := p.waiting ++ [e.task r] } [] []
  | entered {t : Task} {rest : List Task} (waiting : p.waiting = t :: rest) (room : p.hasRoom = true)
      (live : p.aborted = false) :
      Touch e lane p (.enter lane) { p with waiting := rest, queue := p.queue ++ [t] } [] []
  | withdrawn (id : Nat) : Touch e lane p (.withdraw id) (p.withdraw id) [] []
  | skipped {t : Task} {rest : List Task} (queue : p.queue = t :: rest) (free : p.running.length < p.workers)
      (live : p.aborted = false) :
      Touch e lane p (.start lane) { p with queue := rest } [t.id] [(t.id, .error .canceled)]
  | started {t : Task} {rest : List Task} (queue : p.queue = t :: rest) (free : p.running.length < p.workers)
      (live : p.aborted = false) :
      Touch e lane p (.start lane) { p with queue := rest, running := p.running ++ [t] } [t.id] []
  | ended {id : Nat} (running : id ∈ p.running.map (·.id)) (result : Option (Except ProcessError Outcome)) :
      Touch e lane p (.finish lane id result) (p.release id) [] [(id, result.getD (.error .canceled))]
  | stopped : Touch e lane p (.abort lane) p.stop [] (p.queue.map fun t => (t.id, .error .canceled))

theorem pool?_withPool {lane : Lane} {p : Pool} (hp : e.pool? lane = some p) (p' : Pool) (lane' : Lane) :
    (e.withPool p' lane).pool? lane' = if lane' = lane then some p' else e.pool? lane' := by
  cases lane with
  | shared => cases lane' <;> simp [withPool, pool?]
  | isolated i =>
    cases lane' with
    | shared => simp [withPool, pool?]
    | isolated j =>
      have hi : i < e.isolated.length := (List.getElem?_eq_some_iff.1 hp).1
      by_cases h : j = i
      · subst h
        simp [withPool, pool?, hi]
      · have hne : i ≠ j := fun heq => h heq.symm
        simp [withPool, pool?, h, hne]

section WithPool

variable (e : Executor) (p : Pool) (lane : Lane)

@[simp] theorem settings_withPool : (e.withPool p lane).settings = e.settings := by cases lane <;> rfl

@[simp] theorem closed_withPool : (e.withPool p lane).closed = e.closed := by cases lane <;> rfl

@[simp] theorem nextId_withPool : (e.withPool p lane).nextId = e.nextId := by cases lane <;> rfl

@[simp] theorem generation_withPool : (e.withPool p lane).generation = e.generation := by cases lane <;> rfl

@[simp] theorem canceled_withPool : (e.withPool p lane).canceled = e.canceled := by cases lane <;> rfl

@[simp] theorem started_withPool : (e.withPool p lane).started = e.started := by cases lane <;> rfl

@[simp] theorem results_withPool : (e.withPool p lane).results = e.results := by cases lane <;> rfl

@[simp] theorem refused_withPool : (e.withPool p lane).refused = e.refused := by cases lane <;> rfl

end WithPool

/-- A step that replaces the pool of one lane leaves the others alone. -/
theorem pool_of_withPool {lane lane' : Lane} {p p₁ p' : Pool} (hp : e.pool? lane = some p)
    (h : (e.withPool p₁ lane).pool? lane' = some p') :
    (lane' = lane ∧ p' = p₁) ∨ (lane' ≠ lane ∧ e.pool? lane' = some p') := by
  rw [pool?_withPool hp] at h
  by_cases heq : lane' = lane
  · rw [if_pos heq] at h
    exact .inl ⟨heq, (Option.some.inj h).symm⟩
  · rw [if_neg heq] at h
    exact .inr ⟨heq, h⟩

/-- A step touches every pool in one of the ways. -/
theorem Step.touch (h : e.Step a e') {lane : Lane} {p' : Pool} (hp' : e'.pool? lane = some p') :
    ∃ p taken answers, e.pool? lane = some p ∧ e.Touch lane p a p' taken answers ∧
      e'.startedOn lane = e.startedOn lane ++ taken ∧ e'.results = answers ++ e.results := by
  -- a step replaces the pool of one lane, and the others keep theirs
  have aside : ∀ {lane₀ : Lane}, lane ≠ lane₀ → some lane₀ ≠ some lane := fun hne heq =>
    hne (Option.some.inj heq).symm
  cases h with
  | refused r => exact ⟨p', [], [], hp', .kept [] (by simp [Action.lane?]), by simp [startedOn], rfl⟩
  | canceled id => exact ⟨p', [], [], hp', .kept [] (by simp [Action.lane?]), by simp [startedOn], rfl⟩
  | allCanceled => exact ⟨p', [], [], hp', .kept [] (by simp [Action.lane?]), by simp [startedOn], rfl⟩
  | closed => exact ⟨p', [], [], hp', .kept [] (by simp [Action.lane?]), by simp [startedOn], rfl⟩
  | @queued r p opened pool room first =>
    refine (pool_of_withPool pool hp').elim ?_ ?_
    · rintro ⟨rfl, rfl⟩
      exact ⟨p, [], [], pool, .queued rfl opened room first, by simp [startedOn], by simp⟩
    · rintro ⟨-, hp⟩
      exact ⟨p', [], [], hp, .kept [] (by simp [Action.lane?]), by simp [startedOn], by simp⟩
  | @blocked r p opened pool full =>
    refine (pool_of_withPool pool hp').elim ?_ ?_
    · rintro ⟨rfl, rfl⟩
      exact ⟨p, [], [], pool, .blocked rfl opened, by simp [startedOn], by simp⟩
    · rintro ⟨-, hp⟩
      exact ⟨p', [], [], hp, .kept [] (by simp [Action.lane?]), by simp [startedOn], by simp⟩
  | @entered lane₀ p t rest pool waiting room live =>
    refine (pool_of_withPool pool hp').elim ?_ ?_
    · rintro ⟨rfl, rfl⟩
      exact ⟨p, [], [], pool, .entered waiting room live, by simp [startedOn], by simp⟩
    · rintro ⟨hne, hp⟩
      exact ⟨p', [], [], hp, .kept [] (aside hne), by simp [startedOn], by simp⟩
  | withdrawn id =>
    have hp : ∃ p, e.pool? lane = some p ∧ p.withdraw id = p' := by
      cases lane with
      | shared => exact ⟨e.shared, rfl, Option.some.inj hp'⟩
      | isolated i =>
        change (e.isolated.map (·.withdraw id))[i]? = some p' at hp'
        rw [List.getElem?_map] at hp'
        exact Option.map_eq_some_iff.1 hp'
    obtain ⟨p, hp, rfl⟩ := hp
    exact ⟨p, [], [], hp, .withdrawn id, by simp [startedOn], rfl⟩
  | @skipped lane₀ p t rest pool queue free live canceled =>
    refine (pool_of_withPool pool hp').elim ?_ ?_
    · rintro ⟨rfl, rfl⟩
      exact ⟨p, [t.id], _, pool, .skipped queue free live, by simp [startedOn], by simp⟩
    · rintro ⟨hne, hp⟩
      exact ⟨p', [], [(t.id, .error .canceled)], hp, .kept _ (aside hne), by simp [startedOn, hne.symm], by simp⟩
  | @started lane₀ p t rest pool queue free live wanted =>
    refine (pool_of_withPool pool hp').elim ?_ ?_
    · rintro ⟨rfl, rfl⟩
      exact ⟨p, [t.id], [], pool, .started queue free live, by simp [startedOn], by simp⟩
    · rintro ⟨hne, hp⟩
      exact ⟨p', [], [], hp, .kept [] (aside hne), by simp [startedOn, hne.symm], by simp⟩
  | @ended lane₀ p id pool running result =>
    refine (pool_of_withPool pool hp').elim ?_ ?_
    · rintro ⟨rfl, rfl⟩
      exact ⟨p, [], _, pool, .ended running result, by simp [startedOn], by simp⟩
    · rintro ⟨hne, hp⟩
      exact ⟨p', [], [_], hp, .kept _ (aside hne), by simp [startedOn], rfl⟩
  | @aborted lane₀ p pool closed =>
    refine (pool_of_withPool pool hp').elim ?_ ?_
    · rintro ⟨rfl, rfl⟩
      exact ⟨p, [], _, pool, .stopped, by simp [startedOn], by simp⟩
    · rintro ⟨hne, hp⟩
      exact ⟨p', [], p.queue.map _, hp, .kept _ (aside hne), by simp [startedOn], rfl⟩

/-! ## Progress -/

end Executor

end Relay
