import Mathlib.Data.List.Induction
import Relay.Proofs.PoolSteps

/-!
# Runs of worker pools

What holds of worker pools after any list of actions that is possible from their start. The numbers of the jobs of a
pool stand in one line: those that its workers took, then its queue, then those that wait for room. Every step keeps
the line or shortens it, or adds the number of a new submission at its end; so the line is always increasing, and
workers take jobs in the order in which they were submitted.
-/

namespace Relay

/-- A pool has the sizes of its lane, and neither its queue nor its workers hold more than they can. -/
structure Pool.Sized (p : Pool) (s : ExecutorSettings) (lane : Lane) : Prop where
  workers : p.workers = s.workersOf lane
  capacity : p.capacity = s.roomOf lane
  room : p.queue.length ≤ p.capacity
  busy : p.running.length ≤ p.workers

/-- A single worker that can take a job is idle. -/
theorem Pool.Sized.idle {p : Pool} {s : ExecutorSettings} {i : Nat} (h : p.Sized s (.isolated i))
    (free : p.running.length < p.workers) : p.running = [] := by
  rw [h.workers] at free
  exact List.eq_nil_of_length_eq_zero (Nat.lt_one_iff.1 free)

/-- None of the pools of settings is larger than can be made. -/
structure ExecutorSettings.Within (s : ExecutorSettings) (limits : Executor.Limits) : Prop where
  queue : max s.queue 1 ≤ limits.queue
  isolatedQueue : max s.isolatedQueue 1 ≤ limits.queue
  workers : s.workers ≤ limits.workers
  isolated : s.isolated ≤ limits.pools

namespace Executor

variable {e₀ e e' : Executor} {a : Action} {actions before after : List Action} {limits : Limits}
  {s : ExecutorSettings} {lane : Lane} {p p' : Pool} {taken : List Nat}
  {answers : List (Nat × Except ProcessError Outcome)}

/-! ## Lists of actions -/

/-- The records that actions submit, in order. The number of a submission is its place. -/
def submissions (actions : List Action) : List Routed := actions.filterMap Action.record?

def Action.isCancelAll : Action → Bool
  | .cancelAll => true
  | _ => false

theorem submissions_append (actions more : List Action) :
    submissions (actions ++ more) = submissions actions ++ submissions more :=
  List.filterMap_append

theorem submissions_cons (a : Action) (actions : List Action) :
    submissions (a :: actions) = a.record?.toList ++ submissions actions := by
  cases h : a.record? <;> simp [submissions, h]

theorem submissions_concat (actions : List Action) (a : Action) :
    submissions (actions ++ [a]) = submissions actions ++ a.record?.toList := by
  rw [submissions_append, submissions_cons]
  exact congrArg _ (List.append_nil _)

theorem run_append (e : Executor) (actions more : List Action) :
    e.run (actions ++ more) = (e.run actions).bind (·.run more) :=
  List.foldlM_append

/-- What a run has at its start, and every step keeps, it has at its end. -/
theorem run_induction {P : List Action → Executor → Prop} (start : P [] e₀)
    (step : ∀ {actions e a e'}, e₀.run actions = some e → P actions e → e.Step a e' → P (actions ++ [a]) e') :
    ∀ {actions e}, e₀.run actions = some e → P actions e := by
  intro actions
  induction actions using List.reverseRecOn with
  | nil =>
    intro e h
    obtain rfl := Option.some.inj h
    exact start
  | append_singleton actions a ih =>
    intro e h
    rw [run_append, Option.bind_eq_some_iff] at h
    obtain ⟨e₁, h₁, h⟩ := h
    have hact : e₁.act a = some e := by simpa [run] using h
    exact step h₁ (ih h₁) (step_of_act hact)

/-! ## What is remembered of the actions -/

/-- What an executor knows of the actions so far. -/
structure Recalls (e : Executor) (s : ExecutorSettings) (actions : List Action) : Prop where
  settings : e.settings = s
  submitted : e.nextId = (submissions actions).length
  generation : e.generation = actions.countP (·.isCancelAll)
  canceled : ∀ id, id ∈ e.canceled ↔ .cancel id ∈ actions
  closed : e.closed = true ↔ .close ∈ actions

theorem Recalls.step (h : e.Recalls s actions) (hstep : e.Step a e') : e'.Recalls s (actions ++ [a]) := by
  obtain ⟨hsettings, hsubmitted, hgeneration, hcanceled, hclosed⟩ := h
  constructor
  · cases hstep <;> simp [hsettings]
  · rw [submissions_concat]
    cases hstep <;> simp [hsubmitted, Action.record?]
  · cases hstep <;> simp [hgeneration, Action.isCancelAll]
  · cases hstep <;> simp [hcanceled, or_comm]
  · cases hstep <;> simp [← hclosed]

theorem Step.pool (h : e.Step a e') (hp : e.pool? lane = some p) : ∃ p', e'.pool? lane = some p' := by
  have replaced : ∀ {lane₀ : Lane} {p₀ : Pool} (p₁ : Pool), e.pool? lane₀ = some p₀ →
      ∃ p', (e.withPool p₁ lane₀).pool? lane = some p' := by
    intro lane₀ p₀ p₁ hp₀
    rw [pool?_withPool hp₀]
    by_cases heq : lane = lane₀
    · exact ⟨p₁, if_pos heq⟩
    · exact ⟨p, by rw [if_neg heq, hp]⟩
  cases h with
  | refused => exact ⟨p, hp⟩
  | canceled => exact ⟨p, hp⟩
  | allCanceled => exact ⟨p, hp⟩
  | closed => exact ⟨p, hp⟩
  | queued _ pool => exact replaced _ pool
  | blocked _ pool => exact replaced _ pool
  | entered pool => exact replaced _ pool
  | skipped pool => exact replaced _ pool
  | started pool => exact replaced _ pool
  | ended pool => exact replaced _ pool
  | aborted pool => exact replaced _ pool
  | withdrawn id =>
    cases lane with
    | shared => exact ⟨_, rfl⟩
    | isolated i =>
      have hp : e.isolated[i]? = some p := hp
      exact ⟨p.withdraw id, by simp [pool?, hp]⟩

theorem mem_startedOn {id : Nat} : id ∈ e.startedOn lane ↔ (lane, id) ∈ e.started := by
  simp [startedOn]

/-! ## Sizes -/

theorem Touch.sized (h : e.Touch lane p a p' taken answers) (hp : p.Sized s lane) : p'.Sized s lane := by
  obtain ⟨hworkers, hcapacity, hroom, hbusy⟩ := hp
  have hfree : p.hasRoom = true → p.queue.length + 1 ≤ p.capacity := of_decide_eq_true
  constructor
  · cases h <;> exact hworkers
  · cases h <;> exact hcapacity
  · cases h with
    | queued own opened room first => simpa using hfree room
    | entered waiting room live => simpa using hfree room
    | skipped queue free live =>
      rw [queue, List.length_cons] at hroom
      exact Nat.le_of_succ_le hroom
    | started queue free live =>
      rw [queue, List.length_cons] at hroom
      exact Nat.le_of_succ_le hroom
    | stopped => exact Nat.zero_le _
    | _ => exact hroom
  · cases h with
    | started queue free live =>
      rw [List.length_append, List.length_singleton]
      exact free
    | ended running result => exact Nat.le_trans (List.length_filter_le _ _) hbusy
    | _ => exact hbusy

/-! ## The line of a pool -/

/-- The numbers of jobs in the order in which they come to the workers of a pool. -/
def line (e : Executor) (lane : Lane) (p : Pool) : List Nat :=
  e.startedOn lane ++ (p.queue ++ p.waiting).map (·.id)

/-- What a step adds to a line is the number of a new submission, at its end. -/
theorem Touch.line_sublist (h : e.Touch lane p a p' taken answers)
    (hs : e'.startedOn lane = e.startedOn lane ++ taken) :
    (e'.line lane p').Sublist (e.line lane p ++ a.record?.toList.map fun _ => e.nextId) := by
  simp only [line, hs, List.map_append, List.append_assoc]
  refine List.Sublist.append_left ?_ _
  cases h with
  | kept => simp
  | queued own opened room first => simp [first, task, Action.record?]
  | blocked own opened => simp [task, Action.record?]
  | entered waiting room live => simp [waiting]
  | withdrawn id =>
    have hsub : ((p.withdraw id).waiting.map (·.id)).Sublist (p.waiting.map (·.id)) :=
      List.filter_sublist.map _
    simpa [Action.record?, Pool.withdraw] using hsub
  | skipped queue free live => simp [queue]
  | started queue free live => simp [queue]
  | ended running result => simp [Pool.release]
  | stopped => simp [Pool.stop]

/-- The line of a pool is increasing and consists of numbers that were given, and when the workers were stopped nothing
is left to take. -/
structure Lines (e : Executor) (lane : Lane) (p : Pool) : Prop where
  increasing : (e.line lane p).Pairwise (· < ·)
  known : ∀ id ∈ e.line lane p, id < e.nextId
  stopped : p.aborted = true → e.closed = true ∧ p.queue = [] ∧ p.waiting = []

theorem Step.nextId_eq (h : e.Step a e') : e'.nextId = e.nextId + a.record?.toList.length := by
  cases h <;> simp [Action.record?]

theorem Step.closed_of (h : e.Step a e') (hc : e.closed = true) : e'.closed = true := by
  cases h <;> simp [hc]

theorem Lines.step (hp : e.Lines lane p) (hstep : e.Step a e') (h : e.Touch lane p a p' taken answers)
    (hs : e'.startedOn lane = e.startedOn lane ++ taken) : e'.Lines lane p' := by
  have hsub := h.line_sublist hs
  -- a new number is greater than all that were given
  have hadded : ∀ id ∈ a.record?.toList.map (fun _ => e.nextId), id = e.nextId ∧ e'.nextId = e.nextId + 1 := by
    intro id hid
    rw [hstep.nextId_eq]
    cases hr : a.record? with
    | none => simp [hr] at hid
    | some r => simpa [hr] using hid
  refine ⟨List.Pairwise.sublist hsub ?_, fun id hid => ?_, ?_⟩
  · rw [List.pairwise_append]
    refine ⟨hp.increasing, ?_, fun i hi j hj => ?_⟩
    · cases a.record? <;> simp
    · rw [(hadded j hj).1]
      exact hp.known i hi
  · rcases List.mem_append.1 (hsub.subset hid) with hid | hid
    · have hlt := hp.known id hid
      have hle : e.nextId ≤ e'.nextId := by rw [hstep.nextId_eq]; exact Nat.le_add_right _ _
      exact Nat.lt_of_lt_of_le hlt hle
    · obtain ⟨rfl, hnext⟩ := hadded id hid
      rw [hnext]
      exact Nat.lt_succ_self _
  · intro haborted
    have hkept : p.aborted = true → e'.closed = true ∧ p.queue = [] ∧ p.waiting = [] := fun hold =>
      ⟨hstep.closed_of (hp.stopped hold).1, (hp.stopped hold).2⟩
    cases h with
    | kept => exact hkept haborted
    | ended running result => exact hkept haborted
    | queued own opened room first => simp [(hp.stopped haborted).1] at opened
    | blocked own opened => simp [(hp.stopped haborted).1] at opened
    | entered waiting room live => simp_all
    | skipped queue free live => simp_all
    | started queue free live => simp_all
    | withdrawn id =>
      obtain ⟨hclosed, hqueue, hwaiting⟩ := hkept haborted
      exact ⟨hclosed, hqueue, by simp [Pool.withdraw, hwaiting]⟩
    | stopped =>
      cases hstep with
      | aborted pool closed => exact ⟨by simp [closed], rfl, rfl⟩

/-! ## Running jobs -/

/-- The jobs that workers run were taken, those that were taken and do not run have results, and a single worker runs
the one that was taken last. -/
structure Attends (e : Executor) (lane : Lane) (p : Pool) : Prop where
  taken : ∀ t ∈ p.running, t.id ∈ e.startedOn lane
  resolved : ∀ id ∈ e.startedOn lane, id ∈ p.running.map (·.id) ∨ ∃ result, (id, result) ∈ e.results
  last : ∀ i, lane = .isolated i → ∀ t ∈ p.running, ∀ id ∈ e.startedOn lane, id ≤ t.id

/-- The jobs of a queue come after those that were taken. -/
theorem Lines.lt_of_queue {t : Task} (hp : e.Lines lane p) (ht : t ∈ p.queue) : ∀ id ∈ e.startedOn lane, id < t.id := by
  have h := hp.increasing
  rw [line, List.pairwise_append] at h
  exact fun id hid => h.2.2 id hid t.id (List.mem_map_of_mem (List.mem_append_left _ ht))

theorem Attends.step (hp : e.Attends lane p) (hsized : p.Sized s lane) (hline : e.Lines lane p)
    (h : e.Touch lane p a p' taken answers) (hs : e'.startedOn lane = e.startedOn lane ++ taken)
    (hr : e'.results = answers ++ e.results) : e'.Attends lane p' := by
  have hresolved : ∀ {id}, (∃ result, (id, result) ∈ e.results) → ∃ result, (id, result) ∈ e'.results :=
    fun ⟨result, hm⟩ => ⟨result, by rw [hr]; exact List.mem_append_right _ hm⟩
  -- most steps neither take a job nor end one
  have hrest : taken = [] → p'.running = p.running → e'.Attends lane p' := by
    rintro rfl hsame
    rw [List.append_nil] at hs
    refine ⟨?_, fun id hid => ?_, ?_⟩
    · rw [hs, hsame]
      exact hp.taken
    · rw [hsame]
      exact (hp.resolved id (hs ▸ hid)).imp_right hresolved
    · rw [hs, hsame]
      exact hp.last
  cases h with
  | @started t rest queue free live =>
    refine ⟨fun t' ht' => ?_, fun id hid => ?_, fun i hlane t' ht' id hid => ?_⟩
    · rw [hs]
      rcases List.mem_append.1 ht' with ht' | ht'
      · exact List.mem_append_left _ (hp.taken t' ht')
      · exact List.mem_append_right _ (by simpa using congrArg Task.id (List.mem_singleton.1 ht'))
    · rw [hs] at hid
      rcases List.mem_append.1 hid with hid | hid
      · exact (hp.resolved id hid).imp (by simp +contextual) hresolved
      · exact .inl (by simp [List.mem_singleton.1 hid])
    · subst hlane
      obtain rfl : t' = t := by simpa [hsized.idle free] using ht'
      rw [hs] at hid
      rcases List.mem_append.1 hid with hid | hid
      · exact Nat.le_of_lt (hline.lt_of_queue (queue ▸ List.mem_cons_self) id hid)
      · exact Nat.le_of_eq (List.mem_singleton.1 hid)
  | @skipped t rest queue free live =>
    refine ⟨fun t' ht' => ?_, fun id hid => ?_, fun i hlane t' ht' => ?_⟩
    · rw [hs]
      exact List.mem_append_left _ (hp.taken t' ht')
    · rw [hs] at hid
      rcases List.mem_append.1 hid with hid | hid
      · exact (hp.resolved id hid).imp_right hresolved
      · obtain rfl := List.mem_singleton.1 hid
        exact .inr ⟨.error .canceled, by simp [hr]⟩
    · subst hlane
      simp [hsized.idle free] at ht'
  | @ended id running result =>
    rw [List.append_nil] at hs
    have hkept : ∀ t ∈ (p.release id).running, t ∈ p.running := fun t ht => (List.mem_filter.1 ht).1
    refine ⟨fun t ht => ?_, fun id' hid => ?_, fun i hlane t ht => ?_⟩
    · rw [hs]
      exact hp.taken t (hkept t ht)
    · by_cases heq : id' = id
      · exact .inr ⟨_, by rw [hr, heq]; exact List.mem_cons_self⟩
      · refine (hp.resolved id' (hs ▸ hid)).imp (fun hrun => ?_) hresolved
        obtain ⟨t, ht, rfl⟩ := List.mem_map.1 hrun
        exact List.mem_map_of_mem (List.mem_filter.2 ⟨ht, by simpa using heq⟩)
    · rw [hs]
      exact hp.last i hlane t (hkept t ht)
  | kept => exact hrest rfl rfl
  | queued => exact hrest rfl rfl
  | blocked => exact hrest rfl rfl
  | entered => exact hrest rfl rfl
  | withdrawn => exact hrest rfl rfl
  | stopped => exact hrest rfl rfl

/-! ## Jobs and their submissions -/

/-- A job as it was submitted in the course of some actions. -/
def Submits (actions : List Action) (t : Task) : Prop :=
  ∃ before after, actions = before ++ .submit t.routed :: after ∧ t.id = (submissions before).length ∧
    t.generation = before.countP (·.isCancelAll)

theorem Submits.append {t : Task} (h : Submits actions t) (more : List Action) : Submits (actions ++ more) t := by
  obtain ⟨before, after, rfl, hid, hgeneration⟩ := h
  exact ⟨before, after ++ more, by simp, hid, hgeneration⟩

/-- No step brings a job to a pool but a submission to it. -/
theorem Touch.jobs (h : e.Touch lane p a p' taken answers) {t : Task}
    (ht : t ∈ p'.running ++ (p'.queue ++ p'.waiting)) :
    t ∈ p.running ++ (p.queue ++ p.waiting) ∨ ∃ r, a = .submit r ∧ e.settings.lane r = lane ∧ t = e.task r := by
  cases h with
  | kept => exact .inl ht
  | @queued r own => grind
  | @blocked r own => grind
  | entered waiting => grind
  | withdrawn id => grind [Pool.withdraw]
  | skipped queue => grind
  | started queue => grind
  | ended => grind [Pool.release]
  | stopped => grind [Pool.stop]

/-- The jobs of a pool were submitted, each to this pool. -/
def Owns (s : ExecutorSettings) (actions : List Action) (lane : Lane) (p : Pool) : Prop :=
  ∀ t ∈ p.running ++ (p.queue ++ p.waiting), Submits actions t ∧ s.lane t.routed = lane

theorem Owns.step (hp : Owns s actions lane p) (hrecalls : e.Recalls s actions)
    (h : e.Touch lane p a p' taken answers) : Owns s (actions ++ [a]) lane p' := by
  intro t ht
  rcases h.jobs ht with hold | ⟨r, rfl, hlane, rfl⟩
  · exact ⟨(hp t hold).1.append _, (hp t hold).2⟩
  · exact ⟨⟨actions, [], rfl, hrecalls.submitted, hrecalls.generation⟩, by rw [← hrecalls.settings]; exact hlane⟩

/-! ## The start -/

theorem check_eq_ok_iff : s.check = .ok () ↔ 0 < s.workers ∧ 0 < s.isolated := by
  unfold ExecutorSettings.check
  split
  · next hnone => simp [hnone]
  · next hworkers =>
    split
    · next hnone => simp [hnone]
    · next hisolated => exact iff_of_true rfl ⟨Nat.pos_of_ne_zero hworkers, Nat.pos_of_ne_zero hisolated⟩

theorem make_of_le {workers queue : Nat} (hqueue : max queue 1 ≤ limits.queue) (hworkers : workers ≤ limits.workers) :
    Pool.make limits lane workers queue = .ok (.start lane workers queue) :=
  if_neg (by omega)

theorem make_of_lt {workers queue : Nat} (h : limits.queue < max queue 1 ∨ limits.workers < workers) :
    Pool.make limits lane workers queue = .error .panicked :=
  if_pos h

theorem makeIsolated_of_le {count queue : Nat} (hcount : count ≤ limits.pools) (hqueue : max queue 1 ≤ limits.queue)
    (hone : 1 ≤ limits.workers) :
    Pool.makeIsolated limits count queue = .ok ((List.range count).map fun i => .start (.isolated i) 1 queue) := by
  rw [Pool.makeIsolated, if_neg (Nat.not_lt.2 hcount)]
  simp only [make_of_le hqueue hone]
  exact List.mapM_pure

theorem makeIsolated_of_lt {count queue : Nat} (hsome : 0 < count)
    (h : limits.pools < count ∨ limits.queue < max queue 1) :
    Pool.makeIsolated limits count queue = .error .panicked := by
  unfold Pool.makeIsolated
  split
  · rfl
  · next hcount =>
    -- the first pool already has too long a queue
    obtain ⟨n, rfl⟩ := Nat.exists_eq_succ_of_ne_zero (Nat.ne_of_gt hsome)
    rw [List.range_succ_eq_map, List.mapM_cons, make_of_lt (.inl (h.resolve_left hcount))]
    rfl

theorem start_of_within (hcheck : s.check = .ok ()) (h : s.Within limits) : start limits s = .ok (ofSettings s) := by
  have hone : 1 ≤ limits.workers := Nat.le_trans (check_eq_ok_iff.1 hcheck).1 h.workers
  rw [start, hcheck, make_of_le h.queue h.workers, makeIsolated_of_le h.isolated h.isolatedQueue hone]
  rfl

theorem start_of_not_within (hcheck : s.check = .ok ()) (h : ¬s.Within limits) :
    start limits s = .error .panicked := by
  rw [start, hcheck]
  by_cases hshared : limits.queue < max s.queue 1 ∨ limits.workers < s.workers
  · rw [make_of_lt hshared]
    rfl
  · have hisolated : limits.pools < s.isolated ∨ limits.queue < max s.isolatedQueue 1 := by
      by_contra hsmall
      exact h ⟨by omega, by omega, by omega, by omega⟩
    rw [make_of_le (by omega) (by omega), makeIsolated_of_lt (check_eq_ok_iff.1 hcheck).2 hisolated]
    rfl

/-- Executors start without jobs, with the pools of their settings, each of which has a worker. -/
theorem eq_of_start (h : start limits s = .ok e₀) : 0 < s.workers ∧ 0 < s.isolated ∧ e₀ = ofSettings s := by
  have hcheck : s.check = .ok () := by
    cases hcheck : s.check with
    | ok => rfl
    | error cause =>
      rw [start, hcheck] at h
      simp [Except.mapError, bind, Except.bind] at h
  obtain ⟨hworkers, hisolated⟩ := check_eq_ok_iff.1 hcheck
  refine ⟨hworkers, hisolated, ?_⟩
  by_cases hwithin : s.Within limits
  · rw [start_of_within hcheck hwithin] at h
    exact (Except.ok.inj h).symm
  · rw [start_of_not_within hcheck hwithin] at h
    simp at h

theorem pool_of_start (h : start limits s = .ok e₀) (hp : e₀.pool? lane = some p) :
    p = ⟨lane, s.workersOf lane, s.roomOf lane, [], [], [], false⟩ := by
  obtain ⟨-, -, rfl⟩ := eq_of_start h
  cases lane with
  | shared => exact (Option.some.inj hp).symm
  | isolated i =>
    have hp : ((List.range s.isolated).map fun i => Pool.start (.isolated i) 1 s.isolatedQueue)[i]? = some p := hp
    obtain ⟨hlt, rfl⟩ := List.getElem?_eq_some_iff.1 hp
    simp [Pool.start, ExecutorSettings.workersOf, ExecutorSettings.roomOf]

theorem pool_lane (h : start limits s = .ok e₀) (r : Routed) : ∃ p, e₀.pool? (s.lane r) = some p := by
  obtain ⟨-, hisolated, rfl⟩ := eq_of_start h
  unfold ExecutorSettings.lane
  split
  · have hlt : s.index r.record.keyBytes < s.isolated := Nat.mod_lt _ hisolated
    exact ⟨_, by simp [pool?, ofSettings, hlt]; rfl⟩
  · exact ⟨_, rfl⟩

/-! ## What holds after every run -/

/-- What holds of an executor after some actions. -/
structure Orderly (s : ExecutorSettings) (actions : List Action) (e : Executor) : Prop where
  recalls : e.Recalls s actions
  sized : ∀ {lane p}, e.pool? lane = some p → p.Sized s lane
  lines : ∀ {lane p}, e.pool? lane = some p → e.Lines lane p
  attends : ∀ {lane p}, e.pool? lane = some p → e.Attends lane p
  owns : ∀ {lane p}, e.pool? lane = some p → Owns s actions lane p

theorem Orderly.start (h : Executor.start limits s = .ok e₀) : Orderly s [] e₀ := by
  obtain ⟨-, -, heq⟩ := eq_of_start h
  constructor
  · constructor <;> simp [heq, ofSettings, submissions]
  · intro lane p hp
    obtain rfl := pool_of_start h hp
    constructor <;> simp
  · intro lane p hp
    obtain rfl := pool_of_start h hp
    constructor <;> simp [line, startedOn, heq, ofSettings]
  · intro lane p hp
    obtain rfl := pool_of_start h hp
    constructor <;> simp [startedOn, heq, ofSettings]
  · intro lane p hp
    obtain rfl := pool_of_start h hp
    simp [Owns]

theorem Orderly.step (h : Orderly s actions e) (hstep : e.Step a e') : Orderly s (actions ++ [a]) e' := by
  constructor
  · exact h.recalls.step hstep
  · intro lane p' hp'
    obtain ⟨p, taken, answers, hp, htouch, -, -⟩ := hstep.touch hp'
    exact htouch.sized (h.sized hp)
  · intro lane p' hp'
    obtain ⟨p, taken, answers, hp, htouch, hs, -⟩ := hstep.touch hp'
    exact (h.lines hp).step hstep htouch hs
  · intro lane p' hp'
    obtain ⟨p, taken, answers, hp, htouch, hs, hr⟩ := hstep.touch hp'
    exact (h.attends hp).step (h.sized hp) (h.lines hp) htouch hs hr
  · intro lane p' hp'
    obtain ⟨p, taken, answers, hp, htouch, -, -⟩ := hstep.touch hp'
    exact (h.owns hp).step h.recalls htouch

theorem orderly_of_run (hstart : Executor.start limits s = .ok e₀) (hrun : e₀.run actions = some e) : Orderly s actions e :=
  run_induction (.start hstart) (fun _ ih hstep => ih.step hstep) hrun

theorem exists_pool (hstart : Executor.start limits s = .ok e₀) (hrun : e₀.run actions = some e) (r : Routed) :
    ∃ p, e.pool? (s.lane r) = some p := by
  refine run_induction (P := fun _ e => ∃ p, e.pool? (s.lane r) = some p) (pool_lane hstart r) ?_ hrun
  rintro _ _ _ _ - ⟨p, hp⟩ hstep
  exact hstep.pool hp

end Executor

end Relay
