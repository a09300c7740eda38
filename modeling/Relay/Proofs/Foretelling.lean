import Mathlib.Tactic.Abel
import Relay.Proofs.Script

/-!
# The two stages under a script

For each stage, what the attempts in flight will leave behind is foretold by the script, and every step of
the stage moves marks from what is foretold to what is done.
-/

namespace Relay

/-! ## Filtering and mapping -/

namespace Script

variable (script : Script) (b : Budget)

/-- How a job of a record goes. -/
def filtering (slot : Nat) (r : Routed) (times : UInt32) : Attempted :=
  match script.process slot times with
  | .ok outcome =>
    .done (if outcome.passed then {.mapped ⟨slot, r, outcome.carried.value⟩}
      else {.status r.coordinates .settled, .filtered})
  | .error e => .failed e.isGiveUp 0

/-- The marks that filtering and mapping will leave behind of an attempt in flight. -/
def filterMarks (t : Task Routed Job) : Multiset Mark :=
  match t.phase with
  | .failed giveUp =>
    b.failing t.item.coordinates (script.filtering t.slot t.item) t.attempt.times giveUp
  | _ => b.foretell t.item.coordinates (script.filtering t.slot t.item) t.attempt.times

end Script

section Filtering

variable {σ : Type} {w : World σ} {d : Dispatcher} {script : Script} {b : Budget} {s : Session σ}
  {total : Tally} {c c' : Course σ} {t : Task Routed Job} {ts ts' : List (Task Routed Job)}

/-- What is done and what the script foretells of the jobs add up. -/
structure FilterForetold (script : Script) (b : Budget) (s : Session σ) (total : Tally)
    (ts : List (Task Routed Job)) (c : Course σ) : Prop where
  /-- The marks add up. -/
  foretold : Foretold s (script.Allows b.policy.window) total (ts.map (script.filterMarks b)).sum c
  /-- A job in flight is that of its record and attempt. -/
  jobs : ∀ t ∈ ts, ∀ job, t.phase = .flying job → job = ⟨t.slot, t.attempt.times, t.item⟩

/-- A job that ended well leaves its marks. -/
theorem FilterForetold.landed {job : Job} (h : FilterForetold script b s total (t :: ts) c)
    (hp : t.phase = .flying job) (hl : Dispatcher.harvest w t.item job c = (.done, c')) :
    FilterForetold script b s total ts c' := by
  obtain ⟨hf, hjobs⟩ := h
  obtain ⟨hjob, hjobs⟩ := List.forall_mem_cons.1 hjobs
  obtain rfl := hjob job hp
  obtain ⟨outcome, c₁, htell, rfl⟩ := Dispatcher.harvest_done hl
  let marks : Multiset Mark :=
    if outcome.passed then {.mapped ⟨t.slot, t.item, outcome.carried.value⟩}
    else {.status t.item.coordinates .settled, .filtered}
  have hmarks := hf.take marks htell fun hallowed => by
    have hscript : script.process t.slot t.attempt.times = .ok outcome := hallowed
    simp only [Script.filterMarks, hp, Budget.foretell_eq, Script.filtering, hscript]
    exact (zero_add _).symm
  refine ⟨hmarks.leave ?_ ?_, hjobs⟩
  · split <;> rfl
  · simp only [marks]
    split <;> rfl

/-- When an attempt began has no part in what is foretold. -/
theorem FilterForetold.began (h : FilterForetold script b s total (t :: ts) c) (began : Nat) :
    FilterForetold script b s total ({ t with attempt := { t.attempt with began } } :: ts) c := by
  obtain ⟨hjob, hjobs⟩ := List.forall_mem_cons.1 h.jobs
  exact ⟨⟨h.foretold.history, h.foretold.total⟩, List.forall_mem_cons.2 ⟨hjob, hjobs⟩⟩

theorem FilterForetold.keeps (w : World σ) (d : Dispatcher) (script : Script) (b : Budget) (s : Session σ)
    (total : Tally) :
    (Dispatcher.filterMap w d).Keeps b (FilterForetold script b s total)
      (fun _ => Deviates s (script.Allows b.policy.window)) where
  perm hp h :=
    ⟨(hp.map (script.filterMarks b)).sum_eq ▸ h.foretold, fun t ht => h.jobs t (hp.mem_iff.2 ht)⟩
  quiet ht h := ⟨h.foretold.quiet ht, h.jobs⟩
  launched := by
    intro t wake ts c job c' hp h hl
    obtain ⟨rfl, htell⟩ := Dispatcher.submit_flying hl
    obtain ⟨-, hjobs⟩ := List.forall_mem_cons.1 h.jobs
    refine ⟨h.foretold.exchange htell fun _ => ?_, List.forall_mem_cons.2 ⟨by rintro _ ⟨⟩; rfl, hjobs⟩⟩
    simp only [Script.filterMarks, hp]
    exact (zero_add _).symm
  unlaunched _ _ hl := absurd hl Dispatcher.submit_ne_failed
  barred _ h hl := h.foretold.deviates (Dispatcher.submit_stopped hl).2 (by simp [Script.Allows])
  landed hp h hl := h.landed hp hl
  crashed := by
    intro t job ts c giveUp c' hp h hl
    obtain ⟨hjob, hjobs⟩ := List.forall_mem_cons.1 h.jobs
    obtain rfl := hjob job hp
    obtain ⟨e, rfl, htell⟩ := Dispatcher.harvest_failed hl
    refine ⟨h.foretold.exchange htell fun hallowed => ?_, List.forall_mem_cons.2 ⟨by simp, hjobs⟩⟩
    have hscript : script.process t.slot t.attempt.times = .error e := hallowed
    simp only [Script.filterMarks, hp]
    rw [Budget.foretell_eq]
    simp only [Script.filtering, hscript]
    rfl
  broken _ _ hl := absurd hl Dispatcher.harvest_ne_stopped
  retried := by
    intro t giveUp ts c attempt backoff c' wake hp h hd htell
    obtain ⟨-, hjobs⟩ := List.forall_mem_cons.1 h.jobs
    refine ⟨h.foretold.exchange htell fun _ => ?_, List.forall_mem_cons.2 ⟨by simp, hjobs⟩⟩
    simp only [Script.filterMarks, hp, Budget.failing_of_retry hd]
    exact (zero_add _).symm
  abandoned := by
    intro t giveUp ts c reason c' hp h hd htell
    obtain ⟨-, hjobs⟩ := List.forall_mem_cons.1 h.jobs
    have hlost := h.foretold.take (lost t.item.coordinates) htell fun hallowed => by
      simp only [Script.filterMarks, hp, Budget.failing_of_abandon hd hallowed]
      exact (zero_add _).symm
    exact ⟨hlost.leave rfl rfl, hjobs⟩

end Filtering

/-! ## Publishing -/

/-- The message that a payload is published as. -/
def Dispatcher.messageOf (d : Dispatcher) (m : Mapped) : Outbound :=
  m.routed.message d.publisher.lead d.publisher.pipeline m.value

namespace Script

variable (script : Script) (d : Dispatcher) (b : Budget)

/-- How an attempt to publish a record goes whose delivery is awaited. -/
def publishing (slot : Nat) (m : Mapped) (times : UInt32) : Attempted :=
  match script.publish slot times with
  | .unsent e => .failed e.isGiveUp 0
  | .refused e => .failed e.isGiveUp {.handed (d.messageOf m) false}
  | .reported (.ok ()) =>
    .done {.handed (d.messageOf m) true, .reported (d.messageOf m) true,
      .status m.routed.coordinates .settled, .published}
  | .reported (.error e) =>
    .failed e.isGiveUp {.handed (d.messageOf m) true, .reported (d.messageOf m) false}

/-- The marks of a record that is published, once an attempt is foretold. -/
def foretellPublish (slot : Nat) (m : Mapped) (times : UInt32) : Multiset Mark :=
  b.foretell m.routed.coordinates (script.publishing d slot m) times

/-- The marks of a record that is published, once an attempt has failed. -/
def failingPublish (slot : Nat) (m : Mapped) (times : UInt32) (giveUp : Bool) : Multiset Mark :=
  b.failing m.routed.coordinates (script.publishing d slot m) times giveUp

/-- The marks of a record whose message was accepted. -/
def awaiting (slot : Nat) (m : Mapped) (times : UInt32) : Multiset Mark :=
  match script.publish slot times with
  | .reported (.ok ()) =>
    {.reported (d.messageOf m) true} + {.status m.routed.coordinates .settled, .published}
  | .reported (.error e) =>
    {.reported (d.messageOf m) false} + script.failingPublish d b slot m times e.isGiveUp
  | _ => 0

/-- The marks that publishing will leave behind of an attempt in flight. -/
def publishMarks (t : Task Mapped Shipment) : Multiset Mark :=
  match t.phase with
  | .resting _ => script.foretellPublish d b t.slot t.item t.attempt.times
  | .flying _ => script.awaiting d b t.slot t.item t.attempt.times
  | .failed giveUp => script.failingPublish d b t.slot t.item t.attempt.times giveUp

/-- The marks of a record whose first attempt to be published is still to come. Where deliveries are not
awaited, an accepted message is as good as published. -/
def firstPublish (x : Mapped × Nat) : Multiset Mark :=
  if d.level.awaitsDelivery then script.foretellPublish d b x.2 x.1 0
  else
    match script.publish x.2 0 with
    | .unsent e => script.failingPublish d b x.2 x.1 0 e.isGiveUp
    | .refused e =>
      {.handed (d.messageOf x.1) false} + script.failingPublish d b x.2 x.1 0 e.isGiveUp
    | .reported _ =>
      {.handed (d.messageOf x.1) true} + {.status x.1.routed.coordinates .settled, .published}

end Script

section Publishing

variable {σ : Type} {w : World σ} {d : Dispatcher} {registry : Registry} {script : Script} {b : Budget}
  {s : Session σ} {total : Tally} {c c' : Course σ} {t : Task Mapped Shipment}
  {ts ts' : List (Task Mapped Shipment)} {slot : Nat} {m : Mapped} {a : Attempt}

/-- An accepted message leaves its mark, and its delivery is awaited. -/
theorem foretellPublish_of_sent {x : Shipment} (hx : d.publisher.Carries slot a.times m.routed m.value x)
    (h : script.Allows b.policy.window (.sent x (.ok ()))) :
    script.foretellPublish d b slot m a.times =
      (Event.sent x (.ok ())).marks + script.awaiting d b slot m a.times := by
  obtain ⟨result, hresult⟩ := h
  rw [hx.slot, hx.times] at hresult
  have hmessage : x.message = d.messageOf m := hx.message
  rw [Script.foretellPublish, Budget.foretell_eq]
  simp only [Script.publishing, Script.awaiting, hresult, Event.marks, hmessage]
  cases result with
  | ok u => rfl
  | error e =>
    exact add_assoc {Mark.handed (d.messageOf m) true} {Mark.reported (d.messageOf m) false} _

/-- A message that was not accepted leaves its mark, and its attempt has failed. -/
theorem foretellPublish_of_unsent {e : PublishError} {news : Event} (hn : d.Unsent slot m a e news)
    (h : script.Allows b.policy.window news) :
    script.foretellPublish d b slot m a.times =
      news.marks + script.failingPublish d b slot m a.times e.isGiveUp := by
  rw [Script.foretellPublish, Budget.foretell_eq]
  rcases hn with rfl | ⟨x, hx, rfl⟩
  · obtain ⟨hscript, -⟩ := h
    simp only [Script.publishing, hscript]
    rfl
  · obtain ⟨hscript, -⟩ := h
    rw [hx.slot, hx.times] at hscript
    have hmessage : x.message = d.messageOf m := hx.message
    simp only [Script.publishing, hscript, Event.marks, hmessage]
    rfl

/-- What is done and what the script foretells of the messages add up. -/
structure PublishForetold (d : Dispatcher) (script : Script) (b : Budget) (s : Session σ) (total : Tally)
    (ts : List (Task Mapped Shipment)) (c : Course σ) : Prop where
  /-- The marks add up. -/
  foretold : Foretold s (script.Allows b.policy.window) total (ts.map (script.publishMarks d b)).sum c
  /-- A message in flight is that of its record and attempt. -/
  messages : ∀ t ∈ ts, ∀ x, t.phase = .flying x →
    d.publisher.Carries t.slot t.attempt.times t.item.routed t.item.value x

/-- A mistake in the configuration is not in the script. -/
theorem not_allows_of_unsent {cause : ConfigError} {news : Event}
    (hn : d.Unsent slot m a (.config cause) news) : ¬ script.Allows b.policy.window news := by
  rcases hn with rfl | ⟨x, -, rfl⟩
  · simp [Script.Allows, PublishError.isConfig]
  · simp [Script.Allows, PublishError.isConfig]

/-- A record whose delivery is reported leaves its marks. -/
theorem PublishForetold.landed {x : Shipment} (h : PublishForetold d script b s total (t :: ts) c)
    (hp : t.phase = .flying x) (hl : Dispatcher.confirm w t.item x c = (.done, c')) :
    PublishForetold d script b s total ts c' := by
  obtain ⟨hf, hmessages⟩ := h
  obtain ⟨hx, hmessages⟩ := List.forall_mem_cons.1 hmessages
  obtain hx := hx x hp
  obtain ⟨c₁, htell, rfl⟩ := Dispatcher.confirm_done hl
  have hmessage : x.message = d.messageOf t.item := hx.message
  have hmarks := hf.take {.status t.item.routed.coordinates .settled, .published} htell fun hallowed => by
    have hscript : script.publish x.slot x.times = .reported (.ok ()) := hallowed
    rw [hx.slot, hx.times] at hscript
    simp only [Script.publishMarks, hp, Script.awaiting, hscript, Event.marks, hmessage]
    rfl
  exact ⟨hmarks.leave rfl rfl, hmessages⟩

theorem PublishForetold.keeps (w : World σ) (d : Dispatcher) (registry : Registry) (script : Script)
    (b : Budget) (s : Session σ) (total : Tally) :
    (Dispatcher.publish w d registry).Keeps b (PublishForetold d script b s total)
      (fun _ => Deviates s (script.Allows b.policy.window)) where
  perm hp h :=
    ⟨(hp.map (script.publishMarks d b)).sum_eq ▸ h.foretold,
      fun t ht => h.messages t (hp.mem_iff.2 ht)⟩
  quiet ht h := ⟨h.foretold.quiet ht, h.messages⟩
  launched := by
    intro t wake ts c x c' hp h hl
    obtain ⟨hx, htell⟩ := Dispatcher.send_flying hl
    obtain ⟨-, hmessages⟩ := List.forall_mem_cons.1 h.messages
    refine ⟨h.foretold.exchange htell fun hallowed => ?_,
      List.forall_mem_cons.2 ⟨by rintro _ ⟨⟩; exact hx, hmessages⟩⟩
    simp only [Script.publishMarks, hp]
    exact foretellPublish_of_sent hx hallowed
  unlaunched := by
    intro t wake ts c giveUp c' hp h hl
    obtain ⟨e, news, -, rfl, hunsent, htell⟩ := Dispatcher.send_failed hl
    obtain ⟨-, hmessages⟩ := List.forall_mem_cons.1 h.messages
    refine ⟨h.foretold.exchange htell fun hallowed => ?_, List.forall_mem_cons.2 ⟨by simp, hmessages⟩⟩
    simp only [Script.publishMarks, hp]
    exact foretellPublish_of_unsent hunsent hallowed
  barred := by
    intro t wake ts c e c' hp h hl
    obtain ⟨cause, news, -, hunsent, htell⟩ := Dispatcher.send_stopped hl
    exact h.foretold.deviates htell (not_allows_of_unsent hunsent)
  landed hp h hl := h.landed hp hl
  crashed := by
    intro t x ts c giveUp c' hp h hl
    obtain ⟨hx, hmessages⟩ := List.forall_mem_cons.1 h.messages
    obtain hx := hx x hp
    obtain ⟨e, -, rfl, htell⟩ := Dispatcher.confirm_failed hl
    refine ⟨h.foretold.exchange htell fun hallowed => ?_, List.forall_mem_cons.2 ⟨by simp, hmessages⟩⟩
    have hmessage : x.message = d.messageOf t.item := hx.message
    obtain ⟨hscript, -⟩ := hallowed
    rw [hx.slot, hx.times] at hscript
    simp only [Script.publishMarks, hp, Script.awaiting, hscript, Event.marks, hmessage]
    rfl
  broken := by
    intro t x ts c e c' hp h hl
    obtain ⟨cause, -, htell⟩ := Dispatcher.confirm_stopped hl
    exact h.foretold.deviates htell (by simp [Script.Allows, PublishError.isConfig])
  retried := by
    intro t giveUp ts c attempt backoff c' wake hp h hd htell
    obtain ⟨-, hmessages⟩ := List.forall_mem_cons.1 h.messages
    refine ⟨h.foretold.exchange htell fun _ => ?_, List.forall_mem_cons.2 ⟨by simp, hmessages⟩⟩
    simp only [Script.publishMarks, hp, Script.failingPublish, Budget.failing_of_retry hd]
    exact (zero_add _).symm
  abandoned := by
    intro t giveUp ts c reason c' hp h hd htell
    obtain ⟨-, hmessages⟩ := List.forall_mem_cons.1 h.messages
    have hlost := h.foretold.take (lost t.item.routed.coordinates) htell fun hallowed => by
      simp only [Script.publishMarks, hp, Script.failingPublish, Budget.failing_of_abandon hd hallowed]
      exact (zero_add _).symm
    exact ⟨hlost.leave rfl rfl, hmessages⟩

/-- What is done, and what the script foretells of the messages in flight and of the records to come, add
up. -/
structure LaunchForetold (d : Dispatcher) (script : Script) (b : Budget) (s : Session σ) (total : Tally)
    (items : List (Mapped × Nat)) (ts : List (Task Mapped Shipment)) (c : Course σ) : Prop where
  /-- The marks add up. -/
  foretold : Foretold s (script.Allows b.policy.window) total
    ((items.map (script.firstPublish d b)).sum + (ts.map (script.publishMarks d b)).sum) c
  /-- A message in flight is that of its record and attempt. -/
  messages : ∀ t ∈ ts, ∀ x, t.phase = .flying x →
    d.publisher.Carries t.slot t.attempt.times t.item.routed t.item.value x

/-- The first message of a record was not accepted: it leaves its mark, and the attempt has failed. -/
theorem firstPublish_of_unsent {now : Nat} {e : PublishError} {news : Event}
    (hn : d.Unsent slot m (.first now) e news) (h : script.Allows b.policy.window news) :
    script.firstPublish d b (m, slot) = news.marks + script.failingPublish d b slot m 0 e.isGiveUp := by
  rw [Script.firstPublish]
  split
  · exact foretellPublish_of_unsent hn h
  · rcases hn with rfl | ⟨x, hx, rfl⟩
    · obtain ⟨hscript, -⟩ := h
      have hscript : script.publish slot 0 = .unsent e := hscript
      simp only [hscript]
      exact (zero_add _).symm
    · obtain ⟨hscript, -⟩ := h
      rw [hx.slot, hx.times] at hscript
      have hscript : script.publish slot 0 = .refused e := hscript
      have hmessage : x.message = d.messageOf m := hx.message
      simp only [hscript, Event.marks, hmessage]
      rfl

/-- Where deliveries are not awaited, an accepted message leaves the marks of a published record. -/
theorem firstPublish_of_enqueued {now : Nat} {x : Shipment}
    (hx : d.publisher.Carries slot (Attempt.first now).times m.routed m.value x)
    (hawaits : ¬ d.level.awaitsDelivery = true)
    (h : script.Allows b.policy.window (.sent x (.ok ()))) :
    script.firstPublish d b (m, slot) =
      (Event.sent x (.ok ())).marks + {.status m.routed.coordinates .settled, .published} := by
  obtain ⟨result, hresult⟩ := h
  rw [hx.slot, hx.times] at hresult
  have hresult : script.publish slot 0 = .reported result := hresult
  have hmessage : x.message = d.messageOf m := hx.message
  rw [Script.firstPublish, if_neg hawaits]
  simp only [hresult, Event.marks, hmessage]
  rfl

theorem LaunchForetold.starts (w : World σ) (d : Dispatcher) (registry : Registry) (script : Script)
    (b : Budget) (s : Session σ) (total : Tally) :
    (Dispatcher.publish w d registry).Starts d.awaitDelivery (LaunchForetold d script b s total)
      (fun _ => Deviates s (script.Allows b.policy.window)) where
  quiet ht h := ⟨h.foretold.quiet ht, h.messages⟩
  kept := by
    intro m slot items ts c x c₁ c' h hl hk
    obtain ⟨hx, htell⟩ := Dispatcher.send_flying hl
    rw [Dispatcher.awaitDelivery_eq] at hk
    split at hk
    · next hawaits =>
      obtain ⟨-, rfl⟩ := Prod.mk.inj hk
      refine ⟨h.foretold.tell htell fun hallowed => ?_, fun t ht => ?_⟩
      · have hfirst : script.firstPublish d b (m, slot) =
            (Event.sent x (.ok ())).marks + script.awaiting d b slot m 0 := by
          rw [Script.firstPublish, if_pos hawaits]
          exact foretellPublish_of_sent hx hallowed
        simp only [List.map_cons, List.map_append, List.map_nil, List.sum_cons, List.sum_append,
          List.sum_nil, hfirst, Script.publishMarks, Attempt.first]
        abel
      · rcases List.mem_append.1 ht with ht | ht
        · exact h.messages t ht
        · obtain rfl := List.mem_singleton.1 ht
          rintro _ ⟨⟩
          exact hx
    · simp at hk
  dropped := by
    intro m slot items ts c x c₁ c' h hl hk
    obtain ⟨hx, htell⟩ := Dispatcher.send_flying hl
    rw [Dispatcher.awaitDelivery_eq] at hk
    split at hk
    · simp at hk
    · next hawaits =>
      obtain ⟨-, rfl⟩ := Prod.mk.inj hk
      have hmarks : Foretold s (script.Allows b.policy.window) total
          ({.status m.routed.coordinates .settled, .published} +
            ((items.map (script.firstPublish d b)).sum + (ts.map (script.publishMarks d b)).sum)) c₁ := by
        refine h.foretold.tell htell fun hallowed => ?_
        rw [List.map_cons, List.sum_cons, firstPublish_of_enqueued hx hawaits hallowed]
        simp only [add_assoc]
      exact ⟨(hmarks.quiet (Course.tells_on _ (Session.tells_count ..))).leave rfl rfl, h.messages⟩
  failed := by
    intro m slot items ts c giveUp c' h hl
    obtain ⟨e, news, -, rfl, hunsent, htell⟩ := Dispatcher.send_failed hl
    refine ⟨h.foretold.tell htell fun hallowed => ?_, fun t ht => ?_⟩
    · have hfirst := firstPublish_of_unsent hunsent hallowed
      simp only [List.map_cons, List.map_append, List.map_nil, List.sum_cons, List.sum_append,
        List.sum_nil, hfirst, Script.publishMarks, Attempt.first]
      abel
    · rcases List.mem_append.1 ht with ht | ht
      · exact h.messages t ht
      · obtain rfl := List.mem_singleton.1 ht
        simp
  stopped := by
    intro m slot items ts c e c' h hl
    obtain ⟨cause, news, -, hunsent, htell⟩ := Dispatcher.send_stopped hl
    exact h.foretold.deviates htell (not_allows_of_unsent hunsent)

end Publishing

end Relay
