import Relay.Proofs.Releasing

/-!
# What a checkpoint message says about its subscriber

The routing metadata of a message stands behind the headers of its record, and whoever reads a header takes the first
one of its name. So a reader is told the subscriber that the message is for, unless the record itself came with a header
of this name: then it is told what that header says. A record that was itself read from a checkpoint message comes with
both headers, and what the first hop wrote is read at every later one (`first_hop_read`).
-/

namespace Relay

/-- Whether a reader finds a header of a name. -/
def tells (headers : List Header) (name : String) : Bool := headers.any fun h => h.ended.name == name

section Reading

variable {a b source : List Header} {name : String}

/-- Headers that stand behind others are read where those have none of the name. -/
theorem headerValue?_append (a b : List Header) (name : String) :
    headerValue? (a ++ b) name = if a.any (·.name == name) then headerValue? a name else headerValue? b name := by
  unfold headerValue?
  rw [List.find?_append]
  cases hfind : a.find? (·.name == name) with
  | none =>
    have hnone : a.any (·.name == name) = false := by
      rw [List.any_eq_false]
      exact List.find?_eq_none.1 hfind
    simp [hnone]
  | some h =>
    have hname : (h.name == name) = true := by simpa using List.find?_some hfind
    have hany : a.any (·.name == name) = true := List.any_eq_true.2 ⟨h, List.mem_of_find?_eq_some hfind, hname⟩
    simp [hany]

theorem Header.ended_ended (h : Header) : h.ended.ended = h.ended := by
  simp [ended, List.takeWhile_takeWhile]
  rfl

/-- The headers of a decoded record have names that end where a reader ends them. -/
theorem Message.ended_headers {m : Message} {r : Record} (h : m.decode = .ok r) :
    r.headers = m.headers.map Header.ended ∧ r.headers.map Header.ended = r.headers := by
  have hheaders : r.headers = m.headers.map Header.ended := by
    unfold decode at h
    split at h
    · simp at h
    · split at h
      · simp at h
      · obtain rfl := Except.ok.inj h
        rfl
  refine ⟨hheaders, ?_⟩
  rw [hheaders, List.map_map]
  exact List.map_congr_left fun x _ => x.ended_ended

/-- The routing metadata is written in headers that a reader leaves as they are. -/
theorem RoutingMetadata.ended_headers (m : RoutingMetadata) (source : List Header) :
    (m.headers source).map Header.ended = m.headers (source.map Header.ended) := by
  have htenant : String.ofList (tenantHeader.toList.takeWhile (· != '\x00')) = tenantHeader := by decide
  have hsequence : String.ofList (sequenceHeader.toList.takeWhile (· != '\x00')) = sequenceHeader := by decide
  simp [headers, Header.ended, htenant, hsequence]

/-- What a reader is told under a name: what the record came with comes first. -/
theorem RoutingMetadata.headerValue?_ended (m : RoutingMetadata) (source : List Header) (name : String) :
    headerValue? ((m.headers source).map Header.ended) name =
      if tells source name then headerValue? (source.map Header.ended) name else headerValue? (m.headers []) name := by
  have happend : m.headers (source.map Header.ended) = source.map Header.ended ++ m.headers [] := by simp [headers]
  rw [ended_headers, happend, headerValue?_append, List.any_map]
  rfl

theorem RoutingMetadata.headerValue?_tenant (m : RoutingMetadata) :
    headerValue? (m.headers []) tenantHeader = some (Bytes.ofText m.tenant) := rfl

theorem RoutingMetadata.headerValue?_sequence (m : RoutingMetadata) :
    headerValue? (m.headers []) sequenceHeader = some (Bytes.ofText (if m.sequential then "true" else "false")) := by
  have hother : (tenantHeader == sequenceHeader) = false := by decide
  simp [headers, headerValue?, hother]

theorem RoutingMetadata.tells_headers (m : RoutingMetadata) (source : List Header) {name : String}
    (hname : name = tenantHeader ∨ name = sequenceHeader) : tells ((m.headers source).map Header.ended) name = true := by
  have hmem : ∃ h ∈ m.headers (source.map Header.ended), h.name = name := by
    rcases hname with rfl | rfl
    · exact ⟨_, List.mem_append_right _ List.mem_cons_self, rfl⟩
    · exact ⟨_, List.mem_append_right _ (List.mem_cons_of_mem _ List.mem_cons_self), rfl⟩
  obtain ⟨h, hh, rfl⟩ := hmem
  rw [← ended_headers] at hh
  obtain ⟨h', -, rfl⟩ := List.mem_map.1 hh
  exact List.any_eq_true.2 ⟨h'.ended, hh, by rw [Header.ended_ended]; exact beq_self_eq_true _⟩

/-- A record that was read from a checkpoint message and is published again keeps what the first message said. -/
theorem first_hop_read (first second : RoutingMetadata) (source : List Header) {name : String}
    (hname : name = tenantHeader ∨ name = sequenceHeader) :
    headerValue? ((second.headers ((first.headers source).map Header.ended)).map Header.ended) name =
      headerValue? ((first.headers source).map Header.ended) name := by
  have htwice : ((first.headers source).map Header.ended).map Header.ended =
      (first.headers source).map Header.ended := by
    rw [List.map_map]
    exact List.map_congr_left fun h _ => h.ended_ended
  rw [second.headerValue?_ended, if_pos (first.tells_headers source hname), htwice]

end Reading

/-- The headers of a message that is handed to a producer are those of its record followed by the routing metadata. A
reader of the message finds them all in this order. Under the names of the metadata it is told the id of the subscriber
and whether it is sequential, unless the record came with a header of that name, in which case it is told what the
first of those says. -/
theorem routing_metadata_read {σ : Type} (w : World σ) (d : Dispatcher) (registry : Registry) (batch : Batch)
    (s : Session σ) {x : Shipment} {result : Except PublishError Unit}
    (h : .sent x result ∈ s.written (d.dispatch w registry batch s).2) :
    let subscribers := registry.subscribers d.pipeline
    ∃ r : Routed, (Matching.ofRecords subscribers batch.records).matched[x.slot]? = some r ∧
      r.record ∈ batch.records ∧ subscribers.find? (·.accepts r.record) = some r.subscriber ∧
      x.message.headers = r.record.headers ++ [
        ⟨"tenant", some (Bytes.ofText r.subscriber.id)⟩,
        ⟨"sequence", some (Bytes.ofText (if r.subscriber.isSequential then "true" else "false"))⟩] ∧
      ∀ (m : Message) (read : Record), m.headers = x.message.headers → m.decode = .ok read →
        r.record.headers.map Header.ended <+: read.headers ∧
          read.header? "tenant" =
            (if tells r.record.headers "tenant" then headerValue? (r.record.headers.map Header.ended) "tenant"
              else some (Bytes.ofText r.subscriber.id)) ∧
          read.header? "sequence" =
            if tells r.record.headers "sequence" then headerValue? (r.record.headers.map Header.ended) "sequence"
            else some (Bytes.ofText (if r.subscriber.isSequential then "true" else "false")) := by
  intro subscribers
  obtain ⟨s₁, s₂, hstaged, -⟩ := staged_dispatch w d registry batch s
  obtain ⟨m, ⟨-, hslot, hreleased⟩, hmessage⟩ := hstaged.hands h
  have hplaced := hreleased.placed
  rw [hslot] at hplaced
  obtain ⟨hrecord, hfind⟩ := routed_of_matched hplaced
  have hheaders : x.message.headers = m.routed.subscriber.metadata.headers m.routed.record.headers := by
    rw [hmessage]
    rfl
  refine ⟨m.routed, hplaced, hrecord, hfind, hheaders, fun message read hm hread => ?_⟩
  obtain ⟨hended, -⟩ := Message.ended_headers hread
  rw [hm, hheaders] at hended
  refine ⟨?_, ?_, ?_⟩
  · rw [hended, RoutingMetadata.ended_headers]
    exact List.prefix_append _ _
  · have htenant := m.routed.subscriber.metadata.headerValue?_tenant
    rw [Record.header?, hended, RoutingMetadata.headerValue?_ended]
    exact congrArg (ite _ _) htenant
  · have hsequence := m.routed.subscriber.metadata.headerValue?_sequence
    rw [Record.header?, hended, RoutingMetadata.headerValue?_ended]
    exact congrArg (ite _ _) hsequence

namespace Hops

/-- One subscriber, which takes every record. -/
def subscriber : Subscriber := ⟨"s", ⟨true, .all, [⟨"", none, []⟩]⟩, .standard⟩

def registry : Registry := ⟨.ofList [("", ⟨[subscriber], .ofList [("", ⟨""⟩)]⟩)]⟩

/-- The headers of the first record name another subscriber. -/
def batch : Batch where
  records := [⟨⟨⟨"", 0⟩, 0⟩, none, [⟨"tenant", some (Bytes.ofText "t")⟩], .null⟩, ⟨⟨⟨"", 0⟩, 1⟩, none, [], .null⟩]
  errors := []

/-- The message of a record, as a consumer of the checkpoint topic gets it. -/
def received (source : List Header) : Message where
  coordinates := ⟨⟨"s", 0⟩, 0⟩
  key := none
  headers := subscriber.metadata.headers source
  payload := some (Bytes.ofText "null")

def written : List Event :=
  (Session.start ()).written (Orders.dispatcher.dispatch Orders.oldest registry batch (.start ())).2

def shipment (slot : Nat) (source : List Header) : Shipment :=
  ⟨slot, 0, "checkpoint---0", ⟨"s", none, Bytes.ofText "null", subscriber.metadata.headers source⟩⟩

/-- A reader of the message of the first record is not told for whom it is. -/
theorem named_otherwise :
    ∃ read, .sent (shipment 0 [⟨"tenant", some (Bytes.ofText "t")⟩]) (.ok ()) ∈ written ∧
      (received [⟨"tenant", some (Bytes.ofText "t")⟩]).headers =
        (shipment 0 [⟨"tenant", some (Bytes.ofText "t")⟩]).message.headers ∧
      (received [⟨"tenant", some (Bytes.ofText "t")⟩]).decode = .ok read ∧
      read.header? "tenant" = some (Bytes.ofText "t") ∧ read.header? "tenant" ≠ some (Bytes.ofText subscriber.id) := by
  have hsent : written[12]? = some (.sent (shipment 0 [⟨"tenant", some (Bytes.ofText "t")⟩]) (.ok ())) := by cbv
  refine ⟨_, List.mem_of_getElem? hsent, rfl, rfl, ?_, ?_⟩
  · cbv
  · cbv
    decide

/-- A reader of the message of the second record is. -/
theorem named :
    ∃ read, .sent (shipment 1 []) (.ok ()) ∈ written ∧ (received []).decode = .ok read ∧
      read.header? "tenant" = some (Bytes.ofText "s") ∧ read.header? "sequence" = some (Bytes.ofText "true") := by
  have hsent : written[11]? = some (.sent (shipment 1 []) (.ok ())) := by cbv
  have hmem := List.mem_of_getElem? hsent
  obtain ⟨r, hplaced, -, -, -, hread⟩ :=
    routing_metadata_read Orders.oldest Orders.dispatcher registry batch (.start ()) hmem
  have hr : (Matching.ofRecords [subscriber] batch.records).matched[1]? =
      some ⟨subscriber, ⟨⟨⟨"", 0⟩, 1⟩, none, [], .null⟩⟩ := by cbv
  obtain rfl := Option.some.inj (hplaced.symm.trans hr)
  obtain ⟨-, htenant, hsequence⟩ := hread (received []) _ rfl rfl
  exact ⟨_, hmem, rfl, htenant, hsequence⟩

end Hops

end Relay
