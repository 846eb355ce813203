import TicTacTussle.Service
import TicTacTussle.Wire

/-!
# The Redpanda publisher

A batch is published record by record.  A record that the producer fails to deliver is only logged,
and the loop goes on: the result is a success whatever was delivered, and later records of the batch
may land on the topic behind a gap.
-/

namespace TicTacTussle

open Wire

structure FutureRecord where
  topic : String
  key : String
  payload : Bytes
  deriving DecidableEq, Repr

/-- `FutureProducer`, over its own state: sending succeeds exactly on delivery. -/
class FutureProducer (K : Type) where
  send : K → FutureRecord → K × Except String Unit
  /-- The records that were delivered, oldest first. -/
  delivered : K → List FutureRecord
  delivered_of_ok : ∀ {before after : K} {record : FutureRecord},
    send before record = (after, .ok ()) → delivered after = delivered before ++ [record]
  delivered_of_error : ∀ {before after : K} {record : FutureRecord} {error : String},
    send before record = (after, .error error) → delivered after = delivered before

/-- `serde_json::to_vec`, which succeeds for every event envelope. -/
class EnvelopeToVec where
  ofEvent : GameEventEnvelope → Except String Bytes
  ofCommand : CommandEnvelope → Except String Bytes
  ofEvent_succeeds : ∀ envelope, ∃ bytes, ofEvent envelope = .ok bytes

/-- `to_string` of a UUID. -/
class UuidToString where
  toString : Uuid → String

structure RedpandaPublisher (K : Type) where
  producer : K
  eventsTopic : String
  commandsTopic : String
  deriving DecidableEq, Repr

namespace RedpandaPublisher

variable {K : Type} [FutureProducer K] [EnvelopeToVec] [UuidToString]

/-- Send one record; a failed delivery is only logged. -/
def send (publisher : RedpandaPublisher K) (record : FutureRecord) : RedpandaPublisher K :=
  { publisher with producer := (FutureProducer.send publisher.producer record).1 }

def publishEvents (publisher : RedpandaPublisher K) :
    List GameEventEnvelope → RedpandaPublisher K × Except ErrorChain Unit
  | [] => (publisher, .ok ())
  | envelope :: envelopes =>
      let key := UuidToString.toString envelope.gameId.uuid ++ "/" ++ toString envelope.sequence
      match EnvelopeToVec.ofEvent envelope with
      | .error error =>
          (publisher, .error (.context "serialise envelope to JSON" (.foreign error)))
      | .ok payload =>
          (publisher.send ⟨publisher.eventsTopic, key, payload⟩).publishEvents envelopes

def publishCommand (publisher : RedpandaPublisher K) (cmdEnv : CommandEnvelope) :
    RedpandaPublisher K × Except ErrorChain Unit :=
  match EnvelopeToVec.ofCommand cmdEnv with
  | .error error => (publisher, .error (.context "serialise command to JSON" (.foreign error)))
  | .ok payload =>
      let key := UuidToString.toString cmdEnv.id
      (publisher.send ⟨publisher.commandsTopic, key, payload⟩, .ok ())

instance : EventPublisher ErrorChain (RedpandaPublisher K) where
  publish publisher
    | .eventBatch envelopes => publisher.publishEvents envelopes
    | .command cmdEnv => publisher.publishCommand cmdEnv

def record (eventsTopic : String) (envelope : GameEventEnvelope) : FutureRecord where
  topic := eventsTopic
  key := UuidToString.toString envelope.gameId.uuid ++ "/" ++ toString envelope.sequence
  payload := (EnvelopeToVec.ofEvent envelope).toOption.getD []

def onEventsTopic (publisher : RedpandaPublisher K) : List FutureRecord :=
  (FutureProducer.delivered publisher.producer).filter (·.topic = publisher.eventsTopic)

/-- A success means that the whole batch has reached the topic in order, and what has reached it
leaves no gap in the batch. -/
structure PublishesInOrder (publisher : RedpandaPublisher K) (envelopes : List GameEventEnvelope) :
    Prop where
  complete : (EventPublisher.publish publisher (.eventBatch envelopes)).2 = .ok () →
    (EventPublisher.publish publisher (.eventBatch envelopes)).1.onEventsTopic =
      publisher.onEventsTopic ++ envelopes.map (record publisher.eventsTopic)
  gapless : ∃ count, (EventPublisher.publish publisher (.eventBatch envelopes)).1.onEventsTopic =
    publisher.onEventsTopic ++ (envelopes.take count).map (record publisher.eventsTopic)

/-- The producer delivers every record. -/
def DeliversAll (producer : K) : List FutureRecord → Prop
  | [] => True
  | record :: records =>
      (FutureProducer.send producer record).2 = .ok () ∧
        DeliversAll (FutureProducer.send producer record).1 records

/-- The records that reached the broker on the way from one publisher to a later one: some of those
to be sent, in order, and all of them exactly when no delivery fails. -/
structure Reaches (before after : RedpandaPublisher K) (records reached : List FutureRecord) :
    Prop where
  sublist : reached.Sublist records
  eventsTopic : after.eventsTopic = before.eventsTopic
  delivered : FutureProducer.delivered after.producer =
    FutureProducer.delivered before.producer ++ reached
  all : reached = records ↔ DeliversAll before.producer records

omit [EnvelopeToVec] [UuidToString] in
theorem Reaches.refl (publisher : RedpandaPublisher K) : Reaches publisher publisher [] [] where
  sublist := .slnil
  eventsTopic := rfl
  delivered := (List.append_nil _).symm
  all := by simp [DeliversAll]

omit [EnvelopeToVec] [UuidToString] in
/-- One more record in front, delivered or not. -/
theorem Reaches.cons {before after : RedpandaPublisher K} {first : FutureRecord}
    {records reached : List FutureRecord}
    (later : Reaches (before.send first) after records reached) :
    ∃ all, Reaches before after (first :: records) all := by
  cases sending : FutureProducer.send before.producer first with
  | mk producer result =>
      have sent : (before.send first).producer = producer := congrArg Prod.fst sending
      have delivered := later.delivered
      have all := later.all
      rw [sent] at delivered all
      cases result with
      | ok =>
          refine ⟨first :: reached, later.sublist.cons_cons first, later.eventsTopic, ?_, ?_⟩
          · rw [delivered, FutureProducer.delivered_of_ok sending, List.append_assoc,
              List.singleton_append]
          · rw [DeliversAll, sending, List.cons.injEq, all]
            simp
      | error error =>
          refine ⟨reached, later.sublist.cons first, later.eventsTopic, ?_, ?_⟩
          · rw [delivered, FutureProducer.delivered_of_error sending]
          · rw [DeliversAll, sending]
            refine iff_of_false (fun same => ?_) (fun succeeded => by cases succeeded.1)
            have shorter := later.sublist.length_le
            rw [same, List.length_cons] at shorter
            omega

/-- Publishing a batch succeeds whatever is delivered of it. -/
theorem publishEvents_spec (publisher : RedpandaPublisher K) (envelopes : List GameEventEnvelope) :
    (publisher.publishEvents envelopes).2 = .ok () ∧
      ∃ reached, Reaches publisher (publisher.publishEvents envelopes).1
        (envelopes.map (record publisher.eventsTopic)) reached := by
  induction envelopes generalizing publisher with
  | nil => exact ⟨rfl, [], .refl publisher⟩
  | cons envelope envelopes induction =>
      obtain ⟨payload, encoded⟩ := EnvelopeToVec.ofEvent_succeeds envelope
      have published : publisher.publishEvents (envelope :: envelopes) =
          (publisher.send (record publisher.eventsTopic envelope)).publishEvents envelopes := by
        rw [publishEvents, record, encoded]
        rfl
      obtain ⟨succeeded, reached, later⟩ :=
        induction (publisher.send (record publisher.eventsTopic envelope))
      rw [published]
      exact ⟨succeeded, later.cons⟩

/-- What was published of a batch is what its topic gained. -/
theorem Reaches.onEventsTopic {before after : RedpandaPublisher K}
    {envelopes : List GameEventEnvelope} {reached : List FutureRecord}
    (reaches : Reaches before after (envelopes.map (record before.eventsTopic)) reached) :
    after.onEventsTopic = before.onEventsTopic ++ reached := by
  have onTopic : ∀ sent ∈ reached, sent.topic = before.eventsTopic := by
    intro sent member
    obtain ⟨envelope, _, rfl⟩ := List.mem_map.mp (reaches.sublist.mem member)
    rfl
  rw [RedpandaPublisher.onEventsTopic, RedpandaPublisher.onEventsTopic, reaches.delivered,
    reaches.eventsTopic, List.filter_append]
  congr 1
  exact List.filter_eq_self.mpr fun sent member => by simp [onTopic sent member]

/-- A batch is published in order, and its success means so, exactly when no delivery fails. -/
theorem publishesInOrder_iff (publisher : RedpandaPublisher K)
    (envelopes : List GameEventEnvelope) :
    publisher.PublishesInOrder envelopes ↔
      DeliversAll publisher.producer (envelopes.map (record publisher.eventsTopic)) := by
  obtain ⟨succeeded, reached, reaches⟩ := publisher.publishEvents_spec envelopes
  have published : (EventPublisher.publish publisher (.eventBatch envelopes)).1.onEventsTopic =
      publisher.onEventsTopic ++ reached := reaches.onEventsTopic
  rw [← reaches.all]
  constructor
  · intro inOrder
    have complete := inOrder.complete succeeded
    rw [published] at complete
    exact List.append_cancel_left complete
  · rintro rfl
    refine ⟨fun _ => published, envelopes.length, ?_⟩
    rw [List.take_length]
    exact published

end RedpandaPublisher

/-- A producer that fails where its script says so. -/
structure ScriptedProducer where
  script : List Bool
  delivered : List FutureRecord
  deriving DecidableEq, Repr

def ScriptedProducer.send (producer : ScriptedProducer) (record : FutureRecord) :
    ScriptedProducer × Except String Unit :=
  match producer.script with
  | false :: script => ({ producer with script }, .error "message timed out")
  | true :: script => (⟨script, producer.delivered ++ [record]⟩, .ok ())
  | [] => (⟨[], producer.delivered ++ [record]⟩, .ok ())

instance : FutureProducer ScriptedProducer where
  send := ScriptedProducer.send
  delivered := ScriptedProducer.delivered
  delivered_of_ok := by
    rintro ⟨script, delivered⟩ after record sending
    match script, sending with
    | true :: script, rfl => rfl
    | [], rfl => rfl
  delivered_of_error := by
    rintro ⟨script, delivered⟩ after record error sending
    match script, sending with
    | false :: script, rfl => rfl

private def joinedEnvelope : GameEventEnvelope :=
  ⟨⟨1⟩, some ⟨3⟩, 1, ⟨⟨0⟩⟩, ⟨0⟩, .playerJoined ⟨2⟩ "Bob"⟩

private def startedEnvelope : GameEventEnvelope :=
  ⟨⟨2⟩, some ⟨3⟩, 2, ⟨⟨0⟩⟩, ⟨0⟩, .gameStarted ⟨1⟩⟩

private def joinedText : Bytes :=
  ("\x7b\"id\":\"00000000-0000-0000-0000-000000000001\"," ++
    "\"command_id\":\"00000000-0000-0000-0000-000000000003\",\"sequence\":1," ++
    "\"game_id\":\"00000000-0000-0000-0000-000000000000\"," ++
    "\"occurred_at\":\"1970-01-01T00:00:00Z\"," ++
    "\"event\":\x7b\"PlayerJoined\":" ++
    "\x7b\"player_id\":2,\"name\":\"Bob\"\x7d\x7d\x7d").toUTF8.toList

private def startedText : Bytes :=
  ("\x7b\"id\":\"00000000-0000-0000-0000-000000000002\"," ++
    "\"command_id\":\"00000000-0000-0000-0000-000000000003\",\"sequence\":2," ++
    "\"game_id\":\"00000000-0000-0000-0000-000000000000\"," ++
    "\"occurred_at\":\"1970-01-01T00:00:00Z\"," ++
    "\"event\":\x7b\"GameStarted\":\x7b\"goes_first\":1\x7d\x7d\x7d").toUTF8.toList

/-- JSON encoding as far as the batch below needs it. -/
local instance : EnvelopeToVec where
  ofEvent envelope := .ok (if envelope = joinedEnvelope then joinedText else startedText)
  ofCommand _ := .ok []
  ofEvent_succeeds _ := ⟨_, rfl⟩

local instance : UuidToString := ⟨Uuid.hyphenated⟩

private def interrupted : RedpandaPublisher ScriptedProducer :=
  ⟨⟨[false, true], []⟩, "game-events", "game-commands"⟩

private theorem interrupted_topic :
    (interrupted.publishEvents [joinedEnvelope, startedEnvelope]).1.onEventsTopic.length = 1 := by
  decide +kernel

/-- The join is not delivered, the start of the game is, and publishing reports a success. -/
theorem publish_reports_success :
    (EventPublisher.publish interrupted (.eventBatch [joinedEnvelope, startedEnvelope])).2 =
        .ok () ∧
      ¬ interrupted.PublishesInOrder [joinedEnvelope, startedEnvelope] := by
  refine ⟨rfl, fun inOrder => ?_⟩
  have complete := congrArg List.length (inOrder.complete rfl)
  have nothing : interrupted.onEventsTopic = [] := rfl
  rw [nothing, List.nil_append, List.length_map] at complete
  cases interrupted_topic.symm.trans complete

end TicTacTussle
