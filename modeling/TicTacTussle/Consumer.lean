import TicTacTussle.Broker

/-!
# The consumer loop

A consumer group reads the commands partition in order, hands every decoded command to the game loop
and commits its offset once the command is acknowledged.  A committed position stands for everything
before it.  The loop does not stop at a message that stays unacknowledged, so the next
acknowledgement commits past it.
-/

namespace TicTacTussle

open Wire

/-- `serde_json::from_slice::<CommandEnvelope>`. -/
class CommandFromSlice where
  fromSlice : Bytes → Except String CommandEnvelope

/-- `u8::is_ascii_whitespace`. -/
def isAsciiWhitespace (byte : UInt8) : Bool :=
  byte = 0x20 || byte = 0x09 || byte = 0x0a || byte = 0x0c || byte = 0x0d

/-- The payload from its first byte on that is no whitespace; a blank payload stays as it is. -/
def trimmed (payload : Bytes) : Bytes :=
  match payload.dropWhile isAsciiWhitespace with
  | [] => payload
  | rest => rest

structure Message where
  offset : ℕ
  payload : Option Bytes
  deriving DecidableEq, Repr

/-- The commands partition of a topic: records by increasing offset. -/
structure Partition where
  messages : List Message
  increasing : messages.Pairwise fun left right => left.offset < right.offset

def Partition.next (partition : Partition) (position : ℕ) : Option Message :=
  partition.messages.find? fun message => position ≤ message.offset

theorem Partition.mem_of_next {partition : Partition} {position : ℕ} {message : Message}
    (next : partition.next position = some message) : message ∈ partition.messages :=
  List.mem_of_find?_eq_some next

theorem Partition.le_of_next {partition : Partition} {position : ℕ} {message : Message}
    (next : partition.next position = some message) : position ≤ message.offset := by
  simpa using List.find?_some next

/-- No record from the position on comes before the next one. -/
theorem Partition.eq_or_lt_of_next {partition : Partition} {position : ℕ} {message other : Message}
    (next : partition.next position = some message) (member : other ∈ partition.messages)
    (ahead : position ≤ other.offset) : other = message ∨ message.offset < other.offset := by
  obtain ⟨_, front, back, split, behind⟩ := List.find?_eq_some_iff_append.mp next
  have increasing := partition.increasing
  rw [split] at member increasing
  rcases List.mem_append.mp member with earlier | later
  · have passed := behind other earlier
    simp only [Bool.not_eq_eq_eq_not, Bool.not_true, decide_eq_false_iff_not] at passed
    exact (passed ahead).elim
  · rcases List.mem_cons.mp later with same | beyond
    · exact .inl same
    · have tail := (List.pairwise_append.mp increasing).2.1
      exact .inr (List.rel_of_pairwise_cons tail beyond)

section Decoding

variable [CommandFromSlice]

/-- Only JSON is decoded. -/
def decodePayload (payload : Bytes) : Except String CommandEnvelope :=
  match trimmed payload with
  | 0x7b :: rest => (CommandFromSlice.fromSlice (0x7b :: rest)).mapError ("JSON decode: " ++ ·)
  | 0x5b :: rest => (CommandFromSlice.fromSlice (0x5b :: rest)).mapError ("JSON decode: " ++ ·)
  | _ =>
      .error "Bincode decode no longer supported for CommandEnvelope (missing Encode/Decode)"

/-- The command of a record, if it has a payload that decodes. -/
def Message.command (message : Message) : Option CommandEnvelope :=
  message.payload.bind fun payload => (decodePayload payload).toOption

end Decoding

/-! ## The loop -/

inductive LoopControl where
  | receiving
  | awaiting (message : Message)
  | stopped
  deriving DecidableEq, Repr

/-- A consumer group and the session of its consumer. -/
structure Consumer where
  committed : ℕ
  /-- The offset from which the session receives next. -/
  position : ℕ
  control : LoopControl
  /-- The commands handed to the game loop. -/
  sent : List CommandEnvelope
  /-- The offsets of decoded messages whose processing was not acknowledged. -/
  unacked : List ℕ
  /-- Those of them that this session has given up waiting for. -/
  leftBehind : List ℕ
  deriving DecidableEq, Repr

inductive ConsumerInput where
  /-- `recv` delivers a message; the game loop may have closed its channel. -/
  | received (closed : Bool)
  | recvFailed
  | signalled (signal : AckSignal)
  | timedOut
  | restarted
  deriving DecidableEq, Repr

namespace Consumer

/-- A new group reads from the beginning. -/
def start : Consumer := ⟨0, 0, .receiving, [], [], []⟩

/-- The message waited for is given up. -/
def giveUp (consumer : Consumer) (message : Message) : Consumer :=
  { consumer with
    control := .receiving
    leftBehind := message.offset :: consumer.leftBehind }

/-- `commit_message` of the message waited for. -/
def commitMessage (consumer : Consumer) (message : Message) : Consumer :=
  { consumer with
    committed := message.offset + 1
    control := .receiving
    unacked := consumer.unacked.filter (· ≠ message.offset) }

variable [CommandFromSlice]

def receive (consumer : Consumer) (message : Message) (closed : Bool) : Consumer :=
  match message.command with
  | none => { consumer with position := message.offset + 1 }
  | some commandEnvelope =>
      let reached := { consumer with
        position := message.offset + 1
        unacked := message.offset :: consumer.unacked }
      if closed then
        { reached with
          control := .stopped
          leftBehind := message.offset :: consumer.leftBehind }
      else
        { reached with
          control := .awaiting message
          sent := consumer.sent ++ [commandEnvelope] }

/-- One step; what cannot happen where the loop stands changes nothing. -/
def step (partition : Partition) (consumer : Consumer) : ConsumerInput → Consumer
  | .received closed =>
      match consumer.control, partition.next consumer.position with
      | .receiving, some message => consumer.receive message closed
      | _, _ => consumer
  | .recvFailed => consumer
  | .signalled .acked =>
      match consumer.control with
      | .awaiting message => consumer.commitMessage message
      | _ => consumer
  | .signalled .dropped | .timedOut =>
      match consumer.control with
      | .awaiting message => consumer.giveUp message
      | _ => consumer
  | .restarted =>
      { consumer with
        position := consumer.committed
        control := .receiving
        leftBehind := [] }

/-- A run of the consumer over its restarts. -/
def run (partition : Partition) (inputs : List ConsumerInput) : Consumer :=
  inputs.foldl (step partition) start

/-- What one step can do. -/
inductive Step (partition : Partition) (before : Consumer) : ConsumerInput → Consumer → Prop
  | idle (input : ConsumerInput) : Step partition before input before
  | received {message : Message} (closed : Bool) (ready : before.control = .receiving)
      (next : partition.next before.position = some message) :
      Step partition before (.received closed) (before.receive message closed)
  | acked {message : Message} (waiting : before.control = .awaiting message) :
      Step partition before (.signalled .acked) (before.commitMessage message)
  | gaveUp {message : Message} {input : ConsumerInput}
      (waiting : before.control = .awaiting message) :
      Step partition before input (before.giveUp message)
  | restarted : Step partition before .restarted
      { before with
        position := before.committed
        control := .receiving
        leftBehind := [] }

theorem step_spec (partition : Partition) (consumer : Consumer) (input : ConsumerInput) :
    Step partition consumer input (consumer.step partition input) := by
  cases input with
  | received closed =>
      rw [step]
      split
      · rename_i message ready next
        exact .received closed ready next
      · exact .idle _
  | recvFailed => exact .idle _
  | signalled signal =>
      cases signal with
      | acked =>
          rw [step]
          split
          · rename_i message waiting
            exact .acked waiting
          · exact .idle _
      | dropped =>
          rw [step]
          split
          · rename_i message waiting
            exact .gaveUp waiting
          · exact .idle _
  | timedOut =>
      rw [step]
      split
      · rename_i message waiting
        exact .gaveUp waiting
      · exact .idle _
  | restarted => exact .restarted

@[simp]
theorem run_append_singleton (partition : Partition) (inputs : List ConsumerInput)
    (input : ConsumerInput) :
    run partition (inputs ++ [input]) = (run partition inputs).step partition input := by
  simp [run]

/-- What holds of the offsets in every run. -/
structure Sound (partition : Partition) (consumer : Consumer) : Prop where
  /-- An unacknowledged offset is that of a record that decodes. -/
  decoded : ∀ offset ∈ consumer.unacked,
    ∃ message ∈ partition.messages, message.offset = offset ∧ message.command.isSome
  committed_le : consumer.committed ≤ consumer.position
  awaited : ∀ message, consumer.control = .awaiting message →
    message.offset ∈ consumer.unacked ∧ consumer.committed ≤ message.offset ∧
      consumer.position = message.offset + 1
  left : ∀ offset ∈ consumer.leftBehind, offset ∈ consumer.unacked ∧ offset < consumer.position
  leftBefore : ∀ offset ∈ consumer.leftBehind, ∀ message, consumer.control = .awaiting message →
    offset < message.offset

theorem sound_start (partition : Partition) : Sound partition start where
  decoded := by simp [start]
  committed_le := le_rfl
  awaited := by simp [start]
  left := by simp [start]
  leftBefore := by simp [start]

variable {partition : Partition} {consumer : Consumer}

theorem Sound.receive (sound : Sound partition consumer) {message : Message}
    (ready : consumer.control = .receiving)
    (next : partition.next consumer.position = some message) (closed : Bool) :
    Sound partition (consumer.receive message closed) := by
  have ahead := Partition.le_of_next next
  have committed_le := sound.committed_le
  have earlier : ∀ offset ∈ consumer.leftBehind,
      offset ∈ consumer.unacked ∧ offset < message.offset := by
    intro offset member
    obtain ⟨unacked, before⟩ := sound.left offset member
    exact ⟨unacked, by omega⟩
  rw [Consumer.receive]
  cases command : message.command with
  | none =>
      constructor
      · exact sound.decoded
      · exact Nat.le_succ_of_le (committed_le.trans ahead)
      · intro other waiting
        cases ready.symm.trans waiting
      · intro offset member
        exact ⟨(earlier offset member).1, Nat.lt_succ_of_lt (earlier offset member).2⟩
      · intro offset member other waiting
        cases ready.symm.trans waiting
  | some commandEnvelope =>
      have decoded : ∀ offset ∈ message.offset :: consumer.unacked,
          ∃ message ∈ partition.messages, message.offset = offset ∧ message.command.isSome :=
        List.forall_mem_cons.mpr
          ⟨⟨message, Partition.mem_of_next next, rfl, by simp [command]⟩, sound.decoded⟩
      cases closed with
      | true =>
          constructor
          · exact decoded
          · exact Nat.le_succ_of_le (committed_le.trans ahead)
          · intro other waiting
            cases waiting
          · intro offset member
            rcases List.mem_cons.mp member with rfl | member
            · exact ⟨List.mem_cons_self, Nat.lt_succ_self _⟩
            · exact ⟨List.mem_cons_of_mem _ (earlier offset member).1,
                Nat.lt_succ_of_lt (earlier offset member).2⟩
          · intro offset member other waiting
            cases waiting
      | false =>
          constructor
          · exact decoded
          · exact Nat.le_succ_of_le (committed_le.trans ahead)
          · rintro other ⟨⟩
            exact ⟨List.mem_cons_self, committed_le.trans ahead, rfl⟩
          · intro offset member
            exact ⟨List.mem_cons_of_mem _ (earlier offset member).1,
              Nat.lt_succ_of_lt (earlier offset member).2⟩
          · rintro offset member other ⟨⟩
            exact (earlier offset member).2

theorem Sound.commitMessage (sound : Sound partition consumer) {message : Message}
    (waiting : consumer.control = .awaiting message) :
    Sound partition (consumer.commitMessage message) := by
  obtain ⟨_, _, position_eq⟩ := sound.awaited message waiting
  constructor
  · intro offset member
    exact sound.decoded offset (List.mem_of_mem_filter member)
  · exact position_eq.ge
  · intro other still
    cases still
  · intro offset member
    have before := sound.leftBefore offset member message waiting
    have apart : offset ≠ message.offset := Nat.ne_of_lt before
    exact ⟨List.mem_filter.mpr ⟨(sound.left offset member).1, by simp [apart]⟩,
      (sound.left offset member).2⟩
  · intro offset member other still
    cases still

theorem Sound.giveUp (sound : Sound partition consumer) {message : Message}
    (waiting : consumer.control = .awaiting message) :
    Sound partition (consumer.giveUp message) := by
  obtain ⟨unacked, _, position_eq⟩ := sound.awaited message waiting
  constructor
  · exact sound.decoded
  · exact sound.committed_le
  · intro other still
    cases still
  · intro offset member
    rcases List.mem_cons.mp member with rfl | member
    · exact ⟨unacked, by rw [Consumer.giveUp, position_eq]; exact Nat.lt_succ_self _⟩
    · exact sound.left offset member
  · intro offset member other still
    cases still

theorem Sound.step (sound : Sound partition consumer) (input : ConsumerInput) :
    Sound partition (consumer.step partition input) := by
  have spec := consumer.step_spec partition input
  generalize consumer.step partition input = after at spec ⊢
  cases spec with
  | idle => exact sound
  | received closed ready next => exact sound.receive ready next closed
  | acked waiting => exact sound.commitMessage waiting
  | gaveUp waiting => exact sound.giveUp waiting
  | restarted =>
      exact {
        decoded := sound.decoded
        committed_le := le_rfl
        awaited := by simp
        left := by simp
        leftBefore := by simp }

theorem sound_run (partition : Partition) (inputs : List ConsumerInput) :
    Sound partition (run partition inputs) := by
  induction inputs using List.reverseRecOn with
  | nil => exact sound_start partition
  | append_singleton inputs input induction =>
      rw [run_append_singleton]
      exact induction.step input

/-! ## At-least-once delivery -/

/-- No decoded message whose processing was not acknowledged lies before the committed position. -/
def AtLeastOnce (consumer : Consumer) : Prop :=
  ∀ offset ∈ consumer.unacked, consumer.committed ≤ offset

/-- Every unacknowledged message has been given up in this session, is waited for or lies ahead. -/
def Covered (consumer : Consumer) : Prop :=
  ∀ offset ∈ consumer.unacked, offset ∈ consumer.leftBehind ∨ consumer.position ≤ offset ∨
    ∃ message, consumer.control = .awaiting message ∧ message.offset = offset

/-- No message of this session has been given up when an acknowledgement commits. -/
def Patient (consumer : Consumer) (input : ConsumerInput) : Prop :=
  input = .signalled .acked → ∀ message, consumer.control = .awaiting message →
    consumer.leftBehind = []

theorem Covered.receive (covered : Covered consumer) (sound : Sound partition consumer)
    {message : Message} (ready : consumer.control = .receiving)
    (next : partition.next consumer.position = some message) (closed : Bool) :
    Covered (consumer.receive message closed) := by
  have known : ∀ offset ∈ consumer.unacked, offset ∈ consumer.leftBehind ∨
      (offset = message.offset ∧ message.command.isSome) ∨ message.offset + 1 ≤ offset := by
    intro offset member
    rcases covered offset member with left | ahead | ⟨other, waiting, _⟩
    · exact .inl left
    · obtain ⟨other, listed, rfl, decodes⟩ := sound.decoded offset member
      rcases Partition.eq_or_lt_of_next next listed ahead with rfl | beyond
      · exact .inr (.inl ⟨rfl, decodes⟩)
      · exact .inr (.inr beyond)
    · cases ready.symm.trans waiting
  rw [Consumer.receive]
  cases command : message.command with
  | none =>
      intro offset member
      rcases known offset member with left | ⟨_, decodes⟩ | beyond
      · exact .inl left
      · rw [command] at decodes
        cases decodes
      · exact .inr (.inl beyond)
  | some commandEnvelope =>
      cases closed with
      | true =>
          intro offset member
          rcases List.mem_cons.mp member with rfl | member
          · exact .inl List.mem_cons_self
          · rcases known offset member with left | ⟨rfl, _⟩ | beyond
            · exact .inl (List.mem_cons_of_mem _ left)
            · exact .inl List.mem_cons_self
            · exact .inr (.inl beyond)
      | false =>
          intro offset member
          rcases List.mem_cons.mp member with rfl | member
          · exact .inr (.inr ⟨message, rfl, rfl⟩)
          · rcases known offset member with left | ⟨rfl, _⟩ | beyond
            · exact .inl left
            · exact .inr (.inr ⟨message, rfl, rfl⟩)
            · exact .inr (.inl beyond)

theorem AtLeastOnce.receive (atLeastOnce : AtLeastOnce consumer)
    (sound : Sound partition consumer) {message : Message}
    (next : partition.next consumer.position = some message) (closed : Bool) :
    AtLeastOnce (consumer.receive message closed) := by
  have ahead : consumer.committed ≤ message.offset :=
    sound.committed_le.trans (Partition.le_of_next next)
  rw [Consumer.receive]
  cases message.command with
  | none => exact atLeastOnce
  | some commandEnvelope =>
      cases closed with
      | true => exact List.forall_mem_cons.mpr ⟨ahead, atLeastOnce⟩
      | false => exact List.forall_mem_cons.mpr ⟨ahead, atLeastOnce⟩

/-- With nothing given up before it, a message can be committed. -/
theorem Covered.commitMessage (covered : Covered consumer) (sound : Sound partition consumer)
    {message : Message} (waiting : consumer.control = .awaiting message)
    (nothing : consumer.leftBehind = []) :
    AtLeastOnce (consumer.commitMessage message) ∧ Covered (consumer.commitMessage message) := by
  obtain ⟨_, _, position_eq⟩ := sound.awaited message waiting
  have beyond : ∀ offset ∈ (consumer.commitMessage message).unacked,
      message.offset + 1 ≤ offset := by
    intro offset member
    obtain ⟨unacked, apart⟩ := List.mem_filter.mp member
    rcases covered offset unacked with left | ahead | ⟨other, same, rfl⟩
    · rw [nothing] at left
      cases left
    · rw [← position_eq]
      exact ahead
    · cases waiting.symm.trans same
      simp at apart
  constructor
  · exact beyond
  · intro offset member
    refine .inr (.inl ?_)
    rw [Consumer.commitMessage, position_eq]
    exact beyond offset member

omit [CommandFromSlice] in
theorem Covered.giveUp (covered : Covered consumer) {message : Message}
    (waiting : consumer.control = .awaiting message) : Covered (consumer.giveUp message) := by
  intro offset member
  rcases covered offset member with left | ahead | ⟨other, same, rfl⟩
  · exact .inl (List.mem_cons_of_mem _ left)
  · exact .inr (.inl ahead)
  · cases waiting.symm.trans same
    exact .inl List.mem_cons_self

/-- A patient step keeps the committed position behind every unacknowledged message. -/
theorem AtLeastOnce.step (atLeastOnce : AtLeastOnce consumer) (covered : Covered consumer)
    (sound : Sound partition consumer) {input : ConsumerInput} (patient : Patient consumer input) :
    AtLeastOnce (consumer.step partition input) ∧ Covered (consumer.step partition input) := by
  have spec := consumer.step_spec partition input
  generalize consumer.step partition input = after at spec ⊢
  cases spec with
  | idle => exact ⟨atLeastOnce, covered⟩
  | received closed ready next =>
      exact ⟨atLeastOnce.receive sound next closed, covered.receive sound ready next closed⟩
  | @acked message waiting =>
      exact covered.commitMessage sound waiting (patient rfl message waiting)
  | gaveUp waiting => exact ⟨atLeastOnce, covered.giveUp waiting⟩
  | restarted => exact ⟨atLeastOnce, fun offset member => .inr (.inl (atLeastOnce offset member))⟩

/-- An impatient acknowledgement commits past a message that was given up. -/
theorem not_atLeastOnce_of_impatient (sound : Sound partition consumer) {input : ConsumerInput}
    (impatient : ¬ Patient consumer input) : ¬ AtLeastOnce (consumer.step partition input) := by
  intro atLeastOnce
  apply impatient
  rintro rfl message waiting
  rw [List.eq_nil_iff_forall_not_mem]
  intro offset left
  have before := sound.leftBefore offset left message waiting
  have still : offset ∈ (consumer.commitMessage message).unacked :=
    List.mem_filter.mpr ⟨(sound.left offset left).1, by simp [Nat.ne_of_lt before]⟩
  have committed : consumer.step partition (.signalled .acked) =
      consumer.commitMessage message := by
    rw [Consumer.step, waiting]
  rw [committed] at atLeastOnce
  have behind : message.offset + 1 ≤ offset := atLeastOnce offset still
  omega

/-- In this session the loop receives the message. -/
def Delivers (partition : Partition) (consumer : Consumer) (session : List ConsumerInput)
    (message : Message) : Prop :=
  ∃ front closed back, session = front ++ .received closed :: back ∧
    (front.foldl (step partition) consumer).control = .receiving ∧
      partition.next (front.foldl (step partition) consumer).position = some message

/-- After a restart every message that was not acknowledged is delivered again: a session can
receive it, and none goes past it without. -/
def Redelivers (partition : Partition) (consumer : Consumer) : Prop :=
  ∀ offset ∈ consumer.unacked, ∃ message ∈ partition.messages, message.offset = offset ∧
    (∃ session, .restarted ∉ session ∧
      Delivers partition (consumer.step partition .restarted) session message) ∧
    ∀ session, .restarted ∉ session →
      offset < (session.foldl (step partition) (consumer.step partition .restarted)).position →
        Delivers partition (consumer.step partition .restarted) session message

@[simp]
theorem receive_position (consumer : Consumer) (message : Message) (closed : Bool) :
    (consumer.receive message closed).position = message.offset + 1 := by
  rw [receive]
  split
  · rfl
  · split <;> rfl

theorem Delivers.append {session : List ConsumerInput} {message : Message}
    (delivers : Delivers partition consumer session message) (input : ConsumerInput) :
    Delivers partition consumer (session ++ [input]) message := by
  obtain ⟨front, closed, back, rfl, ready, next⟩ := delivers
  exact ⟨front, closed, back ++ [input], by simp, ready, next⟩

/-- A session that starts in front of a record goes past it by receiving it. -/
theorem delivers_of_passed {message : Message} (listed : message ∈ partition.messages)
    (ahead : consumer.position ≤ message.offset) {session : List ConsumerInput}
    (oneSession : .restarted ∉ session)
    (passed : message.offset < (session.foldl (step partition) consumer).position) :
    Delivers partition consumer session message := by
  induction session using List.reverseRecOn with
  | nil => exact absurd passed (Nat.not_lt.mpr ahead)
  | append_singleton session input induction =>
      have earlier : .restarted ∉ session := fun member =>
        oneSession (List.mem_append_left _ member)
      by_cases already : message.offset < (session.foldl (step partition) consumer).position
      · exact (induction earlier already).append input
      rw [List.foldl_append, List.foldl_cons, List.foldl_nil] at passed
      have spec := (session.foldl (step partition) consumer).step_spec partition input
      generalize (session.foldl (step partition) consumer).step partition input = after
        at spec passed
      cases spec with
      | idle | acked | gaveUp => exact absurd passed already
      | @received first closed ready next =>
          rcases Partition.eq_or_lt_of_next next listed (Nat.not_lt.mp already) with rfl | beyond
          · exact ⟨session, closed, [], rfl, ready, next⟩
          · rw [receive_position] at passed
            omega
      | restarted => exact absurd (List.mem_append_right _ List.mem_cons_self) oneSession

/-- A message that is received and acknowledged leaves the loop receiving behind it. -/
theorem receive_acked {message : Message} (ready : consumer.control = .receiving)
    (next : partition.next consumer.position = some message) :
    let after := (consumer.step partition (.received false)).step partition (.signalled .acked)
    after.control = .receiving ∧ after.position = message.offset + 1 := by
  have received : consumer.step partition (.received false) = consumer.receive message false := by
    rw [step, ready, next]
  rw [received]
  cases command : message.command with
  | none =>
      have skipped : consumer.receive message false =
          { consumer with position := message.offset + 1 } := by
        rw [receive, command]
      simp [skipped, step, ready]
  | some commandEnvelope =>
      have waits : (consumer.receive message false).control = .awaiting message := by
        rw [receive, command]
        rfl
      rw [step, waits]
      exact ⟨rfl, receive_position consumer message false⟩

theorem exists_delivers {message : Message} (listed : message ∈ partition.messages)
    (ready : consumer.control = .receiving) (ahead : consumer.position ≤ message.offset) :
    ∃ session, .restarted ∉ session ∧ Delivers partition consumer session message := by
  induction gap : message.offset - consumer.position using Nat.strong_induction_on
    generalizing consumer with
  | _ gap induction =>
      obtain ⟨first, next⟩ := Option.isSome_iff_exists.mp
        (List.find?_isSome.mpr ⟨message, listed, by simpa using ahead⟩ :
          (partition.next consumer.position).isSome)
      rcases Partition.eq_or_lt_of_next next listed ahead with rfl | beyond
      · exact ⟨[.received false], by simp, [], false, [], rfl, ready, next⟩
      obtain ⟨readyAfter, position⟩ := receive_acked ready next
      have reached := Partition.le_of_next next
      obtain ⟨session, oneSession, front, closed, back, rfl, receiving, found⟩ :=
        induction _ (by rw [position]; omega) readyAfter (by rw [position]; omega) rfl
      exact ⟨.received false :: .signalled .acked :: (front ++ .received closed :: back),
        by simpa using oneSession, .received false :: .signalled .acked :: front, closed, back, rfl,
        receiving, found⟩

theorem AtLeastOnce.redelivers (atLeastOnce : AtLeastOnce consumer)
    (sound : Sound partition consumer) : Redelivers partition consumer := by
  intro offset unacked
  obtain ⟨message, listed, rfl, _⟩ := sound.decoded offset unacked
  have ahead : (consumer.step partition .restarted).position ≤ message.offset :=
    atLeastOnce message.offset unacked
  exact ⟨message, listed, rfl, exists_delivers listed rfl ahead,
    fun session oneSession passed => delivers_of_passed listed ahead oneSession passed⟩

end Consumer

open Consumer

/-- At every moment of a run the committed position lies behind every message that was not
acknowledged, exactly when no acknowledgement commits after its session gave a message up; and
whenever it does, a restarted consumer is delivered these messages again. -/
theorem consumer_atLeastOnce_iff [CommandFromSlice] (partition : Partition)
    (inputs : List ConsumerInput) :
    ((∀ front back, inputs = front ++ back → AtLeastOnce (run partition front)) ↔
      ∀ front input back, inputs = front ++ input :: back →
        Patient (run partition front) input) ∧
      (AtLeastOnce (run partition inputs) → Redelivers partition (run partition inputs)) := by
  refine ⟨?_, fun atLeastOnce => atLeastOnce.redelivers (sound_run partition inputs)⟩
  constructor
  · intro always front input back split
    by_contra impatient
    have after := always (front ++ [input]) back (by simp [split])
    rw [run_append_singleton] at after
    exact not_atLeastOnce_of_impatient (sound_run partition front) impatient after
  · intro patient front
    have both : ∀ back, inputs = front ++ back →
        AtLeastOnce (run partition front) ∧ Covered (run partition front) := by
      induction front using List.reverseRecOn with
      | nil => exact fun _ _ => ⟨by simp [AtLeastOnce, run, start], by simp [Covered, run, start]⟩
      | append_singleton front input induction =>
          intro back split
          have split' : inputs = front ++ input :: back := by simp [split]
          obtain ⟨atLeastOnce, covered⟩ := induction (input :: back) split'
          rw [run_append_singleton]
          exact atLeastOnce.step covered (sound_run partition front)
            (patient front input back split')
    exact fun back split => (both back split).1

private def leaveText : Bytes :=
  ("\x7b\"id\":\"00000000-0000-0000-0000-000000000000\"," ++
    "\"game_id\":\"00000000-0000-0000-0000-000000000000\"," ++
    "\"occurred_at\":\"1970-01-01T00:00:00Z\"," ++
    "\"command\":\x7b\"LeaveGame\":\x7b\"player_id\":1\x7d\x7d\x7d").toUTF8.toList

private def leaveEnvelope : CommandEnvelope := ⟨⟨0⟩, ⟨⟨0⟩⟩, ⟨0⟩, .leaveGame ⟨1⟩⟩

/-- JSON decoding as far as the two messages below need it. -/
local instance : CommandFromSlice where
  fromSlice slice := if slice = leaveText then .ok leaveEnvelope else .error "expected value"

private def twoLeaves : Partition where
  messages := [⟨0, some leaveText⟩, ⟨1, some leaveText⟩]
  increasing := by simp

private def failThenSucceed : List ConsumerInput :=
  [.received false, .signalled .dropped, .received false, .signalled .acked]

private theorem run_failThenSucceed :
    (run twoLeaves failThenSucceed).committed = 2 ∧
      0 ∈ (run twoLeaves failThenSucceed).unacked := by
  decide +kernel

/-- The acknowledgement of the second message commits past the first, whose handle was dropped. -/
theorem commit_skips_dropped :
    ¬ ∀ (partition : Partition) (inputs : List ConsumerInput), ∀ front back,
      inputs = front ++ back → AtLeastOnce (run partition front) := by
  intro always
  have atLeastOnce := always twoLeaves failThenSucceed failThenSucceed [] (by simp)
  obtain ⟨committed, dropped⟩ := run_failThenSucceed
  have behind := atLeastOnce 0 dropped
  rw [committed] at behind
  cases behind

end TicTacTussle
