import Mathlib.Algebra.BigOperators.Group.Finset.Basic
import Mathlib.Algebra.Order.BigOperators.Group.Finset
import TicTacTussle.Consumer
import TicTacTussle.Schedule

/-!
# Consumer groups on one channel

Every consumer group reads the commands topic on its own and sends what it decodes over one bounded
channel into the game loop, each command with a one-shot channel for its acknowledgement.  The loop
takes the commands in the order of the channel; a group commits what was acknowledged in time.  The
groups, the timer and the loop interleave freely.
-/

namespace TicTacTussle

open Wire

namespace Partition

/-- The records from one position up to another. -/
def between (partition : Partition) (first past : ℕ) : List Message :=
  partition.messages.filter fun message => first ≤ message.offset ∧ message.offset < past

theorem between_self (partition : Partition) (position : ℕ) :
    partition.between position position = [] := by
  rw [between, List.filter_eq_nil_iff]
  intro message _
  simp

theorem mem_between {partition : Partition} {first past : ℕ} {message : Message} :
    message ∈ partition.between first past ↔
      message ∈ partition.messages ∧ first ≤ message.offset ∧ message.offset < past := by
  simp [between]

/-- Receiving a record lengthens the stretch by it. -/
theorem between_of_next {partition : Partition} {first position : ℕ} {message : Message}
    (next : partition.next position = some message) (started : first ≤ position) :
    partition.between first (message.offset + 1) =
      partition.between first position ++ [message] := by
  have ahead := le_of_next next
  obtain ⟨_, front, back, split, behind⟩ := List.find?_eq_some_iff_append.mp next
  have increasing := partition.increasing
  rw [split] at increasing
  obtain ⟨_, tail, _⟩ := List.pairwise_append.mp increasing
  have passed : ∀ other ∈ front, other.offset < position := by
    intro other member
    simpa using behind other member
  have beyond : ∀ other ∈ back, message.offset < other.offset :=
    fun other member => List.rel_of_pairwise_cons tail member
  have sameFront : (front.filter fun other => first ≤ other.offset ∧
      other.offset < message.offset + 1) =
        front.filter fun other => first ≤ other.offset ∧ other.offset < position := by
    apply List.filter_congr
    intro other member
    have before := passed other member
    exact decide_eq_decide.mpr (by omega)
  have noneLater (past : ℕ) (reached : past ≤ message.offset + 1) :
      (back.filter fun other => first ≤ other.offset ∧ other.offset < past) = [] := by
    rw [List.filter_eq_nil_iff]
    intro other member
    have after := beyond other member
    simp only [decide_eq_true_eq]
    omega
  rw [between, between, split, List.filter_append, List.filter_append, sameFront,
    List.filter_cons_of_pos (by simp; omega), List.filter_cons_of_neg (by simp; omega),
    noneLater _ (Nat.le_refl _), noneLater _ (by omega), List.append_nil]

end Partition

/-! ## The system -/

def consumerGroups : List String := ["game-server-loop", "game-audit-log"]

def firstGroup : Fin consumerGroups.length := ⟨0, by decide⟩

def secondGroup : Fin consumerGroups.length := ⟨1, by decide⟩

/-- The capacity of the channel into the game loop. -/
def channelCapacity : ℕ := 256

/-- A consumer loop with the one-shot channel of the last command it sent. -/
structure Group where
  consumer : Consumer
  channel : ℕ
  deriving DecidableEq, Repr

/-- A command that a group has sent to the game loop. -/
structure Dispatch (ι : Type) where
  group : ι
  message : Message
  commandEnvelope : CommandEnvelope
  deriving DecidableEq, Repr

/-- The groups and the game loop, with the channel between them. -/
structure Pipeline (ι P B : Type) where
  service : GameService P B
  groups : ι → Group
  /-- The channel into the game loop. -/
  queue : List BrokerCommand
  /-- What the one-shot channels carry. -/
  signals : ℕ → Option AckSignal
  /-- Every command sent so far; its place is the number of its one-shot channel. -/
  dispatches : List (Dispatch ι)
  /-- Every command taken so far, with the service that it found. -/
  handled : List (GameService P B × CommandEnvelope)

/-- What can happen. -/
inductive PipelineInput (ι P B : Type) where
  /-- A group receives its next message and sends on what it decodes. -/
  | receive (group : ι)
  /-- The game loop takes a command and handles it. -/
  | take
  /-- A group learns what became of its command. -/
  | notice (group : ι)
  /-- A group has waited long enough. -/
  | expire (group : ι)
  /-- The game loop does something else. -/
  | work (after : GameService P B)

namespace Pipeline

variable {ι P B : Type}

/-- Groups that begin at their committed positions, and an empty channel. -/
def start (service : GameService P B) (committed : ι → ℕ) : Pipeline ι P B where
  service := service
  groups group := ⟨⟨committed group, committed group, .receiving, [], [], []⟩, 0⟩
  queue := []
  signals _ := none
  dispatches := []
  handled := []

variable [DecidableEq ι]

def setConsumer (pipeline : Pipeline ι P B) (group : ι) (consumer : Consumer) : Pipeline ι P B :=
  { pipeline with
    groups := Function.update pipeline.groups group
      { pipeline.groups group with consumer } }

/-- A group sends a command, and waits for what becomes of it. -/
def send (pipeline : Pipeline ι P B) (group : ι) (consumer : Consumer) (message : Message)
    (commandEnvelope : CommandEnvelope) : Pipeline ι P B :=
  { pipeline with
    groups := Function.update pipeline.groups group ⟨consumer, pipeline.dispatches.length⟩
    queue := pipeline.queue ++ [⟨commandEnvelope, ⟨pipeline.dispatches.length⟩⟩]
    dispatches := pipeline.dispatches ++ [⟨group, message, commandEnvelope⟩] }

variable {E : Type} [Anyhow E] [EventPublisher E P] [NetworkBroadcaster E B]

/-- What the loop signals after handling a command. -/
def outcome (fresh : ℕ → Stamp) (taken : GameService P B × CommandEnvelope) : AckSignal :=
  settle (taken.1.handle fresh taken.2).2

/-- The loop handles the command at the head of the channel and signals what became of it. -/
def handle (fresh : ℕ → Stamp) (pipeline : Pipeline ι P B) (command : BrokerCommand)
    (queue : List BrokerCommand) : Pipeline ι P B :=
  { pipeline with
    service := (pipeline.service.handle fresh command.commandEnvelope).1
    queue
    signals := Function.update pipeline.signals command.ack.channel
      (some (outcome fresh (pipeline.service, command.commandEnvelope)))
    handled := pipeline.handled ++ [(pipeline.service, command.commandEnvelope)] }

variable [CommandFromSlice]

/-- One step; what cannot happen has no value.  A full channel blocks the sender, and a signal that
is there wins against the timer. -/
def step (partition : Partition) (fresh : ℕ → Stamp) (pipeline : Pipeline ι P B) :
    PipelineInput ι P B → Option (Pipeline ι P B)
  | .receive group =>
      let consumer := (pipeline.groups group).consumer
      match consumer.control, partition.next consumer.position with
      | .receiving, some message =>
          let after := consumer.receive message false
          match message.command with
          | none => some (pipeline.setConsumer group after)
          | some commandEnvelope => do
              guard (pipeline.queue.length < channelCapacity)
              some (pipeline.send group after message commandEnvelope)
      | _, _ => none
  | .take =>
      match pipeline.queue with
      | [] => none
      | command :: queue => some (pipeline.handle fresh command queue)
  | .notice group =>
      let waiting := pipeline.groups group
      match waiting.consumer.control, pipeline.signals waiting.channel with
      | .awaiting _, some signal =>
          some (pipeline.setConsumer group (waiting.consumer.step partition (.signalled signal)))
      | _, _ => none
  | .expire group =>
      let waiting := pipeline.groups group
      match waiting.consumer.control, pipeline.signals waiting.channel with
      | .awaiting _, none =>
          some (pipeline.setConsumer group (waiting.consumer.step partition .timedOut))
      | _, _ => none
  | .work after => some { pipeline with service := after }

/-- Steps one after the other. -/
def run (partition : Partition) (fresh : ℕ → Stamp) (service : GameService P B)
    (committed : ι → ℕ) (inputs : List (PipelineInput ι P B)) : Option (Pipeline ι P B) :=
  Schedule.runAll (step partition fresh) (start service committed) inputs

/-- What one step can do. -/
inductive Step (partition : Partition) (fresh : ℕ → Stamp) (before : Pipeline ι P B) :
    PipelineInput ι P B → Pipeline ι P B → Prop
  | skipped (group : ι) {message : Message}
      (ready : (before.groups group).consumer.control = .receiving)
      (next : partition.next (before.groups group).consumer.position = some message)
      (undecoded : message.command = none) :
      Step partition fresh before (.receive group)
        (before.setConsumer group ((before.groups group).consumer.receive message false))
  | sent (group : ι) {message : Message} {commandEnvelope : CommandEnvelope}
      (ready : (before.groups group).consumer.control = .receiving)
      (next : partition.next (before.groups group).consumer.position = some message)
      (decoded : message.command = some commandEnvelope)
      (room : before.queue.length < channelCapacity) :
      Step partition fresh before (.receive group)
        (before.send group ((before.groups group).consumer.receive message false) message
          commandEnvelope)
  | took {command : BrokerCommand} {queue : List BrokerCommand}
      (queued : before.queue = command :: queue) :
      Step partition fresh before .take (before.handle fresh command queue)
  | noticed (group : ι) {message : Message} {signal : AckSignal}
      (waiting : (before.groups group).consumer.control = .awaiting message)
      (signalled : before.signals (before.groups group).channel = some signal) :
      Step partition fresh before (.notice group)
        (before.setConsumer group
          ((before.groups group).consumer.step partition (.signalled signal)))
  | expired (group : ι) {message : Message}
      (waiting : (before.groups group).consumer.control = .awaiting message)
      (silent : before.signals (before.groups group).channel = none) :
      Step partition fresh before (.expire group)
        (before.setConsumer group ((before.groups group).consumer.giveUp message))
  | worked (after : GameService P B) :
      Step partition fresh before (.work after) { before with service := after }

theorem step_spec {partition : Partition} {fresh : ℕ → Stamp} {before after : Pipeline ι P B}
    {input : PipelineInput ι P B} (stepped : before.step partition fresh input = some after) :
    Step partition fresh before input after := by
  cases input with
  | receive group =>
      rw [step] at stepped
      split at stepped
      · rename_i message ready next
        cases decoded : message.command with
        | none =>
            rw [decoded] at stepped
            obtain rfl := Option.some.inj stepped
            exact .skipped group ready next decoded
        | some commandEnvelope =>
            rw [decoded] at stepped
            simp only [bind, Option.bind_eq_some_iff, Option.guard_eq_some', exists_const,
              Option.some.injEq] at stepped
            obtain ⟨room, rfl⟩ := stepped
            exact .sent group ready next decoded room
      · cases stepped
  | take =>
      rw [step] at stepped
      split at stepped
      · cases stepped
      · rename_i command queue queued
        obtain rfl := Option.some.inj stepped
        exact .took queued
  | notice group =>
      rw [step] at stepped
      split at stepped
      · rename_i message signal waiting signalled
        obtain rfl := Option.some.inj stepped
        exact .noticed group waiting signalled
      · cases stepped
  | expire group =>
      rw [step] at stepped
      split at stepped
      · rename_i message waiting silent
        obtain rfl := Option.some.inj stepped
        have gaveUp : (before.groups group).consumer.step partition .timedOut =
            (before.groups group).consumer.giveUp message := by
          rw [Consumer.step, waiting]
        rw [gaveUp]
        exact .expired group waiting silent
      · cases stepped
  | work service =>
      obtain rfl := Option.some.inj stepped
      exact .worked service

/-- The loop takes what was sent, in order, and signals the result of each. -/
structure Channelled (fresh : ℕ → Stamp) (pipeline : Pipeline ι P B) : Prop where
  order : pipeline.handled.map Prod.snd ++
      pipeline.queue.map BrokerCommand.commandEnvelope =
    pipeline.dispatches.map Dispatch.commandEnvelope
  channels : pipeline.queue.map (fun command => command.ack.channel) =
    List.range' pipeline.handled.length pipeline.queue.length
  signals : ∀ channel, pipeline.signals channel =
    (pipeline.handled[channel]?).map (outcome fresh)

section Channelled

variable {partition : Partition} {fresh : ℕ → Stamp} {before after : Pipeline ι P B}
  {input : PipelineInput ι P B}

omit [DecidableEq ι] [CommandFromSlice] in
theorem Channelled.length {pipeline : Pipeline ι P B} (channelled : pipeline.Channelled fresh) :
    pipeline.handled.length + pipeline.queue.length = pipeline.dispatches.length := by
  have lengths := congrArg List.length channelled.order
  simpa using lengths

omit [DecidableEq ι] [CommandFromSlice] in
/-- What was handled on a channel is what was sent with it. -/
theorem Channelled.handled_eq {pipeline : Pipeline ι P B} (channelled : pipeline.Channelled fresh)
    {channel : ℕ} {dispatch : Dispatch ι} (found : pipeline.dispatches[channel]? = some dispatch)
    (taken : channel < pipeline.handled.length) :
    ∃ service, pipeline.handled[channel]? = some (service, dispatch.commandEnvelope) := by
  have order := congrArg (fun commands => commands[channel]?) channelled.order
  simp only [List.getElem?_map, found, Option.map_some] at order
  rw [List.getElem?_append_left (by simpa using taken), List.getElem?_map,
    Option.map_eq_some_iff] at order
  obtain ⟨⟨service, commandEnvelope⟩, here, rfl⟩ := order
  exact ⟨service, here⟩

omit [DecidableEq ι] [CommandFromSlice] in
theorem channelled_start (service : GameService P B) (committed : ι → ℕ) :
    (start service committed).Channelled fresh where
  order := rfl
  channels := rfl
  signals _ := rfl

omit [CommandFromSlice] in
theorem Channelled.send {pipeline : Pipeline ι P B} (channelled : pipeline.Channelled fresh)
    (group : ι) (consumer : Consumer) (message : Message) (commandEnvelope : CommandEnvelope) :
    (pipeline.send group consumer message commandEnvelope).Channelled fresh := by
  refine ⟨?_, ?_, channelled.signals⟩
  · simp only [Pipeline.send, List.map_append, List.map_singleton]
    rw [← List.append_assoc, channelled.order]
  · simp only [Pipeline.send, List.map_append, List.map_singleton, List.length_append,
      List.length_singleton]
    rw [List.range'_1_concat, channelled.channels, channelled.length]

omit [DecidableEq ι] [CommandFromSlice] in
theorem Channelled.handle {pipeline : Pipeline ι P B} (channelled : pipeline.Channelled fresh)
    {command : BrokerCommand} {queue : List BrokerCommand}
    (queued : pipeline.queue = command :: queue) :
    (pipeline.handle fresh command queue).Channelled fresh := by
  have channels := channelled.channels
  rw [queued, List.map_cons, List.length_cons, List.range'_succ] at channels
  obtain ⟨own, later⟩ := List.cons.inj channels
  refine ⟨?_, ?_, fun channel => ?_⟩
  · have order := channelled.order
    rw [queued] at order
    simpa [Pipeline.handle] using order
  · simpa [Pipeline.handle] using later
  · simp only [Pipeline.handle, own]
    by_cases same : channel = pipeline.handled.length
    · simp [same]
    · rw [Function.update_of_ne same, channelled.signals]
      rcases Nat.lt_or_gt_of_ne same with earlier | beyond
      · rw [List.getElem?_append_left earlier]
      · rw [List.getElem?_eq_none (Nat.le_of_lt beyond),
          List.getElem?_eq_none (by rw [List.length_append, List.length_singleton]; omega)]

theorem Channelled.step (channelled : before.Channelled fresh)
    (stepped : Step partition fresh before input after) : after.Channelled fresh := by
  cases stepped with
  | skipped | noticed | expired => exact ⟨channelled.order, channelled.channels, channelled.signals⟩
  | sent => exact channelled.send _ _ _ _
  | took queued => exact channelled.handle queued
  | worked => exact ⟨channelled.order, channelled.channels, channelled.signals⟩

end Channelled

/-- The position stands just behind a command of the group that the loop has acknowledged. -/
def Acknowledged (fresh : ℕ → Stamp) (pipeline : Pipeline ι P B) (group : ι) (position : ℕ) :
    Prop :=
  ∃ (channel : ℕ) (dispatch : Dispatch ι) (taken : GameService P B × CommandEnvelope),
    pipeline.dispatches[channel]? = some dispatch ∧ pipeline.handled[channel]? = some taken ∧
      dispatch.group = group ∧ position = dispatch.message.offset + 1 ∧
        outcome fresh taken = .acked

/-- What a group that began at some position has sent, and what it has committed for. -/
structure Serves (partition : Partition) (fresh : ℕ → Stamp) (pipeline : Pipeline ι P B)
    (first : ℕ) (group : ι) (state : Group) : Prop where
  sound : state.consumer.Sound partition
  started : first ≤ state.consumer.position
  /-- It has sent the records it has passed, as far as they decode. -/
  dispatched : (pipeline.dispatches.filter fun dispatch : Dispatch ι => dispatch.group = group).map
      Dispatch.message =
    (partition.between first state.consumer.position).filter fun message =>
      message.command.isSome
  awaited : ∀ message, state.consumer.control = .awaiting message →
    ∃ commandEnvelope, pipeline.dispatches[state.channel]? = some ⟨group, message, commandEnvelope⟩
  committed : state.consumer.committed = first ∨
    pipeline.Acknowledged fresh group state.consumer.committed

/-- Every group serves its topic. -/
structure Serving (partition : Partition) (fresh : ℕ → Stamp) (committed : ι → ℕ)
    (pipeline : Pipeline ι P B) : Prop where
  decoded : ∀ dispatch ∈ pipeline.dispatches,
    dispatch.message.command = some dispatch.commandEnvelope
  groups : ∀ group, pipeline.Serves partition fresh (committed group) group (pipeline.groups group)

section Serving

variable {partition : Partition} {fresh : ℕ → Stamp} {pipeline before after : Pipeline ι P B}
  {first : ℕ} {group : ι} {state : Group} {message : Message}

theorem serving_start (service : GameService P B) (committed : ι → ℕ) :
    (start service committed).Serving partition fresh committed where
  decoded := by simp [start]
  groups group := by
    refine ⟨?_, Nat.le_refl _, ?_, ?_, .inl rfl⟩
    · constructor <;> simp [start]
    · simp [start, Partition.between_self]
    · simp [start]

/-- What other groups send does not concern a group. -/
theorem Serves.send_other (serves : pipeline.Serves partition fresh first group state) {other : ι}
    (apart : other ≠ group) (consumer : Consumer) (message : Message)
    (commandEnvelope : CommandEnvelope) :
    (pipeline.send other consumer message commandEnvelope).Serves partition fresh first group
      state := by
  refine ⟨serves.sound, serves.started, ?_, fun message waiting => ?_, ?_⟩
  · simpa [Pipeline.send, List.filter_append, apart] using serves.dispatched
  · obtain ⟨commandEnvelope, found⟩ := serves.awaited message waiting
    obtain ⟨inside, _⟩ := List.getElem?_eq_some_iff.mp found
    exact ⟨commandEnvelope, (List.getElem?_append_left inside).trans found⟩
  · refine serves.committed.imp_right ?_
    rintro ⟨channel, dispatch, taken, found, rest⟩
    obtain ⟨inside, _⟩ := List.getElem?_eq_some_iff.mp found
    exact ⟨channel, dispatch, taken, (List.getElem?_append_left inside).trans found, rest⟩

/-- What the loop handles only adds to what is acknowledged. -/
theorem Serves.handle (serves : pipeline.Serves partition fresh first group state)
    (command : BrokerCommand) (queue : List BrokerCommand) :
    (pipeline.handle fresh command queue).Serves partition fresh first group state := by
  refine ⟨serves.sound, serves.started, serves.dispatched, serves.awaited, ?_⟩
  refine serves.committed.imp_right ?_
  rintro ⟨channel, dispatch, taken, found, handled, rest⟩
  obtain ⟨inside, _⟩ := List.getElem?_eq_some_iff.mp handled
  exact ⟨channel, dispatch, taken, found, (List.getElem?_append_left inside).trans handled, rest⟩

/-- A record that does not decode is passed over. -/
theorem Serves.skip (serves : pipeline.Serves partition fresh first group state)
    (ready : state.consumer.control = .receiving)
    (next : partition.next state.consumer.position = some message)
    (undecoded : message.command = none) :
    pipeline.Serves partition fresh first group
      { state with consumer := state.consumer.receive message false } := by
  have received : state.consumer.receive message false =
      { state.consumer with position := message.offset + 1 } := by
    rw [Consumer.receive, undecoded]
  have sound := serves.sound.receive ready next false
  have ahead := Partition.le_of_next next
  rw [received] at sound ⊢
  refine ⟨sound, Nat.le_succ_of_le (serves.started.trans ahead), ?_, ?_, serves.committed⟩
  · rw [serves.dispatched, Partition.between_of_next next serves.started, List.filter_append]
    simp [undecoded]
  · intro other waiting
    cases ready.symm.trans waiting

/-- A record that decodes is sent on. -/
theorem Serves.send_own (serves : pipeline.Serves partition fresh first group state)
    (ready : state.consumer.control = .receiving)
    (next : partition.next state.consumer.position = some message)
    {commandEnvelope : CommandEnvelope} (decoded : message.command = some commandEnvelope) :
    (pipeline.send group (state.consumer.receive message false) message commandEnvelope).Serves
      partition fresh first group
        ⟨state.consumer.receive message false, pipeline.dispatches.length⟩ := by
  have received : state.consumer.receive message false = { state.consumer with
      position := message.offset + 1
      unacked := message.offset :: state.consumer.unacked
      control := .awaiting message
      sent := state.consumer.sent ++ [commandEnvelope] } := by
    rw [Consumer.receive, decoded]
    rfl
  have sound := serves.sound.receive ready next false
  have ahead := Partition.le_of_next next
  rw [received] at sound ⊢
  refine ⟨sound, Nat.le_succ_of_le (serves.started.trans ahead), ?_, ?_, ?_⟩
  · rw [Partition.between_of_next next serves.started, List.filter_append, ← serves.dispatched]
    simp [Pipeline.send, List.filter_append, decoded]
  · rintro other ⟨⟩
    exact ⟨commandEnvelope, by simp [Pipeline.send]⟩
  · refine serves.committed.imp_right ?_
    rintro ⟨channel, dispatch, taken, found, rest⟩
    obtain ⟨inside, _⟩ := List.getElem?_eq_some_iff.mp found
    exact ⟨channel, dispatch, taken, (List.getElem?_append_left inside).trans found, rest⟩

/-- A group that gives up has committed nothing. -/
theorem Serves.giveUp (serves : pipeline.Serves partition fresh first group state)
    (waiting : state.consumer.control = .awaiting message) :
    pipeline.Serves partition fresh first group
      { state with consumer := state.consumer.giveUp message } := by
  refine ⟨serves.sound.giveUp waiting, serves.started, serves.dispatched, ?_, serves.committed⟩
  intro other again
  cases again

/-- A group commits what the loop has acknowledged. -/
theorem Serves.notice (serves : pipeline.Serves partition fresh first group state)
    (channelled : pipeline.Channelled fresh)
    (waiting : state.consumer.control = .awaiting message) {signal : AckSignal}
    (signalled : pipeline.signals state.channel = some signal) :
    pipeline.Serves partition fresh first group
      { state with consumer := state.consumer.step partition (.signalled signal) } := by
  cases signal with
  | dropped =>
      have gaveUp : state.consumer.step partition (.signalled .dropped) =
          state.consumer.giveUp message := by
        rw [Consumer.step, waiting]
      rw [gaveUp]
      exact serves.giveUp waiting
  | acked =>
      have commits : state.consumer.step partition (.signalled .acked) =
          state.consumer.commitMessage message := by
        rw [Consumer.step, waiting]
      rw [channelled.signals, Option.map_eq_some_iff] at signalled
      obtain ⟨taken, handled, acked⟩ := signalled
      obtain ⟨commandEnvelope, found⟩ := serves.awaited message waiting
      rw [commits]
      refine ⟨serves.sound.commitMessage waiting, serves.started, serves.dispatched, ?_, ?_⟩
      · intro other again
        cases again
      · exact .inr ⟨state.channel, _, taken, found, handled, rfl, rfl, acked⟩

theorem Serves.congr (serves : before.Serves partition fresh first group state)
    (dispatches : after.dispatches = before.dispatches) (handled : after.handled = before.handled) :
    after.Serves partition fresh first group state := by
  obtain ⟨sound, started, dispatched, awaited, committed⟩ := serves
  rw [Acknowledged, ← dispatches, ← handled] at committed
  rw [← dispatches] at dispatched awaited
  exact ⟨sound, started, dispatched, awaited, committed⟩

/-- One group moves on without sending. -/
theorem Serving.setConsumer {committed : ι → ℕ}
    (serving : pipeline.Serving partition fresh committed) {consumer : Consumer}
    (own : pipeline.Serves partition fresh (committed group) group
      { pipeline.groups group with consumer }) :
    (pipeline.setConsumer group consumer).Serving partition fresh committed := by
  refine ⟨serving.decoded, (Function.forall_update_iff _ _).mpr ⟨?_, fun other _ => ?_⟩⟩
  · exact own.congr rfl rfl
  · exact (serving.groups other).congr rfl rfl

theorem Serving.step {committed : ι → ℕ} {input : PipelineInput ι P B}
    (serving : before.Serving partition fresh committed) (channelled : before.Channelled fresh)
    (stepped : Step partition fresh before input after) :
    after.Serving partition fresh committed := by
  cases stepped with
  | skipped group ready next undecoded =>
      exact serving.setConsumer ((serving.groups group).skip ready next undecoded)
  | sent group ready next decoded room =>
      refine ⟨?_, (Function.forall_update_iff _ _).mpr ⟨?_, fun other apart => ?_⟩⟩
      · intro dispatch member
        rcases List.mem_append.mp member with earlier | now
        · exact serving.decoded dispatch earlier
        · obtain rfl := List.mem_singleton.mp now
          exact decoded
      · exact (serving.groups group).send_own ready next decoded
      · exact (serving.groups other).send_other (Ne.symm apart) _ _ _
  | took queued => exact ⟨serving.decoded, fun other => (serving.groups other).handle _ _⟩
  | noticed group waiting signalled =>
      exact serving.setConsumer ((serving.groups group).notice channelled waiting signalled)
  | expired group waiting silent =>
      exact serving.setConsumer ((serving.groups group).giveUp waiting)
  | worked => exact ⟨serving.decoded, fun other => (serving.groups other).congr rfl rfl⟩

/-- Every run of the pipeline keeps both invariants. -/
theorem run_serving {service : GameService P B} {committed : ι → ℕ}
    {inputs : List (PipelineInput ι P B)} (ran : run partition fresh service committed inputs =
      some after) : after.Channelled fresh ∧ after.Serving partition fresh committed := by
  refine Schedule.runAll_induction
    (fun pipeline : Pipeline ι P B =>
      pipeline.Channelled fresh ∧ pipeline.Serving partition fresh committed)
    ?_ ⟨channelled_start service committed, serving_start service committed⟩ ran
  rintro before after input _ ⟨channelled, serving⟩ stepped
  have spec := step_spec stepped
  exact ⟨channelled.step spec, serving.step channelled spec⟩

/-- A group has sent what the records it has passed decode to. -/
theorem Serving.sent {committed : ι → ℕ} (serving : pipeline.Serving partition fresh committed)
    (group : ι) :
    (pipeline.dispatches.filter fun dispatch => dispatch.group = group).map
        Dispatch.commandEnvelope =
      (partition.between (committed group) (pipeline.groups group).consumer.position).filterMap
        Message.command := by
  have passed := congrArg (List.filterMap Message.command) (serving.groups group).dispatched
  have decodes : ((pipeline.dispatches.filter fun dispatch => dispatch.group = group).map
      Dispatch.message).filterMap Message.command =
        (pipeline.dispatches.filter fun dispatch => dispatch.group = group).map
          Dispatch.commandEnvelope := by
    rw [List.filterMap_map, ← List.filterMap_eq_map]
    apply List.filterMap_congr
    intro dispatch member
    exact serving.decoded dispatch (List.mem_of_mem_filter member)
  rw [decodes, List.filterMap_filter] at passed
  rw [passed]
  apply List.filterMap_congr
  intro message _
  cases message.command <;> rfl

/-- In every run the commands of a group reach the loop in the order of the topic, each once: those
handled and those in the channel are, for each group, what the records it has passed decode to. -/
theorem run_inOrder {service : GameService P B} {committed : ι → ℕ}
    {inputs : List (PipelineInput ι P B)} (ran : run partition fresh service committed inputs =
      some after) :
    after.handled.map Prod.snd ++ after.queue.map BrokerCommand.commandEnvelope =
        after.dispatches.map Dispatch.commandEnvelope ∧
      ∀ group, (after.dispatches.filter fun dispatch => dispatch.group = group).map
          Dispatch.commandEnvelope =
        (partition.between (committed group) (after.groups group).consumer.position).filterMap
          Message.command := by
  obtain ⟨channelled, serving⟩ := run_serving ran
  exact ⟨channelled.order, serving.sent⟩

/-- A group sends its records by increasing offset. -/
theorem Serves.increasing (serves : pipeline.Serves partition fresh first group state) :
    pipeline.dispatches.Pairwise fun earlier later => earlier.group = group →
      later.group = group → earlier.message.offset < later.message.offset := by
  have ordered : ((partition.between first state.consumer.position).filter fun message =>
      message.command.isSome).Pairwise fun left right => left.offset < right.offset :=
    (partition.increasing.filter _).filter _
  rw [← serves.dispatched, List.pairwise_map, List.pairwise_filter] at ordered
  simpa using ordered

/-- A group commits only behind a command that the loop has acknowledged, and everything in front of
its committed position that decodes has been handled, whatever became of its acknowledgement. -/
theorem run_commits_handled {service : GameService P B} {committed : ι → ℕ}
    {inputs : List (PipelineInput ι P B)} (ran : run partition fresh service committed inputs =
      some after) :
    ∀ group, let position := (after.groups group).consumer.committed
      (position = committed group ∨ after.Acknowledged fresh group position) ∧
        ∀ message ∈ partition.between (committed group) position, ∀ commandEnvelope,
          message.command = some commandEnvelope → ∃ (channel : ℕ) (found : GameService P B),
            after.dispatches[channel]? = some ⟨group, message, commandEnvelope⟩ ∧
              after.handled[channel]? = some (found, commandEnvelope) := by
  intro group position
  obtain ⟨channelled, serving⟩ := run_serving ran
  have serves := serving.groups group
  refine ⟨serves.committed, fun message member commandEnvelope decoded => ?_⟩
  obtain ⟨listed, begun, behind⟩ := Partition.mem_between.mp member
  have passed : message ∈ (partition.between (committed group)
      (after.groups group).consumer.position).filter fun message => message.command.isSome := by
    refine List.mem_filter.mpr ⟨Partition.mem_between.mpr ⟨listed, begun, ?_⟩, by simp [decoded]⟩
    exact Nat.lt_of_lt_of_le behind serves.sound.committed_le
  rw [← serves.dispatched] at passed
  obtain ⟨dispatch, sent, rfl⟩ := List.mem_map.mp passed
  obtain ⟨sentAtAll, own⟩ := List.mem_filter.mp sent
  obtain rfl : dispatch.group = group := by simpa using own
  obtain rfl := Option.some.inj ((serving.decoded dispatch sentAtAll).symm.trans decoded)
  obtain ⟨channel, found⟩ := List.getElem?_of_mem sentAtAll
  rcases serves.committed with nothing | ⟨last, lastDispatch, taken, foundLast, handledLast, same,
    position_eq, _⟩
  · omega
  -- Everything a group has sent before an acknowledged command is taken before it.
  have notLater : channel ≤ last := by
    by_contra later
    obtain ⟨inside, channel_eq⟩ := List.getElem?_eq_some_iff.mp found
    obtain ⟨insideLast, last_eq⟩ := List.getElem?_eq_some_iff.mp foundLast
    have increasing := List.pairwise_iff_getElem.mp serves.increasing last channel insideLast inside
      (by omega) (last_eq ▸ same) (channel_eq ▸ rfl)
    rw [last_eq, channel_eq] at increasing
    omega
  obtain ⟨handledInside, _⟩ := List.getElem?_eq_some_iff.mp handledLast
  obtain ⟨service, handled⟩ := channelled.handled_eq found (by omega)
  exact ⟨channel, service, found, handled⟩

end Serving

/-! ## How full the channel gets -/

/-- The groups of the commands in the channel. -/
def queuedGroups (pipeline : Pipeline ι P B) : List ι :=
  (pipeline.dispatches.drop pipeline.handled.length).map Dispatch.group

/-- The group still waits for what will become of its command. -/
def Waits (pipeline : Pipeline ι P B) (group : ι) : Prop :=
  (∃ message, (pipeline.groups group).consumer.control = .awaiting message) ∧
    pipeline.signals (pipeline.groups group).channel = none

/-- The groups that gave up. -/
def expiries (inputs : List (PipelineInput ι P B)) : List ι :=
  inputs.filterMap fun input =>
    match input with
    | .expire group => some group
    | _ => none

/-- A group has at most one command in the channel, and one more for each time it gave up. -/
def Bounded (expired : List ι) (pipeline : Pipeline ι P B) : Prop :=
  ∀ group, pipeline.queuedGroups.count group ≤ expired.count group + 1 ∧
    (¬ pipeline.Waits group → pipeline.queuedGroups.count group ≤ expired.count group)

section Bounded

variable {partition : Partition} {fresh : ℕ → Stamp} {pipeline before after : Pipeline ι P B}
  {input : PipelineInput ι P B} {committed : ι → ℕ} {expired : List ι}

omit [CommandFromSlice] in
/-- Where the channel stays as it is, a group may only stop waiting when it gives up. -/
theorem Bounded.congr (bounded : before.Bounded expired) {more : List ι}
    (same : after.queuedGroups = before.queuedGroups)
    (waits : ∀ group, before.Waits group → after.Waits group ∨ group ∈ more) :
    after.Bounded (expired ++ more) := by
  intro group
  obtain ⟨atMost, idle⟩ := bounded group
  rw [same, List.count_append]
  refine ⟨by omega, fun still => ?_⟩
  by_cases waited : before.Waits group
  · have gaveUp := (waits group waited).resolve_left still
    have counted := List.count_pos_iff.mpr gaveUp
    omega
  · have bound := idle waited
    omega

omit [CommandFromSlice] in
theorem waits_setConsumer_of_ne {group other : ι} (apart : other ≠ group) (consumer : Consumer) :
    (pipeline.setConsumer group consumer).Waits other ↔ pipeline.Waits other := by
  simp [Waits, setConsumer, apart]

omit [CommandFromSlice] in
/-- Sending puts one command into the channel, and its group waits for it. -/
theorem Bounded.send (bounded : before.Bounded expired) (channelled : before.Channelled fresh)
    {group : ι} (ready : ¬ before.Waits group) {consumer : Consumer} {message : Message}
    (awaits : consumer.control = .awaiting message) (commandEnvelope : CommandEnvelope) :
    (before.send group consumer message commandEnvelope).Bounded expired := by
  have length := channelled.length
  have queued : (before.send group consumer message commandEnvelope).queuedGroups =
      before.queuedGroups ++ [group] := by
    simp only [queuedGroups, Pipeline.send]
    rw [List.drop_append_of_le_length (by omega)]
    simp
  intro other
  obtain ⟨atMost, idle⟩ := bounded other
  rw [queued, List.count_append]
  by_cases same : other = group
  · subst same
    have bound := idle ready
    have silent : before.signals before.dispatches.length = none := by
      rw [channelled.signals, List.getElem?_eq_none (by omega)]
      rfl
    have waits : (before.send other consumer message commandEnvelope).Waits other := by
      simp [Waits, Pipeline.send, awaits, silent]
    refine ⟨?_, fun still => (still waits).elim⟩
    rw [List.count_singleton_self]
    omega
  · have apart : [group].count other = 0 := List.count_eq_zero.mpr (by simpa using same)
    have unmoved : (before.send group consumer message commandEnvelope).Waits other ↔
        before.Waits other := by
      simp [Waits, Pipeline.send, same]
    rw [apart, unmoved]
    exact ⟨atMost, idle⟩

/-- Taking a command empties the channel by it, and only its group may stop waiting. -/
theorem Bounded.handle (bounded : before.Bounded expired) (channelled : before.Channelled fresh)
    (serving : before.Serving partition fresh committed) {command : BrokerCommand}
    {queue : List BrokerCommand} (queued : before.queue = command :: queue) :
    (before.handle fresh command queue).Bounded expired := by
  have length := channelled.length
  rw [queued, List.length_cons] at length
  have inside : before.handled.length < before.dispatches.length := by omega
  have head : command.ack.channel = before.handled.length := by
    have channels := channelled.channels
    rw [queued, List.map_cons, List.length_cons, List.range'_succ] at channels
    exact (List.cons.inj channels).1
  have split : before.queuedGroups = before.dispatches[before.handled.length].group ::
      (before.handle fresh command queue).queuedGroups := by
    simp only [queuedGroups, Pipeline.handle, List.length_append, List.length_singleton]
    rw [List.drop_eq_getElem_cons inside, List.map_cons]
  intro other
  obtain ⟨atMost, idle⟩ := bounded other
  rw [split, List.count_cons] at atMost idle
  refine ⟨by omega, fun still => ?_⟩
  by_cases waited : before.Waits other
  · obtain ⟨⟨message, waiting⟩, silent⟩ := waited
    have own : (before.groups other).channel = before.handled.length := by
      by_contra apart
      refine still ⟨⟨message, waiting⟩, ?_⟩
      simp only [Pipeline.handle, head]
      rw [Function.update_of_ne apart]
      exact silent
    obtain ⟨commandEnvelope, found⟩ := (serving.groups other).awaited message waiting
    rw [own, List.getElem?_eq_getElem inside, Option.some.injEq] at found
    rw [found, if_pos (by simp)] at atMost
    omega
  · have bound := idle waited
    omega

theorem Bounded.step (bounded : before.Bounded expired)
    (channelled : before.Channelled fresh) (serving : before.Serving partition fresh committed)
    (stepped : Step partition fresh before input after) :
    after.Bounded (expired ++ expiries [input]) := by
  cases stepped with
  | skipped group ready next undecoded =>
      refine bounded.congr rfl fun other waits => .inl ?_
      by_cases same : other = group
      · obtain ⟨⟨message, waiting⟩, _⟩ := same ▸ waits
        cases ready.symm.trans waiting
      · exact (waits_setConsumer_of_ne same _).mpr waits
  | @sent group message commandEnvelope ready next decoded room =>
      have idle : ¬ before.Waits group := by
        rintro ⟨⟨message, waiting⟩, _⟩
        cases ready.symm.trans waiting
      have awaits : ((before.groups group).consumer.receive message false).control =
          .awaiting message := by
        rw [Consumer.receive, decoded]
        rfl
      have sent := bounded.send channelled idle awaits commandEnvelope
      exact (List.append_nil expired).symm ▸ sent
  | took queued => exact (List.append_nil expired).symm ▸ bounded.handle channelled serving queued
  | noticed group waiting signalled =>
      refine bounded.congr rfl fun other waits => .inl ?_
      by_cases same : other = group
      · obtain ⟨_, silent⟩ := same ▸ waits
        cases signalled.symm.trans silent
      · exact (waits_setConsumer_of_ne same _).mpr waits
  | expired group waiting silent =>
      refine bounded.congr rfl fun other waits => ?_
      by_cases same : other = group
      · exact .inr (by simp [expiries, same])
      · exact .inl ((waits_setConsumer_of_ne same _).mpr waits)
  | worked => exact bounded.congr rfl fun other waits => .inl waits

/-- From an empty channel on, it never holds more than one command of each group, and one for each
time a group has given up since. -/
theorem run_channel_bound [Fintype ι] {service : GameService P B}
    {front back : List (PipelineInput ι P B)}
    (ran : run partition fresh service committed front = some before) (empty : before.queue = [])
    (later : Schedule.runAll (step partition fresh) before back = some after) :
    after.queue.length ≤ Fintype.card ι + (expiries back).length := by
  have kept : after.Channelled fresh ∧ after.Serving partition fresh committed ∧
      after.Bounded (expiries back) := by
    induction back using List.reverseRecOn generalizing after with
    | nil =>
        obtain rfl := Option.some.inj later
        obtain ⟨channelled, serving⟩ := run_serving ran
        have length := channelled.length
        rw [empty, List.length_nil] at length
        have nobody : before.queuedGroups = [] := by
          rw [queuedGroups, List.drop_eq_nil_of_le (by omega), List.map_nil]
        exact ⟨channelled, serving, fun group => by simp [nobody]⟩
    | append_singleton back input induction =>
        obtain ⟨middle, early, stepped⟩ := Schedule.runAll_append_singleton_eq_some.mp later
        obtain ⟨channelled, serving, bounded⟩ := induction early
        have spec := step_spec stepped
        have split : expiries (back ++ [input]) = expiries back ++ expiries [input] :=
          List.filterMap_append
        rw [split]
        exact ⟨channelled.step spec, serving.step channelled spec,
          bounded.step channelled serving spec⟩
  obtain ⟨channelled, _, bounded⟩ := kept
  have length := channelled.length
  have queue_eq : after.queue.length = after.queuedGroups.length := by
    rw [queuedGroups, List.length_map, List.length_drop]
    omega
  have total (groups : List ι) : ∑ group, groups.count group = groups.length := by
    simpa using Multiset.sum_count_eq_card (s := Finset.univ) (m := (groups : Multiset ι)) (by simp)
  calc after.queue.length = ∑ group, after.queuedGroups.count group := by rw [queue_eq, total]
    _ ≤ ∑ group, ((expiries back).count group + 1) :=
        Finset.sum_le_sum fun group _ => (bounded group).1
    _ = Fintype.card ι + (expiries back).length := by
        rw [Finset.sum_add_distrib, total, ← Finset.card_eq_sum_ones, Finset.card_univ,
          Nat.add_comm]

end Bounded

end Pipeline

namespace Pipeline

private def joinText : Bytes :=
  ("\x7b\"id\":\"00000000-0000-0000-0000-000000000000\"," ++
    "\"game_id\":\"00000000-0000-0000-0000-000000000000\"," ++
    "\"occurred_at\":\"1970-01-01T00:00:00Z\"," ++
    "\"command\":\x7b\"JoinGame\":\x7b\"player_id\":1,\"name\":\"Ann\"\x7d\x7d\x7d").toUTF8.toList

private def joinEnvelope : CommandEnvelope := ⟨⟨0⟩, ⟨⟨0⟩⟩, ⟨0⟩, .joinGame ⟨1⟩ "Ann"⟩

/-- JSON decoding as far as the record below needs it. -/
local instance : CommandFromSlice where
  fromSlice slice := if slice = joinText then .ok joinEnvelope else .error "expected value"

private def oneJoin : Partition where
  messages := [⟨0, some joinText⟩]
  increasing := by simp

private def epoch : ℕ → Stamp := fun _ => ⟨⟨0⟩, ⟨0⟩⟩

private def emptyLobby : GameService NoopPublisher NoopBroadcaster := .build ⟨⟨0⟩⟩ .mk .mk

/-- The first group commits the join, and then the second one sends it again. -/
private def joinedTwice : List (PipelineInput (Fin consumerGroups.length) NoopPublisher
    NoopBroadcaster) :=
  [.receive firstGroup, .take, .notice firstGroup, .receive secondGroup]

private def afterBoth : Option (Pipeline (Fin consumerGroups.length) NoopPublisher
    NoopBroadcaster) :=
  run oneJoin epoch emptyLobby (fun _ => 0) joinedTwice

private theorem exists_afterBoth : ∃ after, afterBoth = some after := by
  have runs : afterBoth.isSome := by decide +kernel
  exact Option.isSome_iff_exists.mp runs

theorem run_inOrder_join : ∃ after, afterBoth = some after ∧
    after.handled.map Prod.snd ++ after.queue.map BrokerCommand.commandEnvelope =
        after.dispatches.map Dispatch.commandEnvelope ∧
      ∀ group, (after.dispatches.filter fun dispatch => dispatch.group = group).map
          Dispatch.commandEnvelope =
        (oneJoin.between 0 (after.groups group).consumer.position).filterMap Message.command := by
  obtain ⟨after, ran⟩ := exists_afterBoth
  exact ⟨after, ran, run_inOrder ran⟩

theorem run_commits_handled_join : ∃ after, afterBoth = some after ∧
    ∀ group, let position := (after.groups group).consumer.committed
      (position = 0 ∨ after.Acknowledged epoch group position) ∧
        ∀ message ∈ oneJoin.between 0 position, ∀ commandEnvelope,
          message.command = some commandEnvelope → ∃ (channel : ℕ) (found : GameService _ _),
            after.dispatches[channel]? = some ⟨group, message, commandEnvelope⟩ ∧
              after.handled[channel]? = some (found, commandEnvelope) := by
  obtain ⟨after, ran⟩ := exists_afterBoth
  exact ⟨after, ran, run_commits_handled ran⟩

theorem run_channel_bound_join : ∃ after, afterBoth = some after ∧
    after.queue.length ≤ Fintype.card (Fin consumerGroups.length) +
      (expiries joinedTwice).length := by
  have opens : (run oneJoin epoch emptyLobby (fun _ => 0)
      ([] : List (PipelineInput (Fin consumerGroups.length) _ _))) =
        some (start emptyLobby fun _ => 0) := rfl
  obtain ⟨after, ran⟩ := exists_afterBoth
  have later : Schedule.runAll (step oneJoin epoch) (start emptyLobby fun _ => 0) joinedTwice =
      some after := ran
  exact ⟨after, ran, run_channel_bound opens rfl later⟩

end Pipeline

end TicTacTussle
