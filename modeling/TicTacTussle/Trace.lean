import TicTacTussle.Authenticity
import TicTacTussle.Schedule

/-!
# The moment of a call

Every call of a run was handled at one moment of one tick: for a connection event, for a message
taken from a client, or for a command delivered again.  What holds at these moments is what can be
said of a call and of the log it found.
-/

namespace TicTacTussle

open Wire GameDecider

/-- The client of a connection event. -/
def ServerEvent.clientId : ServerEvent → UInt64
  | .clientConnected clientId | .clientDisconnected clientId => clientId

/-- The command that an event reports. -/
def GameEvent.cause : GameEvent → Option GameCommand
  | .playerJoined playerId name => some (.joinGame playerId name)
  | .tilePlaced playerId cell => some (.placeTile playerId cell)
  | .playerLeft playerId => some (.leaveGame playerId)
  | .gameStarted _ | .gameEnded _ => none

/-- The events of an accepted command report this command. -/
theorem Session.Step.cause {session after : Session} {command : GameCommand}
    {events : List GameEvent} (step : Session.Step session command events after) :
    ∀ event ∈ events, ∀ caused, event.cause = some caused → caused = command := by
  cases step <;> simp [GameEvent.cause, eq_comm]

namespace GameLoop

section Trace

variable {E P : Type} [Anyhow E] [EventPublisher E P] [Bincode]

/-- The call that a command of a client is wrapped in. -/
def wrap (clock : ℕ → Stamp) (loop : GameLoop E P) (clientId : UInt64) (command : GameCommand) :
    Call :=
  ⟨some clientId, .new (clock loop.calls.length) loop.gameId command⟩

/-- The loop when some connection events of a tick are handled. -/
def connecting (fresh clock : ℕ → Stamp) (loop : GameLoop E P) (input : TickInput)
    (done : List ServerEvent) : GameLoop E P :=
  done.foldl (handleConnection fresh clock) (loop.update input.changes).takeEvents.1

/-- The loop when the connection events of a tick are handled. -/
def connected (fresh clock : ℕ → Stamp) (loop : GameLoop E P) (input : TickInput) : GameLoop E P :=
  (loop.update input.changes).handleConnections fresh clock

/-- The loop when some messages of a tick are handled. -/
def receiving (fresh clock : ℕ → Stamp) (loop : GameLoop E P) (input : TickInput)
    (done : List (UInt64 × Bytes)) : GameLoop E P :=
  done.foldl (handleMessage fresh clock)
    ((loop.connected fresh clock input).takeMessages input.polled).1

/-- The loop when the messages of a tick are handled. -/
def drained (fresh clock : ℕ → Stamp) (loop : GameLoop E P) (input : TickInput) : GameLoop E P :=
  (loop.connected fresh clock input).drainClientCommands fresh clock input.polled

/-- The loop when some delivered commands of a tick are handled. -/
def delivering (fresh clock : ℕ → Stamp) (loop : GameLoop E P) (input : TickInput)
    (done : List Call) : GameLoop E P :=
  done.foldl (handle fresh) (loop.drained fresh clock input)

/-- The call is handled in a tick that finds this loop, at this moment. -/
inductive Handles (fresh clock : ℕ → Stamp) (loop : GameLoop E P) (input : TickInput) :
    GameLoop E P → Call → Prop
  | connection {done pending : List ServerEvent} (event : ServerEvent) :
      (loop.update input.changes).takeEvents.2 = done ++ event :: pending →
      Handles fresh clock loop input (loop.connecting fresh clock input done)
        ((loop.connecting fresh clock input done).wrap clock event.clientId
          ((loop.connecting fresh clock input done).connectionCommand event))
  | message {done left : List (UInt64 × Bytes)} (message : UInt64 × Bytes)
      (command : GameCommand) :
      ((loop.connected fresh clock input).takeMessages input.polled).2 = done ++ message :: left →
      Bincode.decodeCommand message.2 = .ok command →
      Handles fresh clock loop input (loop.receiving fresh clock input done)
        ((loop.receiving fresh clock input done).wrap clock message.1 command)
  | delivery {done left : List Call} (call : Call) :
      (loop.drained fresh clock input).delivered input.deliveries = done ++ call :: left →
      Handles fresh clock loop input (loop.delivering fresh clock input done) call

theorem handleConnection_gameId (fresh clock : ℕ → Stamp) (loop : GameLoop E P)
    (event : ServerEvent) : (loop.handleConnection fresh clock event).gameId = loop.gameId := by
  cases event <;> rfl

theorem handleConnection_transport (fresh clock : ℕ → Stamp) (loop : GameLoop E P)
    (event : ServerEvent) :
    (loop.handleConnection fresh clock event).transport = loop.transport := by
  cases event <;> rfl

theorem handleMessage_gameId (fresh clock : ℕ → Stamp) (loop : GameLoop E P)
    (message : UInt64 × Bytes) : (loop.handleMessage fresh clock message).gameId = loop.gameId := by
  rw [handleMessage]
  split <;> rfl

theorem handleMessage_transport (fresh clock : ℕ → Stamp) (loop : GameLoop E P)
    (message : UInt64 × Bytes) :
    (loop.handleMessage fresh clock message).transport = loop.transport := by
  rw [handleMessage]
  split <;> rfl

omit [Anyhow E] [EventPublisher E P] [Bincode] in
theorem takeMessages_keeps (loop : GameLoop E P) (polled : List UInt64) :
    (loop.takeMessages polled).1.gameId = loop.gameId ∧
      (loop.takeMessages polled).1.transport = loop.transport := by
  induction polled generalizing loop with
  | nil => exact ⟨rfl, rfl⟩
  | cons clientId polled induction => exact induction _

omit [Anyhow E] [EventPublisher E P] [Bincode] in
theorem update_gameId (loop : GameLoop E P) (changes : List NetworkChange) :
    (loop.update changes).gameId = loop.gameId :=
  Schedule.foldl_keeps gameId (fun loop change => by cases change <;> rfl) loop changes

theorem connecting_keeps (fresh clock : ℕ → Stamp) (loop : GameLoop E P) (input : TickInput)
    (done : List ServerEvent) :
    (loop.connecting fresh clock input done).gameId = loop.gameId ∧
      (loop.connecting fresh clock input done).transport =
        (loop.update input.changes).transport :=
  ⟨(Schedule.foldl_keeps gameId (handleConnection_gameId fresh clock) _ done).trans
      (loop.update_gameId input.changes),
    Schedule.foldl_keeps transport (handleConnection_transport fresh clock) _ done⟩

theorem receiving_keeps (fresh clock : ℕ → Stamp) (loop : GameLoop E P) (input : TickInput)
    (done : List (UInt64 × Bytes)) :
    (loop.receiving fresh clock input done).gameId = loop.gameId ∧
      (loop.receiving fresh clock input done).transport =
        (loop.update input.changes).transport := by
  obtain ⟨ownGame, names⟩ := loop.connecting_keeps fresh clock input
    (loop.update input.changes).takeEvents.2
  obtain ⟨sameId, sameTransport⟩ := (loop.connected fresh clock input).takeMessages_keeps
    input.polled
  exact ⟨(Schedule.foldl_keeps gameId (handleMessage_gameId fresh clock) _ done).trans
      (sameId.trans ownGame),
    (Schedule.foldl_keeps transport (handleMessage_transport fresh clock) _ done).trans
      (sameTransport.trans names)⟩

theorem delivering_keeps (fresh clock : ℕ → Stamp) (loop : GameLoop E P) (input : TickInput)
    (done : List Call) :
    (loop.delivering fresh clock input done).gameId = loop.gameId ∧
      (loop.delivering fresh clock input done).transport =
        (loop.update input.changes).transport := by
  obtain ⟨ownGame, names⟩ := loop.receiving_keeps fresh clock input
    ((loop.connected fresh clock input).takeMessages input.polled).2
  have sameGame (moment : GameLoop E P) (call : Call) :
      (moment.handle fresh call).gameId = moment.gameId := rfl
  have sameNames (moment : GameLoop E P) (call : Call) :
      (moment.handle fresh call).transport = moment.transport := rfl
  exact ⟨(Schedule.foldl_keeps GameLoop.gameId sameGame _ done).trans ownGame,
    (Schedule.foldl_keeps GameLoop.transport sameNames _ done).trans names⟩

theorem Handles.gameId {fresh clock : ℕ → Stamp} {loop moment : GameLoop E P} {input : TickInput}
    {call : Call} (handles : Handles fresh clock loop input moment call) :
    moment.gameId = loop.gameId := by
  cases handles with
  | connection => exact (loop.connecting_keeps fresh clock input _).1
  | message => exact (loop.receiving_keeps fresh clock input _).1
  | delivery => exact (loop.delivering_keeps fresh clock input _).1

theorem handleConnection_calls (fresh clock : ℕ → Stamp) (loop : GameLoop E P)
    (event : ServerEvent) :
    (loop.handleConnection fresh clock event).calls = loop.calls ++
      (some (loop.wrap clock event.clientId (loop.connectionCommand event))).toList := by
  cases event <;> rfl

theorem handleMessage_calls (fresh clock : ℕ → Stamp) (loop : GameLoop E P)
    (message : UInt64 × Bytes) :
    (loop.handleMessage fresh clock message).calls = loop.calls ++
      ((Bincode.decodeCommand message.2).toOption.map (loop.wrap clock message.1)).toList := by
  rw [handleMessage]
  cases Bincode.decodeCommand message.2 with
  | ok command => rfl
  | error text => exact (List.append_nil _).symm

omit [Anyhow E] [EventPublisher E P] [Bincode] in
theorem takeMessages_calls (loop : GameLoop E P) (polled : List UInt64) :
    (loop.takeMessages polled).1.calls = loop.calls := by
  induction polled generalizing loop with
  | nil => rfl
  | cons clientId polled induction => exact induction _

omit [Anyhow E] [EventPublisher E P] [Bincode] in
theorem update_calls (loop : GameLoop E P) (changes : List NetworkChange) :
    (loop.update changes).calls = loop.calls := by
  induction changes generalizing loop with
  | nil => rfl
  | cons change changes induction =>
      refine (induction (loop.applyChange change)).trans ?_
      cases change <;> rfl

variable (fresh clock : ℕ → Stamp) (loop : GameLoop E P)

theorem calls_prefix_handleConnection (event : ServerEvent) :
    loop.calls <+: (loop.handleConnection fresh clock event).calls := by
  rw [handleConnection_calls]
  exact List.prefix_append _ _

theorem calls_prefix_handleMessage (message : UInt64 × Bytes) :
    loop.calls <+: (loop.handleMessage fresh clock message).calls := by
  rw [handleMessage_calls]
  exact List.prefix_append _ _

theorem calls_prefix_handle (call : Call) : loop.calls <+: (loop.handle fresh call).calls :=
  List.prefix_append _ _

theorem calls_prefix_connected (input : TickInput) :
    loop.calls <+: (loop.connected fresh clock input).calls := by
  have grown := Schedule.prefix_foldl (calls_prefix_handleConnection fresh clock)
    (loop.update input.changes).takeEvents.1 (loop.update input.changes).takeEvents.2
  rw [show (loop.update input.changes).takeEvents.1.calls = loop.calls from
    loop.update_calls input.changes] at grown
  exact grown

theorem calls_prefix_drained (input : TickInput) :
    (loop.connected fresh clock input).calls <+: (loop.drained fresh clock input).calls := by
  have grown := Schedule.prefix_foldl (calls_prefix_handleMessage fresh clock)
    ((loop.connected fresh clock input).takeMessages input.polled).1
    ((loop.connected fresh clock input).takeMessages input.polled).2
  rw [takeMessages_calls] at grown
  exact grown

theorem calls_prefix_tick (input : TickInput) :
    loop.calls <+: (loop.tick fresh clock input).calls :=
  ((loop.calls_prefix_connected fresh clock input).trans
    (loop.calls_prefix_drained fresh clock input)).trans
    (Schedule.prefix_foldl (calls_prefix_handle fresh) _ _)

omit [Anyhow E] [EventPublisher E P] in
theorem Fed.mono {loop : GameLoop E P} {changes more : List NetworkChange}
    (fed : loop.Fed changes) (subset : changes ⊆ more) : loop.Fed more where
  waiting :=
    { events := fun event queued => by
        have reported := fed.waiting.events event queued
        cases event with
        | clientConnected clientId =>
            obtain ⟨name, member⟩ := reported
            exact ⟨name, subset member⟩
        | clientDisconnected clientId => exact subset reported
      inbox := fun clientId bytes waits => subset (fed.waiting.inbox clientId bytes waits) }
  called call member := by
    obtain ⟨change, changed, causes⟩ := fed.called call member
    exact ⟨change, subset changed, causes⟩

/-- The messages that a tick takes come from the changes so far. -/
theorem run_taken (fresh clock : ℕ → Stamp) (gameId : GameId) (publisher : P)
    {early : List TickInput} (networkFed : NetworkFed early) (input : TickInput) :
    ∀ message ∈ ((((start gameId publisher : GameLoop E P).run fresh clock early).connected fresh
        clock input).takeMessages input.polled).2,
      .message message.1 message.2 ∈ (early ++ [input]).flatMap TickInput.changes := by
  have fed := run_fed (E := E) fresh clock gameId publisher networkFed
  rw [List.flatMap_append, List.flatMap_singleton]
  have updated := (fed.mono (List.subset_append_left _ _)).update
    (List.subset_append_right (early.flatMap TickInput.changes) input.changes)
  let loop := ((start gameId publisher : GameLoop E P).run fresh clock early).update input.changes
  have taken : loop.takeEvents.1.Fed (early.flatMap TickInput.changes ++ input.changes) :=
    ⟨⟨fun event queued => (by cases queued), updated.waiting.inbox⟩, updated.called⟩
  have connected : (loop.handleConnections fresh clock).Fed
      (early.flatMap TickInput.changes ++ input.changes) := by
    apply List.foldlRecOn (motive := fun moment : GameLoop E P => moment.Fed _) _ _ taken
    intro moment momentFed event queued
    exact momentFed.handleConnection fresh clock (updated.waiting.events event queued)
  exact (connected.takeMessages input.polled).2

omit [Anyhow E] [EventPublisher E P] [Bincode] in
/-- What the network alone feeds is delivered again only after it was called. -/
theorem delivered_again {loop : GameLoop E P} {deliveries : List Delivery}
    (networkFed : ∀ delivery ∈ deliveries, ∃ call, delivery.record = .again call) :
    ∀ call ∈ loop.delivered deliveries, call ∈ loop.calls := by
  intro call member
  obtain ⟨delivery, listed, resolved⟩ := List.mem_filterMap.mp member
  obtain ⟨index, again⟩ := networkFed delivery listed
  rw [again] at resolved
  exact List.mem_of_getElem? resolved

/-- A delivered call stands among the calls already when it is handled again. -/
theorem mem_calls_delivering {fresh clock : ℕ → Stamp} {loop : GameLoop E P} {input : TickInput}
    (networkFed : ∀ delivery ∈ input.deliveries, ∃ call, delivery.record = .again call)
    {done left : List Call} {call : Call}
    (delivered : (loop.drained fresh clock input).delivered input.deliveries =
      done ++ call :: left) : call ∈ (loop.delivering fresh clock input done).calls := by
  have grown : (loop.drained fresh clock input).calls <+:
      (loop.delivering fresh clock input done).calls :=
    Schedule.prefix_foldl (calls_prefix_handle fresh) _ _
  apply grown.subset
  apply delivered_again networkFed
  rw [delivered]
  simp

/-- A call that a tick appends is handled at a moment of the tick. -/
theorem exists_handles_tick {fresh clock : ℕ → Stamp} {loop : GameLoop E P} {input : TickInput}
    {front back : List Call} {call : Call}
    (split : (loop.tick fresh clock input).calls = front ++ call :: back)
    (recent : loop.calls.length ≤ front.length) :
    ∃ moment, Handles fresh clock loop input moment call ∧ moment.calls = front := by
  have delivers : (loop.drained fresh clock input).calls <+: front ++ call :: back := by
    rw [← split]
    exact Schedule.prefix_foldl (calls_prefix_handle fresh) _ _
  have receives := (loop.calls_prefix_drained fresh clock input).trans delivers
  rcases Nat.lt_or_ge front.length (loop.connected fresh clock input).calls.length with
    connects | connected
  · obtain ⟨rest, whole⟩ := Schedule.exists_split_of_prefix receives connects
    have early : (loop.update input.changes).takeEvents.1.calls.length ≤ front.length :=
      (congrArg List.length (loop.update_calls input.changes)).le.trans recent
    obtain ⟨done, event, pending, queued, calls_eq, appended⟩ :=
      Schedule.exists_recorded (handleConnection_calls fresh clock) early whole
    obtain rfl := Option.some.inj appended
    exact ⟨_, .connection event queued, calls_eq⟩
  rcases Nat.lt_or_ge front.length (loop.drained fresh clock input).calls.length with
    drains | drained
  · obtain ⟨rest, whole⟩ := Schedule.exists_split_of_prefix delivers drains
    have early : ((loop.connected fresh clock input).takeMessages input.polled).1.calls.length ≤
        front.length :=
      (congrArg List.length (takeMessages_calls _ _)).le.trans connected
    obtain ⟨done, message, left, taken, calls_eq, appended⟩ :=
      Schedule.exists_recorded (handleMessage_calls fresh clock) early whole
    obtain ⟨command, decoded, rfl⟩ := Option.map_eq_some_iff.mp appended
    cases result : Bincode.decodeCommand message.2 with
    | error text =>
        rw [result] at decoded
        cases decoded
    | ok sent =>
        rw [result] at decoded
        obtain rfl := Option.some.inj decoded
        exact ⟨_, .message message sent taken result, calls_eq⟩
  · have handles (moment : GameLoop E P) (item : Call) :
        (moment.handle fresh item).calls = moment.calls ++ (some item).toList := rfl
    obtain ⟨done, item, left, delivered, calls_eq, appended⟩ :=
      Schedule.exists_recorded handles drained split
    obtain rfl := Option.some.inj appended
    exact ⟨_, .delivery _ delivered, calls_eq⟩

end Trace

end GameLoop

end TicTacTussle
