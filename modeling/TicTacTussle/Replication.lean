import TicTacTussle.Client
import TicTacTussle.GameLoop

/-!
# Replication to the clients

A connected client whose connection event was handled should have been sent exactly the log.  The
connected set changes for a whole tick at once, while the catch-ups follow one by one: an event
appended while the catch-up of a connected client is still pending reaches that client twice.  These
are the only runs in which replication fails.
-/

namespace TicTacTussle

open Wire GameDecider

namespace GameLoop

variable {E P : Type}

theorem update_queues (loop : GameLoop E P) (empty : loop.server.events = [])
    (changes : List NetworkChange) : loop.server.Queues (loop.update changes).server := by
  induction changes using List.reverseRecOn with
  | nil => exact .refl empty
  | append_singleton changes change induction =>
      rw [update, List.foldl_append]
      cases change with
      | connect clientId name => exact induction.addConnection clientId
      | disconnect clientId => exact induction.removeConnection clientId
      | message clientId bytes => exact induction.processMessage clientId bytes

/-- No connected client waits for its catch-up. -/
def NoneWaits (loop : GameLoop E P) (pending : List ServerEvent) : Prop :=
  ∀ clientId, loop.server.IsConnected clientId → .clientConnected clientId ∉ pending

variable [Bincode]

/-- The loop appended events, broadcast them, and before that sent some clients their catch-up. -/
structure Extends (before after : GameLoop E P) (appended : List GameEvent)
    (caught : UInt64 → List GameEvent) : Prop where
  log : after.log = before.log ++ appended
  spreads : before.server.Spreads after.server fun clientId => caught clientId ++ appended

/-- What handling a connection event appends and sends. -/
structure Connects (before after : GameLoop E P) (event : ServerEvent)
    (appended : List GameEvent) : Prop extends
    before.Extends after appended fun clientId =>
      if event = .clientConnected clientId then before.log else [] where
  refused : appended = [] ↔ decider.Refuses before.log (before.connectionCommand event)

/-- What a connected client was sent, and what it made of it, is the log. -/
structure Replicated (loop : GameLoop E P) (clientId : UInt64) : Prop where
  sent : loop.server.heard clientId = loop.log.map .ok
  folded : Replica.new.receiveServerEvents (loop.server.sent clientId) =
    ⟨GameDecider.hydrate loop.log, loop.log⟩

/-- Every connected client is in step with the log, or waits for its catch-up with nothing sent. -/
def Synced (loop : GameLoop E P) (pending : List ServerEvent) : Prop :=
  ∀ clientId, loop.server.IsConnected clientId →
    (.clientConnected clientId ∉ pending → loop.server.heard clientId = loop.log.map .ok) ∧
      (.clientConnected clientId ∈ pending → loop.server.heard clientId = [])

/-- Events appended while nobody waits leave everybody in step. -/
theorem Extends.synced {before after : GameLoop E P} {appended : List GameEvent}
    {caught : UInt64 → List GameEvent} (extension : before.Extends after appended caught)
    (plain : ∀ clientId, caught clientId = []) (synced : before.Synced []) : after.Synced [] := by
  intro clientId connected
  refine ⟨fun _ => ?_, fun waits => by cases waits⟩
  have stayed := (extension.spreads.connected clientId).mp connected
  have heard := (synced clientId stayed).1 List.not_mem_nil
  rw [extension.spreads.heard clientId stayed, heard, extension.log, plain, List.nil_append,
    List.map_append]

/-- Handling a connection event keeps the invariant as long as what it appends reaches only clients
whose catch-up is done. -/
theorem Connects.synced {before after : GameLoop E P} {event : ServerEvent}
    {appended : List GameEvent} (connects : before.Connects after event appended)
    {pending : List ServerEvent} (synced : before.Synced (event :: pending))
    (once : ∀ clientId, event = .clientConnected clientId → before.server.IsConnected clientId →
      .clientConnected clientId ∉ pending)
    (quiet : ¬ decider.Refuses before.log (before.connectionCommand event) →
      before.NoneWaits pending) : after.Synced pending := by
  intro clientId connected
  have stayed := (connects.spreads.connected clientId).mp connected
  have heard := connects.spreads.heard clientId stayed
  have invariant := synced clientId stayed
  by_cases own : event = .clientConnected clientId
  · have nothing : before.server.heard clientId = [] :=
      invariant.2 (own ▸ List.mem_cons_self)
    rw [nothing, if_pos own, ← connects.log] at heard
    exact ⟨fun _ => heard, fun waits => (once clientId own stayed waits).elim⟩
  · rw [if_neg own, List.nil_append] at heard
    refine ⟨fun caughtUp => ?_, fun waits => ?_⟩
    · have before_heard : before.server.heard clientId = before.log.map .ok := by
        apply invariant.1
        rw [List.mem_cons, not_or]
        exact ⟨Ne.symm own, caughtUp⟩
      rw [heard, before_heard, connects.log, List.map_append]
    · have refused : decider.Refuses before.log (before.connectionCommand event) := by
        by_contra accepted
        exact quiet accepted clientId stayed waits
      have nothing := connects.refused.mpr refused
      have before_heard := invariant.2 (List.mem_cons_of_mem _ waits)
      rw [heard, before_heard, nothing]
      rfl

theorem Connects.length {before after : GameLoop E P} {event : ServerEvent}
    {appended : List GameEvent} (connects : before.Connects after event appended)
    {clientId : UInt64} (connected : before.server.IsConnected clientId) :
    after.log.length = before.log.length + appended.length ∧
      (after.server.heard clientId).length = (before.server.heard clientId).length +
        (if event = .clientConnected clientId then before.log.length else 0) + appended.length := by
  rw [connects.log, connects.spreads.heard clientId connected]
  by_cases own : event = .clientConnected clientId
  · simp [own, Nat.add_assoc]
  · simp [own]

theorem takeMessages_spreads (loop : GameLoop E P) (polled : List UInt64) :
    loop.server.Spreads (loop.takeMessages polled).1.server fun _ => [] := by
  induction polled generalizing loop with
  | nil => exact .refl loop.server
  | cons clientId polled induction =>
      have later := induction (loop.withServer (loop.server.receiveMessages clientId).1)
      exact (loop.server.spreads_receiveMessages clientId).trans later

theorem takeMessages_extends (loop : GameLoop E P) (polled : List UInt64) :
    loop.Extends (loop.takeMessages polled).1 [] fun _ => [] where
  log := (loop.takeMessages_log polled).trans (List.append_nil _).symm
  spreads := loop.takeMessages_spreads polled

/-- Between two ticks every connected client is in step and no connection event is left. -/
structure Idle (loop : GameLoop E P) : Prop where
  synced : loop.Synced []
  events : loop.server.events = []

theorem idle_start (gameId : GameId) (publisher : P) :
    (start gameId publisher : GameLoop E P).Idle where
  synced clientId connected := by cases connected
  events := rfl

theorem Extends.idle {before after : GameLoop E P} {appended : List GameEvent}
    (extension : before.Extends after appended fun _ => []) (idle : before.Idle) : after.Idle where
  synced := extension.synced (fun _ => rfl) idle.synced
  events := extension.spreads.events.trans idle.events

/-- Steps that only broadcast what they append keep the loop idle. -/
theorem Idle.foldl {α : Type} {step : GameLoop E P → α → GameLoop E P}
    (grows : ∀ loop item, loop.log <+: (step loop item).log)
    (broadcasts : ∀ loop item, (∀ event ∈ (step loop item).log, Sendable event) →
      ∃ appended, loop.Extends (step loop item) appended fun _ => [])
    {loop : GameLoop E P} (idle : loop.Idle) (items : List α)
    (sends : ∀ event ∈ (items.foldl step loop).log, Sendable event) :
    (items.foldl step loop).Idle := by
  induction items generalizing loop with
  | nil => exact idle
  | cons item items induction =>
      have early := log_prefix_foldl grows (step loop item) items
      obtain ⟨appended, extension⟩ := broadcasts loop item fun event member =>
        sends event (early.subset member)
      exact induction (extension.idle idle) sends

/-- The changes of a tick leave the clients in step that were connected, and send nothing to those
that are new. -/
theorem Idle.opened {loop : GameLoop E P} (idle : loop.Idle) (changes : List NetworkChange) :
    (loop.update changes).takeEvents.1.Synced (loop.update changes).takeEvents.2 := by
  have queues := loop.update_queues idle.events changes
  have log_eq : (loop.update changes).takeEvents.1.log = loop.log := loop.update_log changes
  intro clientId connected
  refine ⟨fun absent => ?_, fun waits => ?_⟩
  · obtain ⟨stayed, sent_eq⟩ := queues.kept clientId connected absent
    have heard := (idle.synced clientId stayed).1 List.not_mem_nil
    rw [log_eq, ← heard]
    exact congrArg (List.map Bincode.decodeEvent) sent_eq
  · exact congrArg (List.map Bincode.decodeEvent) (queues.recent clientId connected waits)

end GameLoop

/-! ## What one step appends and sends -/

theorem Session.Step.events_ne_nil {session after : Session} {command : GameCommand}
    {events : List GameEvent} (step : Session.Step session command events after) : events ≠ [] := by
  cases step <;> simp

namespace GameLoop

variable {E P : Type} [Anyhow E] [Bincode]

theorem catchUp_extends (loop : GameLoop E P) (receiver : UInt64)
    (sendable : ∀ event ∈ loop.log, Sendable event) :
    loop.Extends (loop.catchUp receiver) []
      fun clientId => if clientId = receiver then loop.log else [] := by
  have sent : ∀ envelope ∈ loop.service.store.snapshot, Sendable envelope.event :=
    fun envelope member => sendable _ (List.mem_map_of_mem member)
  refine ⟨(List.append_nil _).symm, ?_⟩
  have spreads := spreads_sendAll receiver loop.service.broadcaster sent
  apply RenetServer.Spreads.congr spreads
  intro clientId
  exact (List.append_nil _).symm

variable [EventPublisher E P]

/-- One call of `handle` broadcasts what it appends. -/
theorem handle_extends (fresh : ℕ → Stamp) (loop : GameLoop E P) (call : Call)
    (sendable : ∀ event ∈ (loop.handle fresh call).log, Sendable event) :
    ∃ appended, loop.Extends (loop.handle fresh call) appended fun _ => [] := by
  rcases loop.handle_cases fresh call with same | ⟨events, grown, broadcaster⟩
  · refine ⟨[], ?_, ?_⟩
    · rw [log, same, List.append_nil]
      rfl
    · rw [server, server, same]
      exact .refl _
  · have sent : ∀ event ∈ events, Sendable event := by
      intro event member
      apply sendable
      rw [grown]
      exact List.mem_append_right _ member
    refine ⟨events, grown, ?_⟩
    rw [broadcaster]
    exact spreads_broadcastAll loop.service.broadcaster sent

/-- A submitted command appends nothing exactly when the decider refuses it. -/
theorem submit_extends (fresh clock : ℕ → Stamp) (loop : GameLoop E P) (clientId : UInt64)
    (command : GameCommand)
    (sendable : ∀ event ∈ (loop.submit fresh clock clientId command).log, Sendable event) :
    ∃ appended, loop.Extends (loop.submit fresh clock clientId command) appended (fun _ => []) ∧
      (appended = [] ↔ decider.Refuses loop.log command) := by
  obtain ⟨appended, extension⟩ := handle_extends fresh _ _ sendable
  have log_eq : decider.next loop.log command = loop.log ++ appended :=
    (loop.submit_log fresh clock clientId command).symm.trans extension.log
  refine ⟨appended, ⟨extension.log, extension.spreads⟩, ?_⟩
  obtain ⟨session, history⟩ := loop.exists_session
  rcases history.next command with ⟨refused, unchanged⟩ | ⟨events, after, step, grown, _⟩
  · have nothing : appended = [] := by simpa [unchanged] using log_eq
    exact ⟨fun _ => refused, fun _ => nothing⟩
  · have same : events = appended := by simpa [grown] using log_eq
    subst same
    refine ⟨fun nothing => (step.events_ne_nil nothing).elim, fun refused => ?_⟩
    exact ((history.refuses_iff command).mp refused events after step).elim

theorem handleConnection_connects (fresh clock : ℕ → Stamp) (loop : GameLoop E P)
    (event : ServerEvent)
    (sendable : ∀ event' ∈ (loop.handleConnection fresh clock event).log, Sendable event') :
    ∃ appended, loop.Connects (loop.handleConnection fresh clock event) event appended := by
  cases event with
  | clientConnected receiver =>
      have early : ∀ event ∈ loop.log, Sendable event := fun event member =>
        sendable event ((loop.log_prefix_handleConnection fresh clock _).subset member)
      have caught := loop.catchUp_extends receiver early
      obtain ⟨appended, submitted, refused⟩ :=
        (loop.catchUp receiver).submit_extends fresh clock receiver
          (loop.connectionCommand (.clientConnected receiver)) sendable
      refine ⟨appended, ⟨submitted.log, ?_⟩, refused⟩
      apply (caught.spreads.trans submitted.spreads).congr
      intro clientId
      by_cases same : clientId = receiver
      · simp [same]
      · simp [same, Ne.symm same]
  | clientDisconnected leaver =>
      obtain ⟨appended, submitted, refused⟩ :=
        loop.submit_extends fresh clock leaver
          (loop.connectionCommand (.clientDisconnected leaver)) sendable
      refine ⟨appended, ⟨submitted.log, ?_⟩, refused⟩
      apply submitted.spreads.congr
      intro clientId
      simp

theorem handleMessage_extends (fresh clock : ℕ → Stamp) (loop : GameLoop E P)
    (message : UInt64 × Bytes)
    (sendable : ∀ event ∈ (loop.handleMessage fresh clock message).log, Sendable event) :
    ∃ appended, loop.Extends (loop.handleMessage fresh clock message) appended fun _ => [] := by
  cases decoded : Bincode.decodeCommand message.2 with
  | ok command =>
      have same : loop.handleMessage fresh clock message =
          loop.submit fresh clock message.1 command := by rw [handleMessage, decoded]
      rw [same] at sendable ⊢
      obtain ⟨appended, extension, _⟩ := loop.submit_extends fresh clock message.1 command sendable
      exact ⟨appended, extension⟩
  | error text =>
      have same : loop.handleMessage fresh clock message = loop := by rw [handleMessage, decoded]
      rw [same]
      exact ⟨[], (List.append_nil _).symm, .refl loop.server⟩

/-! ## The moments of a run -/

/-- The states a run passes through after handling some connection events, messages or delivered
commands of a tick, with the connection events of the tick that are still to be handled. -/
inductive Visits (fresh clock : ℕ → Stamp) :
    GameLoop E P → List TickInput → GameLoop E P → List ServerEvent → Prop
  | connecting {loop : GameLoop E P} {input : TickInput} {rest : List TickInput}
      {done pending : List ServerEvent} :
      (loop.update input.changes).takeEvents.2 = done ++ pending →
      Visits fresh clock loop (input :: rest)
        (done.foldl (handleConnection fresh clock) (loop.update input.changes).takeEvents.1) pending
  | receiving {loop connected : GameLoop E P} {input : TickInput} {rest : List TickInput}
      {done left : List (UInt64 × Bytes)} :
      connected = (loop.update input.changes).handleConnections fresh clock →
      (connected.takeMessages input.polled).2 = done ++ left →
      Visits fresh clock loop (input :: rest)
        (done.foldl (handleMessage fresh clock) (connected.takeMessages input.polled).1) []
  | delivering {loop drained : GameLoop E P} {input : TickInput} {rest : List TickInput}
      {done left : List Call} :
      drained =
        ((loop.update input.changes).handleConnections fresh clock).drainClientCommands fresh
        clock input.polled →
      drained.delivered input.deliveries = done ++ left →
      Visits fresh clock loop (input :: rest) (done.foldl (handle fresh) drained) []
  | later {loop moment : GameLoop E P} {input : TickInput} {rest : List TickInput}
      {pending : List ServerEvent} :
      Visits fresh clock (loop.tick fresh clock input) rest moment pending →
      Visits fresh clock loop (input :: rest) moment pending

/-- No send fails. -/
def SendsSucceed (fresh clock : ℕ → Stamp) (loop : GameLoop E P) (inputs : List TickInput) : Prop :=
  ∀ moment pending, Visits fresh clock loop inputs moment pending →
    ∀ event ∈ moment.log, Sendable event

/-- No connection event whose command is accepted is handled while a connected client waits for its
catch-up. -/
def Quiet (fresh clock : ℕ → Stamp) (loop : GameLoop E P) (inputs : List TickInput) : Prop :=
  ∀ moment event pending, Visits fresh clock loop inputs moment (event :: pending) →
    ¬ decider.Refuses moment.log (moment.connectionCommand event) → moment.NoneWaits pending

/-- The next connection event of a tick is one step from the moment before it. -/
theorem connecting_step {fresh clock : ℕ → Stamp} {loop : GameLoop E P} {input : TickInput}
    {rest : List TickInput} (sends : SendsSucceed fresh clock loop (input :: rest))
    {done pending : List ServerEvent} {event : ServerEvent}
    (split : (loop.update input.changes).takeEvents.2 = done ++ event :: pending) :
    let opened := (loop.update input.changes).takeEvents.1
    let moment := done.foldl (handleConnection fresh clock) opened
    let after := moment.handleConnection fresh clock event
    (loop.update input.changes).takeEvents.2 = (done ++ [event]) ++ pending ∧
      (done ++ [event]).foldl (handleConnection fresh clock) opened = after ∧
        ∃ appended, moment.Connects after event appended := by
  intro opened moment after
  have grown : (loop.update input.changes).takeEvents.2 = (done ++ [event]) ++ pending := by
    rw [split, List.append_assoc, List.singleton_append]
  have after_eq : (done ++ [event]).foldl (handleConnection fresh clock) opened = after := by
    rw [List.foldl_append, List.foldl_cons, List.foldl_nil]
  have sendable := sends _ pending (.connecting grown)
  rw [after_eq] at sendable
  exact ⟨grown, after_eq, handleConnection_connects fresh clock moment event sendable⟩

/-- Connected clients stay connected, and the queue empty, while connection events are handled. -/
theorem connecting_connected (fresh clock : ℕ → Stamp) {loop : GameLoop E P} {input : TickInput}
    {rest : List TickInput} (sends : SendsSucceed fresh clock loop (input :: rest))
    {done pending : List ServerEvent}
    (split : (loop.update input.changes).takeEvents.2 = done ++ pending) :
    let opened := (loop.update input.changes).takeEvents.1
    let moment := done.foldl (handleConnection fresh clock) opened
    moment.server.events = [] ∧
      ∀ clientId, moment.server.IsConnected clientId ↔ opened.server.IsConnected clientId := by
  induction done using List.reverseRecOn generalizing pending with
  | nil => exact ⟨rfl, fun _ => Iff.rfl⟩
  | append_singleton done event induction =>
      intro opened moment
      have earlier : (loop.update input.changes).takeEvents.2 = done ++ event :: pending := by
        rw [split, List.append_assoc, List.singleton_append]
      obtain ⟨empty, connected⟩ := induction earlier
      obtain ⟨_, moment_eq, appended, connects⟩ := connecting_step sends earlier
      rw [show moment = _ from moment_eq]
      refine ⟨connects.spreads.events.trans empty, fun clientId => ?_⟩
      exact (connects.spreads.connected clientId).trans (connected clientId)

/-- In a quiet tick no client that stays connected has two connection events. -/
theorem Quiet.once {fresh clock : ℕ → Stamp} {loop : GameLoop E P} {input : TickInput}
    {rest : List TickInput} (quiet : Quiet fresh clock loop (input :: rest))
    (sends : SendsSucceed fresh clock loop (input :: rest)) (empty : loop.server.events = [])
    {done pending : List ServerEvent} {clientId : UInt64}
    (split : (loop.update input.changes).takeEvents.2 =
      done ++ .clientConnected clientId :: pending)
    (connected : (loop.update input.changes).takeEvents.1.server.IsConnected clientId) :
    .clientConnected clientId ∉ pending := by
  intro again
  obtain ⟨middle, back, rfl⟩ := List.append_of_mem again
  have queues := loop.update_queues empty input.changes
  have left : .clientDisconnected clientId ∈ middle := by
    apply queues.separated clientId done middle back
    rw [List.append_assoc]
    exact split
  obtain ⟨before, between, rfl⟩ := List.append_of_mem left
  let handled := done ++ .clientConnected clientId :: before
  have atLeave : (loop.update input.changes).takeEvents.2 =
      handled ++
        .clientDisconnected clientId :: (between ++ .clientConnected clientId :: back) := by
    simp [split, handled]
  have stays := (connecting_connected fresh clock sends atLeave).2 clientId
  have visit : Visits fresh clock loop (input :: rest) _ _ := .connecting atLeave
  have waiting := quiet _ _ _ visit (not_refuses_leaveGame _ _) clientId (stays.mpr connected)
  exact waiting (by simp)

/-- Every moment of `handle_connections` in a quiet tick keeps the invariant. -/
theorem connecting_synced {fresh clock : ℕ → Stamp} {loop : GameLoop E P} {input : TickInput}
    {rest : List TickInput} (idle : loop.Idle) (quiet : Quiet fresh clock loop (input :: rest))
    (sends : SendsSucceed fresh clock loop (input :: rest)) {done pending : List ServerEvent}
    (split : (loop.update input.changes).takeEvents.2 = done ++ pending) :
    (done.foldl (handleConnection fresh clock) (loop.update input.changes).takeEvents.1).Synced
      pending := by
  induction done using List.reverseRecOn generalizing pending with
  | nil =>
      have opened := idle.opened input.changes
      rw [split] at opened
      exact opened
  | append_singleton done event induction =>
      have earlier : (loop.update input.changes).takeEvents.2 = done ++ event :: pending := by
        rw [split, List.append_assoc, List.singleton_append]
      have synced := induction earlier
      have connected := (connecting_connected fresh clock sends earlier).2
      obtain ⟨_, moment_eq, appended, connects⟩ := connecting_step sends earlier
      rw [moment_eq]
      apply connects.synced synced
      · rintro clientId rfl stays
        exact quiet.once sends idle.events earlier ((connected clientId).mp stays)
      · exact quiet _ event pending (.connecting earlier)

section Tick

variable {fresh clock : ℕ → Stamp} {loop : GameLoop E P} {input : TickInput}
  {rest : List TickInput}

theorem SendsSucceed.later (sends : SendsSucceed fresh clock loop (input :: rest)) :
    SendsSucceed fresh clock (loop.tick fresh clock input) rest :=
  fun moment pending visit => sends moment pending (.later visit)

theorem Quiet.later (quiet : Quiet fresh clock loop (input :: rest)) :
    Quiet fresh clock (loop.tick fresh clock input) rest :=
  fun moment event pending visit => quiet moment event pending (.later visit)

/-- A quiet tick handles its connection events from idle to idle. -/
theorem Idle.handleConnections (idle : loop.Idle)
    (quiet : Quiet fresh clock loop (input :: rest))
    (sends : SendsSucceed fresh clock loop (input :: rest)) :
    ((loop.update input.changes).handleConnections fresh clock).Idle := by
  have all : (loop.update input.changes).takeEvents.2 =
      (loop.update input.changes).takeEvents.2 ++ [] := (List.append_nil _).symm
  exact ⟨connecting_synced idle quiet sends all, (connecting_connected fresh clock sends all).1⟩

theorem Idle.messages {done left : List (UInt64 × Bytes)} {connected : GameLoop E P}
    (idle : connected.Idle)
    (connected_eq : connected = (loop.update input.changes).handleConnections fresh clock)
    (split : (connected.takeMessages input.polled).2 = done ++ left)
    (sends : SendsSucceed fresh clock loop (input :: rest)) :
    (done.foldl (handleMessage fresh clock) (connected.takeMessages input.polled).1).Idle := by
  have taken := (connected.takeMessages_extends input.polled).idle idle
  have sendable := sends _ [] (.receiving connected_eq split)
  exact taken.foldl (log_prefix_handleMessage fresh clock) (handleMessage_extends fresh clock) done
    sendable

theorem Idle.drainClientCommands (idle : loop.Idle)
    (quiet : Quiet fresh clock loop (input :: rest))
    (sends : SendsSucceed fresh clock loop (input :: rest)) :
    (((loop.update input.changes).handleConnections fresh clock).drainClientCommands fresh clock
      input.polled).Idle :=
  (idle.handleConnections quiet sends).messages rfl (List.append_nil _).symm sends

theorem Idle.commands {done left : List Call} {drained : GameLoop E P} (idle : drained.Idle)
    (drained_eq : drained = ((loop.update input.changes).handleConnections fresh
      clock).drainClientCommands fresh clock input.polled)
    (split : drained.delivered input.deliveries = done ++ left)
    (sends : SendsSucceed fresh clock loop (input :: rest)) :
    (done.foldl (GameLoop.handle fresh) drained).Idle := by
  have sendable := sends _ [] (.delivering drained_eq split)
  exact idle.foldl (log_prefix_handle fresh) (handle_extends fresh) done sendable

/-- A quiet tick leads from idle to idle. -/
theorem Idle.tick (idle : loop.Idle) (quiet : Quiet fresh clock loop (input :: rest))
    (sends : SendsSucceed fresh clock loop (input :: rest)) : (loop.tick fresh clock input).Idle :=
  (idle.drainClientCommands quiet sends).commands rfl (List.append_nil _).symm sends

end Tick

/-- At every moment of a quiet run the clients whose catch-up is done are in step. -/
theorem Visits.synced {fresh clock : ℕ → Stamp} {loop moment : GameLoop E P}
    {inputs : List TickInput} {pending : List ServerEvent}
    (visits : Visits fresh clock loop inputs moment pending) (idle : loop.Idle)
    (quiet : Quiet fresh clock loop inputs) (sends : SendsSucceed fresh clock loop inputs) :
    moment.Synced pending := by
  induction visits with
  | connecting split => exact connecting_synced idle quiet sends split
  | receiving connected_eq split =>
      have handled := idle.handleConnections quiet sends
      rw [← connected_eq] at handled
      exact (handled.messages connected_eq split sends).synced
  | delivering drained_eq split =>
      have handled := idle.drainClientCommands quiet sends
      rw [← drained_eq] at handled
      exact (handled.commands drained_eq split sends).synced
  | later visits induction => exact induction (idle.tick quiet sends) quiet.later sends.later

/-- A client hears at least what the log gains, and all of the log when its catch-up is pending. -/
theorem heard_length {fresh clock : ℕ → Stamp} {loop : GameLoop E P} {input : TickInput}
    {rest : List TickInput} (sends : SendsSucceed fresh clock loop (input :: rest))
    {done pending : List ServerEvent}
    (split : (loop.update input.changes).takeEvents.2 = done ++ pending) {clientId : UInt64}
    (connected : (loop.update input.changes).takeEvents.1.server.IsConnected clientId) :
    let moment := done.foldl (handleConnection fresh clock) (loop.update input.changes).takeEvents.1
    let final := pending.foldl (handleConnection fresh clock) moment
    (moment.server.heard clientId).length + final.log.length ≤
        (final.server.heard clientId).length + moment.log.length ∧
      (.clientConnected clientId ∈ pending →
        (moment.server.heard clientId).length + final.log.length ≤
          (final.server.heard clientId).length) := by
  induction pending generalizing done with
  | nil => simp
  | cons event pending induction =>
      intro moment final
      have here := ((connecting_connected fresh clock sends split).2 clientId).mpr connected
      obtain ⟨grown, after_eq, appended, connects⟩ := connecting_step sends split
      have induced := induction grown
      rw [after_eq] at induced
      let after := moment.handleConnection fresh clock event
      have log_length : after.log.length = moment.log.length + appended.length :=
        (connects.length here).1
      have heard_length : (after.server.heard clientId).length =
          (moment.server.heard clientId).length +
            (if event = .clientConnected clientId then moment.log.length else 0) +
              appended.length := (connects.length here).2
      obtain ⟨always, whenPending⟩ : (after.server.heard clientId).length + final.log.length ≤
            (final.server.heard clientId).length + after.log.length ∧
          (ServerEvent.clientConnected clientId ∈ pending →
            (after.server.heard clientId).length + final.log.length ≤
              (final.server.heard clientId).length) := induced
      refine ⟨by omega, fun waits => ?_⟩
      by_cases own : event = .clientConnected clientId
      · rw [if_pos own] at heard_length
        omega
      · have waitsLater := (List.mem_cons.mp waits).resolve_left (Ne.symm own)
        have bound := whenPending waitsLater
        omega

/-- Where everybody in reach is in step, nobody waits while an event is appended. -/
theorem Visits.noneWaits {fresh clock : ℕ → Stamp} {loop moment : GameLoop E P}
    {inputs : List TickInput} {event : ServerEvent} {pending : List ServerEvent}
    (visits : Visits fresh clock loop inputs moment (event :: pending))
    (sends : SendsSucceed fresh clock loop inputs)
    (replicated : ∀ moment pending, Visits fresh clock loop inputs moment pending →
      ∀ clientId, moment.server.IsConnected clientId → .clientConnected clientId ∉ pending →
        moment.server.heard clientId = moment.log.map .ok)
    (accepted : ¬ decider.Refuses moment.log (moment.connectionCommand event)) :
    moment.NoneWaits pending := by
  generalize queue_eq : event :: pending = queue at visits
  induction visits with
  | receiving => cases queue_eq
  | delivering => cases queue_eq
  | later visits induction =>
      exact induction sends.later (fun moment pending visit => replicated moment pending
        (.later visit)) accepted queue_eq
  | @connecting loop input rest done queue split =>
      subst queue_eq
      intro clientId connected waits
      let opened := (loop.update input.changes).takeEvents.1
      let moment := done.foldl (handleConnection fresh clock) opened
      let final := pending.foldl (handleConnection fresh clock)
        (moment.handleConnection fresh clock event)
      obtain ⟨grown, after_eq, appended, connects⟩ := connecting_step sends split
      have stayed := ((connecting_connected fresh clock sends split).2 clientId).mp connected
      have bound := (heard_length sends grown stayed).2 waits
      rw [after_eq] at bound
      have heard_length := (connects.length connected).2
      have something : appended.length ≠ 0 := fun nothing =>
        accepted (connects.refused.mp (List.eq_nil_of_length_eq_zero nothing))
      -- The catch-up repeats what the client has heard already.
      have inStep : final.server.heard clientId = final.log.map .ok := by
        have all : (loop.update input.changes).takeEvents.2 =
            (loop.update input.changes).takeEvents.2 ++ [] := (List.append_nil _).symm
        have final_eq : (loop.update input.changes).takeEvents.2.foldl
            (handleConnection fresh clock) opened = final := by
          rw [split, List.foldl_append, List.foldl_cons]
        have visit : Visits fresh clock loop (input :: rest) final [] :=
          final_eq ▸ .connecting all
        have here := ((connecting_connected fresh clock sends all).2 clientId).mpr stayed
        exact replicated final [] visit clientId (final_eq ▸ here) List.not_mem_nil
      have lengths := congrArg List.length inStep
      rw [List.length_map] at lengths
      change _ + final.log.length ≤ (final.server.heard clientId).length at bound
      omega

/-- The log of every moment is the beginning of the final one. -/
theorem Visits.log_prefix {fresh clock : ℕ → Stamp} {loop moment : GameLoop E P}
    {inputs : List TickInput} {pending : List ServerEvent}
    (visits : Visits fresh clock loop inputs moment pending) :
    moment.log <+: (loop.run fresh clock inputs).log := by
  have later (loop : GameLoop E P) (input : TickInput) (rest : List TickInput) :
      (loop.tick fresh clock input).log <+: (loop.run fresh clock (input :: rest)).log :=
    log_prefix_foldl (log_prefix_tick fresh clock) (loop.tick fresh clock input) rest
  induction visits with
  | @connecting loop input rest done pending split =>
      have here := log_prefix_split (log_prefix_handleConnection fresh clock)
        (loop.update input.changes).takeEvents.1 split
      have commands := log_prefix_drainClientCommands fresh clock
        ((loop.update input.changes).handleConnections fresh clock) input.polled
      have broker := log_prefix_drainBroker fresh
        (((loop.update input.changes).handleConnections fresh clock).drainClientCommands fresh clock
          input.polled) input.deliveries
      exact ((here.trans commands).trans broker).trans (later loop input rest)
  | @receiving loop connected input rest done left connected_eq split =>
      have here := log_prefix_split (log_prefix_handleMessage fresh clock)
        (connected.takeMessages input.polled).1 split
      have broker := log_prefix_drainBroker fresh
        (connected.drainClientCommands fresh clock input.polled) input.deliveries
      subst connected_eq
      exact (here.trans broker).trans (later loop input rest)
  | @delivering loop drained input rest done left drained_eq split =>
      have here := log_prefix_split (log_prefix_handle fresh) drained split
      subst drained_eq
      exact here.trans (later loop input rest)
  | @later loop moment input rest pending _ induction => exact induction

/-- In a run whose sends succeed, every connected client whose connection event was handled has been
sent exactly the log at every moment, if and only if the run is quiet. -/
theorem replicated_iff_quiet (fresh clock : ℕ → Stamp) (gameId : GameId) (publisher : P)
    (inputs : List TickInput)
    (sends : ∀ event ∈ ((start gameId publisher : GameLoop E P).run fresh clock inputs).log,
      Sendable event) :
    (∀ moment pending, Visits fresh clock (start gameId publisher : GameLoop E P) inputs moment
        pending →
      ∀ clientId, moment.server.IsConnected clientId → .clientConnected clientId ∉ pending →
        moment.Replicated clientId) ↔
      Quiet fresh clock (start gameId publisher : GameLoop E P) inputs := by
  have succeed : SendsSucceed fresh clock (start gameId publisher : GameLoop E P) inputs :=
    fun moment pending visit event member => sends event (visit.log_prefix.subset member)
  constructor
  · intro replicated moment event pending visit accepted
    refine visit.noneWaits succeed ?_ accepted
    intro moment pending visit clientId connected handled
    exact (replicated moment pending visit clientId connected handled).sent
  · intro quiet moment pending visit clientId connected handled
    have synced := visit.synced (idle_start gameId publisher) quiet succeed
    have heard := (synced clientId connected).1 handled
    exact ⟨heard, Replica.receiveServerEvents_new heard⟩

end GameLoop

namespace GameLoop

attribute [local instance] standardBincode

private def stamped : ℕ → Stamp := fun _ => ⟨⟨0⟩, ⟨0⟩⟩

private def first : GameLoop ErrorChain NoopPublisher := start ⟨⟨0⟩⟩ .mk

private def arriving (changes : List NetworkChange) : TickInput := ⟨changes, [], []⟩

private def opening : List GameEvent :=
  [.playerJoined ⟨1⟩ "Ann", .playerJoined ⟨2⟩ "Bob", .gameStarted ⟨1⟩]

private theorem sendable_opening : ∀ event ∈ opening, Sendable event := by
  intro event member
  simp only [opening, List.mem_cons, List.not_mem_nil, or_false] at member
  rcases member with rfl | rfl | rfl
  · exact ⟨_, rfl⟩
  · exact ⟨_, rfl⟩
  · exact ⟨_, rfl⟩

private def apart : List TickInput := [arriving [.connect 1 "Ann"], arriving [.connect 2 "Bob"]]

private theorem apart_sends :
    ∀ event ∈ (first.run stamped stamped apart).log, Sendable event := by
  have logged : (first.run stamped stamped apart).log = opening := by decide +kernel
  rw [logged]
  exact sendable_opening

/-- Two clients arriving in different ticks. -/
theorem replicated_iff_quiet_apart :
    (∀ moment pending, Visits stamped stamped first apart moment pending →
      ∀ clientId, moment.server.IsConnected clientId → .clientConnected clientId ∉ pending →
        moment.Replicated clientId) ↔
      Quiet stamped stamped first apart := by
  have equivalence := replicated_iff_quiet (E := ErrorChain) stamped stamped ⟨⟨0⟩⟩ NoopPublisher.mk
    apart apart_sends
  exact equivalence

private def together : TickInput := arriving [.connect 1 "Ann", .connect 2 "Bob"]

private theorem together_sends :
    ∀ event ∈ (first.run stamped stamped [together]).log, Sendable event := by
  have logged : (first.run stamped stamped [together]).log = opening := by decide +kernel
  rw [logged]
  exact sendable_opening

private def welcomed : GameLoop ErrorChain NoopPublisher :=
  (first.update together.changes).handleConnections stamped stamped

private theorem visits_welcomed : Visits stamped stamped first [together] welcomed [] :=
  .connecting (List.append_nil _).symm

/-- Of two clients arriving in one tick the second is sent the join of the first twice. -/
theorem replication_fails_together :
    ¬ ∀ (fresh clock : ℕ → Stamp) (gameId : GameId) (inputs : List TickInput),
      (∀ event ∈
        ((start gameId .mk : GameLoop ErrorChain NoopPublisher).run fresh clock inputs).log,
          Sendable event) →
      ∀ moment pending, Visits fresh clock
          (start gameId .mk : GameLoop ErrorChain NoopPublisher) inputs moment pending →
        ∀ clientId, moment.server.IsConnected clientId → .clientConnected clientId ∉ pending →
          moment.Replicated clientId := by
  intro always
  have connected : welcomed.server.IsConnected 2 := by decide +kernel
  have replicated := always stamped stamped ⟨⟨0⟩⟩ [together] together_sends welcomed []
    visits_welcomed 2 connected List.not_mem_nil
  have heard : (welcomed.server.heard 2).length = 4 := by decide +kernel
  have logged : (welcomed.log.map Except.ok : List (Except String GameEvent)).length = 3 := by
    decide +kernel
  rw [replicated.sent, logged] at heard
  cases heard

end GameLoop

end TicTacTussle
