import TicTacTussle.GameLoop

/-!
# Who an event is owed to

Every event of the log was appended by one call of `handle`, and every call of a run that only the
network feeds comes from a client's connection event or from its message.  Connection events use the
client id of the transport, but a message is trusted to name its sender: an event names somebody
else exactly when the checks of `decide` let such a message through.
-/

namespace TicTacTussle

open Wire GameDecider

/-- The player a `PlayerJoined`, `TilePlaced` or `PlayerLeft` event names. -/
def GameEvent.actor : GameEvent → Option PlayerId
  | .playerJoined playerId _ | .tilePlaced playerId _ | .playerLeft playerId => some playerId
  | .gameStarted _ | .gameEnded _ => none

/-- The events of an accepted command name nobody but the player of its payload, and do name it. -/
theorem Session.Step.actor {session after : Session} {command : GameCommand}
    {events : List GameEvent} (step : Session.Step session command events after) :
    (∀ event ∈ events, ∀ playerId, event.actor = some playerId → playerId = command.playerId) ∧
      ∃ event ∈ events, event.actor = some command.playerId := by
  cases step <;> simp [GameEvent.actor, GameCommand.playerId]

/-- The command of a call names a player other than the client the call comes from. -/
def Call.Forged (call : Call) : Prop :=
  call.origin ≠ some call.envelope.command.playerId.raw

instance (call : Call) : Decidable call.Forged :=
  inferInstanceAs (Decidable (call.origin ≠ some call.envelope.command.playerId.raw))

/-- The log that calls make of the empty one. -/
def callLog (gameId : GameId) (calls : List Call) : List GameEvent :=
  decider.run [] (callCommands gameId calls)

theorem callLog_append (gameId : GameId) (earlier later : List Call) :
    callLog gameId (earlier ++ later) =
      decider.run (callLog gameId earlier) (callCommands gameId later) := by
  rw [callLog, callCommands, List.map_append, GameService.addressed_append,
    EventSourcing.Decider.run_append]
  rfl

theorem callLog_grows (gameId : GameId) (earlier later : List Call) :
    callLog gameId earlier <+: callLog gameId (earlier ++ later) := by
  rw [callLog_append]
  exact decider.log_prefix_run _ _

/-- The events a call appends after earlier ones. -/
def appendedBy (gameId : GameId) (earlier : List Call) (call : Call) : List GameEvent :=
  (callLog gameId (earlier ++ [call])).drop (callLog gameId earlier).length

/-- The call appended the event at this position of the log. -/
def Appended (gameId : GameId) (calls : List Call) (position : ℕ) (call : Call) : Prop :=
  ∃ front back, calls = front ++ call :: back ∧ (callLog gameId front).length ≤ position ∧
    position < (callLog gameId (front ++ [call])).length

/-- Every event that names a player was appended by a call that comes from this player's client. -/
def Authentic (gameId : GameId) (calls : List Call) : Prop :=
  ∀ before event after playerId, callLog gameId calls = before ++ event :: after →
    event.actor = some playerId →
      ∃ call, Appended gameId calls before.length call ∧ call.origin = some playerId.raw

theorem callLog_append_singleton (gameId : GameId) (earlier : List Call) (call : Call) :
    callLog gameId (earlier ++ [call]) =
      callLog gameId earlier ++ appendedBy gameId earlier call := by
  obtain ⟨rest, whole⟩ := callLog_grows gameId earlier [call]
  rw [appendedBy, ← whole, List.drop_left]

/-- A call appends what its command is accepted with, and nothing on a refusal or a foreign game. -/
theorem appendedBy_cases (gameId : GameId) (earlier : List Call) (call : Call) :
    ((call.envelope.gameId = gameId →
          decider.Refuses (callLog gameId earlier) call.envelope.command) ∧
        appendedBy gameId earlier call = []) ∨
      call.envelope.gameId = gameId ∧ ∃ session events after,
        sessions.History (callLog gameId earlier) session ∧
          Session.Step session call.envelope.command events after ∧
            appendedBy gameId earlier call = events := by
  by_cases forUs : call.envelope.gameId = gameId
  · obtain ⟨session, history⟩ : ∃ session, sessions.History (callLog gameId earlier) session :=
      sessions.exists_history _
    have only : callCommands gameId [call] = [call.envelope.command] := by
      simp [callCommands, GameService.addressed, forUs]
    have grown : callLog gameId (earlier ++ [call]) =
        decider.next (callLog gameId earlier) call.envelope.command := by
      rw [callLog_append, only]
      rfl
    rcases history.next call.envelope.command with ⟨refused, same⟩ |
      ⟨events, after, step, next_eq, _⟩
    · exact .inl ⟨fun _ => refused, by rw [appendedBy, grown, same, List.drop_length]⟩
    · refine .inr ⟨forUs, session, events, after, history, step, ?_⟩
      rw [appendedBy, grown, next_eq, List.drop_left]
  · have none : callCommands gameId [call] = [] := by
      simp [callCommands, GameService.addressed, forUs]
    have same : callLog gameId (earlier ++ [call]) = callLog gameId earlier := by
      rw [callLog_append, none]
      rfl
    exact .inl ⟨fun ours => (forUs ours).elim, by rw [appendedBy, same, List.drop_length]⟩

/-- Every event of the log was appended by one of the calls. -/
theorem callLog_split {gameId : GameId} {calls : List Call} {before after : List GameEvent}
    {event : GameEvent} (split : callLog gameId calls = before ++ event :: after) :
    ∃ front call back left right, calls = front ++ call :: back ∧
      before = callLog gameId front ++ left ∧
        appendedBy gameId front call = left ++ event :: right := by
  induction calls using List.reverseRecOn generalizing after with
  | nil => cases (List.append_eq_nil_iff.mp split.symm).2
  | append_singleton calls last induction =>
      rw [callLog_append_singleton] at split
      rcases EventSourcing.split_append split with ⟨middle, earlier, _⟩ | ⟨left, before_eq, now⟩
      · obtain ⟨front, call, back, left, right, rfl, before_eq, appended⟩ := induction earlier
        exact ⟨front, call, back ++ [last], left, right, by simp, before_eq, appended⟩
      · exact ⟨calls, last, [], left, after, rfl, before_eq, now⟩

private theorem not_appended_before {gameId : GameId} {earlier later : List Call} {call : Call}
    {position : ℕ} (early : position < (callLog gameId (earlier ++ [call])).length) :
    ¬ (callLog gameId (earlier ++ call :: later)).length ≤ position := by
  have grows := (callLog_grows gameId (earlier ++ [call]) later).length_le
  rw [List.append_assoc, List.singleton_append] at grows
  omega

theorem Appended.mem {gameId : GameId} {calls : List Call} {position : ℕ} {call : Call}
    (appended : Appended gameId calls position call) : call ∈ calls := by
  obtain ⟨front, back, rfl, _⟩ := appended
  exact List.mem_append_right front List.mem_cons_self

/-- Only one call appended the event at a position. -/
theorem Appended.unique {gameId : GameId} {calls : List Call} {position : ℕ} {call other : Call}
    (appended : Appended gameId calls position call)
    (appended' : Appended gameId calls position other) : call = other := by
  obtain ⟨front, back, split, above, below⟩ := appended
  obtain ⟨front', back', split', above', below'⟩ := appended'
  rcases EventSourcing.split_append (split.symm.trans split') with ⟨middle, rfl, _⟩ |
    ⟨middle, rfl, rest⟩
  · exact (not_appended_before below' above).elim
  · cases middle with
    | nil => exact (List.cons.inj rest).1
    | cons head middle =>
        obtain ⟨rfl, _⟩ := List.cons.inj rest
        exact (not_appended_before below above').elim

/-- Events are owed to the players they name exactly when no forged call passes the checks. -/
theorem authentic_iff (gameId : GameId) (calls : List Call) :
    Authentic gameId calls ↔
      ∀ front call back, calls = front ++ call :: back → call.envelope.gameId = gameId →
        call.Forged → ¬ Admits (hydrate (callLog gameId front)) call.envelope.command := by
  constructor
  · intro authentic front call back split forUs forged
    rw [← refuses_iff_not_admits]
    rcases appendedBy_cases gameId front call with ⟨refused, _⟩ |
      ⟨_, session, events, after, _, step, appended⟩
    · exact refused forUs
    · obtain ⟨event, member, actor⟩ := step.actor.2
      obtain ⟨left, right, rfl⟩ := List.append_of_mem member
      have grown := callLog_append_singleton gameId front call
      rw [appended] at grown
      obtain ⟨rest, whole⟩ := callLog_grows gameId (front ++ [call]) back
      have log_eq : callLog gameId calls =
          (callLog gameId front ++ left) ++ event :: (right ++ rest) := by
        rw [split, ← List.singleton_append, ← List.append_assoc, ← whole, grown]
        simp
      obtain ⟨author, appended', owed⟩ := authentic _ event _ _ log_eq actor
      have here : Appended gameId calls (callLog gameId front ++ left).length call := by
        refine ⟨front, back, split, ?_, ?_⟩
        · rw [List.length_append]
          omega
        · rw [grown, List.length_append, List.length_append, List.length_append, List.length_cons]
          omega
      rw [appended'.unique here] at owed
      exact (forged owed).elim
  · intro guarded before event after playerId split actor
    obtain ⟨front, call, back, left, right, calls_eq, before_eq, appended⟩ := callLog_split split
    have grown := congrArg List.length (callLog_append_singleton gameId front call)
    rw [appended, List.length_append, List.length_append, List.length_cons] at grown
    refine ⟨call, ⟨front, back, calls_eq, ?_, ?_⟩, ?_⟩
    · rw [before_eq, List.length_append]
      omega
    · rw [before_eq, List.length_append]
      omega
    · rcases appendedBy_cases gameId front call with ⟨_, nothing⟩ |
        ⟨forUs, session, events, after, history, step, events_eq⟩
      · rw [nothing] at appended
        simp at appended
      · have member : event ∈ events := by
          rw [← events_eq, appended]
          exact List.mem_append_right _ List.mem_cons_self
        have named := step.actor.1 event member playerId actor
        by_contra other
        have forged : call.Forged := fun own => other (named ▸ own)
        have barred := guarded front call back calls_eq forUs forged
        have refused := (refuses_iff_not_admits _ _).mpr barred
        exact (history.refuses_iff _).mp refused events after step

/-! ## Runs that only the network feeds -/

/-- The broker delivers only commands that the loop handled before. -/
def NetworkFed (inputs : List TickInput) : Prop :=
  ∀ input ∈ inputs, ∀ delivery ∈ input.deliveries, ∃ call, delivery.record = .again call

/-- The call comes from this change of the network. -/
def NetworkChange.Causes [Bincode] : NetworkChange → Call → Prop
  | .connect clientId _, call =>
      call.origin = some clientId ∧ ∃ name, call.envelope.command = .joinGame ⟨clientId⟩ name
  | .disconnect clientId, call =>
      call.origin = some clientId ∧ call.envelope.command = .leaveGame ⟨clientId⟩
  | .message clientId bytes, call =>
      call.origin = some clientId ∧ Bincode.decodeCommand bytes = .ok call.envelope.command

/-- The client that a change is about. -/
def NetworkChange.clientId : NetworkChange → UInt64
  | .connect clientId _ | .disconnect clientId | .message clientId _ => clientId

theorem NetworkChange.Causes.origin [Bincode] {change : NetworkChange} {call : Call}
    (causes : change.Causes call) : call.origin = some change.clientId := by
  cases change <;> exact causes.1

/-- The connection event comes from one of the changes. -/
def ServerEvent.Reported (changes : List NetworkChange) : ServerEvent → Prop
  | .clientConnected clientId => ∃ name, .connect clientId name ∈ changes
  | .clientDisconnected clientId => .disconnect clientId ∈ changes

/-- Whatever waits on the server comes from the changes. -/
structure RenetServer.Fed (server : RenetServer) (changes : List NetworkChange) : Prop where
  events : ∀ event ∈ server.events, event.Reported changes
  inbox : ∀ clientId, ∀ bytes ∈ server.inbox clientId, .message clientId bytes ∈ changes

theorem RenetServer.Within.fed {after before : RenetServer} {changes : List NetworkChange}
    (within : after.Within before) (fed : before.Fed changes) : after.Fed changes where
  events event member := fed.events event (within.events member)
  inbox clientId bytes member := fed.inbox clientId bytes (within.inbox clientId member)

namespace RenetServer

variable {server : RenetServer} {changes : List NetworkChange} {clientId : UInt64}

theorem Fed.addConnection (fed : server.Fed changes) {name : String}
    (member : .connect clientId name ∈ changes) : (server.addConnection clientId).Fed changes := by
  by_cases known : server.IsConnected clientId
  · rw [addConnection_of_isConnected known]
    exact fed
  refine ⟨fun event queued => ?_, fun other bytes waits => ?_⟩
  · rw [events_addConnection known, List.mem_append, List.mem_singleton] at queued
    rcases queued with earlier | rfl
    · exact fed.events event earlier
    · exact ⟨name, member⟩
  · rw [RenetServer.inbox] at waits
    by_cases same : other = clientId
    · rw [same, connections_addConnection_self known] at waits
      cases waits
    · rw [connections_addConnection_of_ne same] at waits
      exact fed.inbox other bytes waits

theorem Fed.removeConnection (fed : server.Fed changes)
    (member : .disconnect clientId ∈ changes) :
    (server.removeConnection clientId).Fed changes := by
  by_cases known : server.IsConnected clientId
  case neg =>
    rw [removeConnection_of_not_isConnected known]
    exact fed
  refine ⟨fun event queued => ?_, fun other bytes waits => ?_⟩
  · rw [events_removeConnection known, List.mem_append, List.mem_singleton] at queued
    rcases queued with earlier | rfl
    · exact fed.events event earlier
    · exact member
  · rw [RenetServer.inbox] at waits
    by_cases same : other = clientId
    · rw [same, connections_removeConnection_self] at waits
      cases waits
    · rw [connections_removeConnection_of_ne same] at waits
      exact fed.inbox other bytes waits

theorem Fed.processMessage (fed : server.Fed changes) {bytes : Bytes}
    (member : .message clientId bytes ∈ changes) :
    (server.processMessage clientId bytes).Fed changes := by
  refine ⟨fed.events, fun other received waits => ?_⟩
  by_cases same : other = clientId
  · subst same
    cases found : server.connections other with
    | none => simp [RenetServer.inbox, RenetServer.processMessage, found] at waits
    | some connection =>
        have known : received ∈ connection.inbox ∨ received = bytes := by
          simpa [RenetServer.inbox, RenetServer.processMessage, found, Connection.deliver]
            using waits
        rcases known with earlier | rfl
        · apply fed.inbox other
          simpa [RenetServer.inbox, found] using earlier
        · exact member
  · apply fed.inbox other
    simpa [RenetServer.inbox, RenetServer.processMessage, same] using waits

end RenetServer

namespace GameLoop

section Sources

variable {E P : Type}

private theorem applyChange_server_fed {loop : GameLoop E P} {changes : List NetworkChange}
    (fed : loop.server.Fed changes) {change : NetworkChange} (member : change ∈ changes) :
    (loop.applyChange change).server.Fed changes := by
  cases change with
  | connect clientId name => exact fed.addConnection member
  | disconnect clientId => exact fed.removeConnection member
  | message clientId bytes => exact fed.processMessage member

variable [Bincode]

/-- Whatever waits and whatever was called comes from the changes. -/
structure Fed (loop : GameLoop E P) (changes : List NetworkChange) : Prop where
  waiting : loop.server.Fed changes
  called : ∀ call ∈ loop.calls, ∃ change ∈ changes, change.Causes call

theorem fed_start (gameId : GameId) (publisher : P) (changes : List NetworkChange) :
    (start gameId publisher : GameLoop E P).Fed changes where
  waiting :=
    { events := fun event queued => (by cases queued)
      inbox := fun clientId bytes waits => (by cases waits) }
  called call member := by cases member

theorem Fed.update {loop : GameLoop E P} {changes : List NetworkChange} (fed : loop.Fed changes)
    {arrived : List NetworkChange} (arrivedIn : arrived ⊆ changes) :
    (loop.update arrived).Fed changes := by
  induction arrived generalizing loop with
  | nil => exact fed
  | cons change arrived induction =>
      have applied : (loop.applyChange change).Fed changes :=
        { waiting := applyChange_server_fed fed.waiting (arrivedIn List.mem_cons_self)
          called := by
            cases change <;> exact fed.called }
      exact induction applied fun other member => arrivedIn (List.mem_cons_of_mem _ member)

/-- The messages that are taken come from the changes. -/
theorem Fed.takeMessages {loop : GameLoop E P} {changes : List NetworkChange}
    (fed : loop.Fed changes) (polled : List UInt64) :
    (loop.takeMessages polled).1.Fed changes ∧
      ∀ message ∈ (loop.takeMessages polled).2, .message message.1 message.2 ∈ changes := by
  induction polled generalizing loop with
  | nil => exact ⟨fed, fun message taken => by cases taken⟩
  | cons clientId polled induction =>
      obtain ⟨within, taken_eq⟩ := loop.server.within_receiveMessages clientId
      have afterFirst : (loop.withServer (loop.server.receiveMessages clientId).1).Fed changes :=
        ⟨within.fed fed.waiting, fed.called⟩
      obtain ⟨rest, restTaken⟩ := induction afterFirst
      refine ⟨rest, fun message taken => ?_⟩
      rcases List.mem_append.mp taken with now | later
      · obtain ⟨bytes, waits, rfl⟩ := List.mem_map.mp now
        exact fed.waiting.inbox clientId bytes (taken_eq ▸ waits)
      · exact restTaken message later

/-- Every event that names a player was appended by a call that comes from a message or a connection
event of this player's client. -/
def EventsAuthentic (loop : GameLoop E P) (changes : List NetworkChange) : Prop :=
  ∀ before event after playerId, loop.log = before ++ event :: after →
    event.actor = some playerId →
      ∃ call, Appended loop.gameId loop.calls before.length call ∧
        ∃ change ∈ changes, change.clientId = playerId.raw ∧ change.Causes call

theorem Fed.eventsAuthentic_iff {loop : GameLoop E P} {changes : List NetworkChange}
    (fed : loop.Fed changes) :
    loop.EventsAuthentic changes ↔ Authentic loop.gameId loop.calls := by
  have log_eq : loop.log = callLog loop.gameId loop.calls := loop.logged
  rw [EventsAuthentic, Authentic, log_eq]
  constructor
  · intro authentic before event after playerId split actor
    obtain ⟨call, appended, change, _, own, causes⟩ :=
      authentic before event after playerId split actor
    exact ⟨call, appended, own ▸ causes.origin⟩
  · intro authentic before event after playerId split actor
    obtain ⟨call, appended, origin⟩ := authentic before event after playerId split actor
    obtain ⟨change, member, causes⟩ := fed.called call appended.mem
    have own := causes.origin.symm.trans origin
    exact ⟨call, appended, change, member, Option.some.inj own, causes⟩

end Sources

section Runs

variable {E P : Type} [Anyhow E] [EventPublisher E P] [Bincode]

/-- Handling a call takes nothing in. -/
theorem within_handle (fresh : ℕ → Stamp) (loop : GameLoop E P) (call : Call) :
    (loop.handle fresh call).server.Within loop.server := by
  rcases loop.handle_cases fresh call with same | ⟨events, _, broadcaster⟩
  · rw [server, same]
    exact .refl _
  · rw [broadcaster]
    exact within_broadcastAll loop.service.broadcaster events

theorem Fed.handle {loop : GameLoop E P} {changes : List NetworkChange} (fed : loop.Fed changes)
    (fresh : ℕ → Stamp) {call : Call} (caused : ∃ change ∈ changes, change.Causes call) :
    (loop.handle fresh call).Fed changes where
  waiting := (loop.within_handle fresh call).fed fed.waiting
  called other member := by
    rcases List.mem_append.mp member with earlier | last
    · exact fed.called other earlier
    · rw [List.mem_singleton.mp last]
      exact caused

theorem Fed.submit {loop : GameLoop E P} {changes : List NetworkChange} (fed : loop.Fed changes)
    (fresh clock : ℕ → Stamp) {clientId : UInt64} {command : GameCommand}
    (caused : ∃ change ∈ changes, ∀ cmdEnv : CommandEnvelope, cmdEnv.command = command →
      change.Causes ⟨some clientId, cmdEnv⟩) :
    (loop.submit fresh clock clientId command).Fed changes := by
  let cmdEnv := CommandEnvelope.new (clock loop.calls.length) loop.gameId command
  have published : (loop.publish (.command cmdEnv)).Fed changes := ⟨fed.waiting, fed.called⟩
  obtain ⟨change, member, causes⟩ := caused
  exact published.handle fresh ⟨change, member, causes cmdEnv rfl⟩

theorem Fed.handleConnection {loop : GameLoop E P} {changes : List NetworkChange}
    (fed : loop.Fed changes) (fresh clock : ℕ → Stamp) {event : ServerEvent}
    (reported : event.Reported changes) :
    (loop.handleConnection fresh clock event).Fed changes := by
  cases event with
  | clientConnected clientId =>
      have caughtUp : (loop.catchUp clientId).Fed changes :=
        ⟨(within_sendAll clientId loop.service.broadcaster _).fed fed.waiting, fed.called⟩
      obtain ⟨name, member⟩ := reported
      exact caughtUp.submit fresh clock ⟨_, member, fun _ same => ⟨rfl, _, same⟩⟩
  | clientDisconnected clientId =>
      exact fed.submit fresh clock ⟨_, reported, fun _ same => ⟨rfl, same⟩⟩

theorem Fed.handleMessage {loop : GameLoop E P} {changes : List NetworkChange}
    (fed : loop.Fed changes) (fresh clock : ℕ → Stamp) {message : UInt64 × Bytes}
    (arrived : .message message.1 message.2 ∈ changes) :
    (loop.handleMessage fresh clock message).Fed changes := by
  rw [GameLoop.handleMessage]
  split
  · rename_i command decoded
    refine fed.submit fresh clock ⟨_, arrived, fun cmdEnv same => ⟨rfl, ?_⟩⟩
    rw [same]
    exact decoded
  · exact fed

theorem Fed.tick {loop : GameLoop E P} {changes : List NetworkChange} (fed : loop.Fed changes)
    (fresh clock : ℕ → Stamp) {input : TickInput} (arrivedIn : input.changes ⊆ changes)
    (networkFed : ∀ delivery ∈ input.deliveries, ∃ call, delivery.record = .again call) :
    (loop.tick fresh clock input).Fed changes := by
  have updated := fed.update arrivedIn
  have connected : ((loop.update input.changes).handleConnections fresh clock).Fed changes := by
    have taken : (loop.update input.changes).takeEvents.1.Fed changes :=
      ⟨⟨fun event queued => (by cases queued), updated.waiting.inbox⟩, updated.called⟩
    apply List.foldlRecOn (motive := fun moment : GameLoop E P => moment.Fed changes) _ _ taken
    intro moment momentFed event queued
    exact momentFed.handleConnection fresh clock (updated.waiting.events event queued)
  have drained : (((loop.update input.changes).handleConnections fresh clock).drainClientCommands
      fresh clock input.polled).Fed changes := by
    obtain ⟨taken, arrived⟩ := connected.takeMessages input.polled
    apply List.foldlRecOn (motive := fun moment : GameLoop E P => moment.Fed changes) _ _ taken
    intro moment momentFed message member
    exact momentFed.handleMessage fresh clock (arrived message member)
  apply List.foldlRecOn (motive := fun moment : GameLoop E P => moment.Fed changes) _ _ drained
  intro moment momentFed call delivered
  obtain ⟨delivery, member, resolved⟩ := List.mem_filterMap.mp delivered
  obtain ⟨index, again⟩ := networkFed delivery member
  rw [again] at resolved
  exact momentFed.handle fresh (drained.called call (List.mem_of_getElem? resolved))

/-- In a run that only the network feeds, every call comes from a change of the network, under the
client id that the transport reported. -/
theorem run_fed (fresh clock : ℕ → Stamp) (gameId : GameId) (publisher : P)
    {inputs : List TickInput} (networkFed : NetworkFed inputs) :
    ((start gameId publisher : GameLoop E P).run fresh clock inputs).Fed
      (inputs.flatMap TickInput.changes) := by
  apply List.foldlRecOn (motive := fun moment : GameLoop E P => moment.Fed _) _ _
    (fed_start gameId publisher _)
  intro moment momentFed input member
  apply momentFed.tick fresh clock _ (networkFed input member)
  exact fun change changed => List.mem_flatMap.mpr ⟨input, member, changed⟩

/-- As long as no client names another in its messages, every event is authentic. -/
theorem honest_run_authentic (fresh clock : ℕ → Stamp) (gameId : GameId) (publisher : P)
    {inputs : List TickInput} (networkFed : NetworkFed inputs)
    (honest : ∀ clientId bytes command,
      .message clientId bytes ∈ inputs.flatMap TickInput.changes →
        Bincode.decodeCommand bytes = .ok command → command.playerId = ⟨clientId⟩) :
    ((start gameId publisher : GameLoop E P).run fresh clock inputs).EventsAuthentic
      (inputs.flatMap TickInput.changes) := by
  have fed := run_fed (E := E) fresh clock gameId publisher networkFed
  rw [fed.eventsAuthentic_iff, authentic_iff]
  intro front call back split forUs forged
  have called := fed.called call (split ▸ List.mem_append_right front List.mem_cons_self)
  obtain ⟨change, member, causes⟩ := called
  cases change with
  | connect clientId name =>
      obtain ⟨origin, joinName, command⟩ := causes
      exact (forged (by rw [origin, command]; rfl)).elim
  | disconnect clientId =>
      obtain ⟨origin, command⟩ := causes
      exact (forged (by rw [origin, command]; rfl)).elim
  | message clientId bytes =>
      obtain ⟨origin, decoded⟩ := causes
      exact (forged (by rw [origin, honest clientId bytes _ member decoded])).elim

/-- In a run that only the network feeds, the events are owed to the clients of the players they
name exactly when no command that names another player than its client passes the checks of
`decide`. -/
theorem run_authentic_iff (fresh clock : ℕ → Stamp) (gameId : GameId) (publisher : P)
    (inputs : List TickInput) (networkFed : NetworkFed inputs) :
    let loop := (start gameId publisher : GameLoop E P).run fresh clock inputs
    loop.EventsAuthentic (inputs.flatMap TickInput.changes) ↔
      ∀ front call back, loop.calls = front ++ call :: back →
        call.envelope.gameId = loop.gameId → call.Forged →
          ¬ Admits (hydrate (callLog loop.gameId front)) call.envelope.command := by
  intro loop
  have fed := run_fed (E := E) fresh clock gameId publisher networkFed
  exact fed.eventsAuthentic_iff.trans (authentic_iff loop.gameId loop.calls)

end Runs

attribute [local instance] standardBincode

private def frozen : ℕ → Stamp := fun _ => ⟨⟨0⟩, ⟨0⟩⟩

private def arrivals : List TickInput :=
  [⟨[.connect 1 "Ann"], [], []⟩, ⟨[.connect 2 "Bob"], [], []⟩]

/-- Two clients arriving. -/
theorem run_authentic_iff_arrivals :
    let loop := (start ⟨⟨0⟩⟩ .mk : GameLoop ErrorChain NoopPublisher).run frozen frozen arrivals
    loop.EventsAuthentic (arrivals.flatMap TickInput.changes) ↔
      ∀ front call back, loop.calls = front ++ call :: back →
        call.envelope.gameId = loop.gameId → call.Forged →
          ¬ Admits (hydrate (callLog loop.gameId front)) call.envelope.command := by
  have networkFed : NetworkFed arrivals := by
    intro input member delivery delivered
    simp only [arrivals, List.mem_cons, List.not_mem_nil, or_false] at member
    rcases member with rfl | rfl <;> cases delivered
  exact run_authentic_iff (E := ErrorChain) frozen frozen ⟨⟨0⟩⟩ NoopPublisher.mk arrivals networkFed

/-- Bob's client sends Ann's first move. -/
private def hijack : List TickInput :=
  arrivals ++ [⟨[.message 2 [1, 1, 4]], [1, 2], []⟩]

private def hijacked : GameLoop ErrorChain NoopPublisher :=
  (start ⟨⟨0⟩⟩ .mk).run frozen frozen hijack

private theorem hijack_networkFed : NetworkFed hijack := by
  intro input member delivery delivered
  simp only [hijack, arrivals, List.mem_append, List.mem_cons, List.not_mem_nil, or_false] at member
  rcases member with (rfl | rfl) | rfl <;> cases delivered

private def joined : List Call :=
  [⟨some 1, ⟨⟨0⟩, ⟨⟨0⟩⟩, ⟨0⟩, .joinGame ⟨1⟩ "Ann"⟩⟩,
    ⟨some 2, ⟨⟨0⟩, ⟨⟨0⟩⟩, ⟨0⟩, .joinGame ⟨2⟩ "Bob"⟩⟩]

private def forgery : Call := ⟨some 2, ⟨⟨0⟩, ⟨⟨0⟩⟩, ⟨0⟩, .placeTile ⟨1⟩ 4⟩⟩

private theorem hijacked_calls : hijacked.calls = joined ++ [forgery] := by decide +kernel

private theorem hijacked_gameId : hijacked.gameId = ⟨⟨0⟩⟩ := by decide +kernel

private theorem forgery_admitted :
    Admits (hydrate (callLog ⟨⟨0⟩⟩ joined)) forgery.envelope.command := by
  have decided : decider.decide (decider.hydrate (callLog ⟨⟨0⟩⟩ joined)) (.placeTile ⟨1⟩ 4) =
      .ok [.tilePlaced ⟨1⟩ 4] := by
    decide +kernel
  by_contra barred
  obtain ⟨error, refused⟩ := (refuses_iff_not_admits _ _).mpr barred
  cases decided.symm.trans refused

/-- A client places a tile in the other player's name. -/
theorem forged_tile_accepted :
    ¬ ∀ (fresh clock : ℕ → Stamp) (gameId : GameId) (inputs : List TickInput),
      NetworkFed inputs →
        ((start gameId .mk : GameLoop ErrorChain NoopPublisher).run fresh clock
          inputs).EventsAuthentic (inputs.flatMap TickInput.changes) := by
  intro always
  have events := always frozen frozen ⟨⟨0⟩⟩ hijack hijack_networkFed
  have fed := run_fed (E := ErrorChain) frozen frozen ⟨⟨0⟩⟩ NoopPublisher.mk hijack_networkFed
  have authentic := (authentic_iff _ _).mp (fed.eventsAuthentic_iff.mp events)
  have forged : forgery.Forged := by decide +kernel
  have admitted := forgery_admitted
  rw [← hijacked_gameId] at admitted
  exact authentic joined forgery [] hijacked_calls hijacked_gameId.symm forged admitted

end GameLoop

end TicTacTussle
