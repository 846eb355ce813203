import TicTacTussle.Ledger
import TicTacTussle.Rejection

/-!
# Handling an envelope again

Nothing remembers the ids of the commands that were handled, so a redelivered envelope meets the
domain rules alone.  They refuse every join and every tile that was accepted before, whatever came
in between.  For the same reason a retry repairs no broadcast that failed halfway: the events were
appended before, and the retried command is refused, or in case of a leave appended once more.
-/

namespace TicTacTussle

open GameDecider

/-- An accepted join or tile is hopeless from then on. -/
theorem Session.Step.hopeless {session after : Session} {command : GameCommand}
    {events : List GameEvent} (step : Session.Step session command events after)
    (stays : ∀ leaver, command ≠ .leaveGame leaver) : after.Hopeless command := by
  cases step with
  | joinFirst x name taken => exact .inr (.inr (by simp [Session.joined]))
  | joinSecond x o name => exact .inl (by simp [Session.stage])
  | place seats moves cell => exact .inr (.inr (.inr ⟨rfl, .inl (by simp [Session.moves])⟩))
  | win | draw => exact .inr (.inr (.inl rfl))
  | abandon _ leaver | leave _ leaver => exact (stays leaver rfl).elim

/-- A join or tile that was accepted once is refused after every continuation. -/
theorem refuses_after_accepted {log : List GameEvent} {session : Session}
    (history : sessions.History log session) {command : GameCommand}
    (stays : ∀ leaver, command ≠ .leaveGame leaver) {events : List GameEvent}
    (accepted : decider.decide (decider.hydrate log) command = .ok events)
    (between : List GameCommand) :
    decider.Refuses (decider.run (decider.next log command) between) command := by
  obtain ⟨after, step⟩ := (history.decide_iff command events).mp accepted
  rw [decider.next_of_ok accepted]
  refine ((history.step step).refuses_run_iff command).mpr ?_ between
  exact fun later reach => (step.hopeless stays).stuck_of_reach reach

section Service

variable {E P B : Type} [Anyhow E] [EventPublisher E P] [NetworkBroadcaster E B]

namespace GameService

/-- The envelope is for this game and its command passes `decide`. -/
def Accepts (service : GameService P B) (cmdEnv : CommandEnvelope) : Prop :=
  cmdEnv.gameId = service.store.gameId ∧
    ∃ events, decider.decide (decider.hydrate service.store.events) cmdEnv.command = .ok events

/-- The envelope is refused by a domain rule, and its handling leaves the store, the publisher and
the broadcaster as they are. -/
def Rejects (fresh : ℕ → Stamp) (service : GameService P B) (cmdEnv : CommandEnvelope) : Prop :=
  ∃ error : TicTacTussleError,
    decider.decide (decider.hydrate service.store.events) cmdEnv.command = .error error ∧
      service.handle fresh cmdEnv =
        (service, .error (Anyhow.msg (error.display (Anyhow.uuidText E))))

end GameService

/-- Whatever a service handles before and after accepting a join or a tile, every later handling of
the same envelope is refused and changes nothing. -/
theorem accepted_once (fresh : ℕ → Stamp) (gameId : GameId) (publisher : P) (broadcaster : B)
    (earlier : List CommandEnvelope) (cmdEnv : CommandEnvelope) (between : List CommandEnvelope)
    (joinOrPlace : (∃ playerId name, cmdEnv.command = .joinGame playerId name) ∨
      ∃ playerId cell, cmdEnv.command = .placeTile playerId cell)
    (accepted : ((GameService.build gameId publisher broadcaster).handleAll fresh earlier).Accepts
      cmdEnv) :
    ((GameService.build gameId publisher broadcaster).handleAll fresh
      (earlier ++ cmdEnv :: between)).Rejects fresh cmdEnv := by
  let service := (GameService.build gameId publisher broadcaster).handleAll fresh earlier
  let later := (service.handle fresh cmdEnv).1.handleAll fresh between
  have split : (GameService.build gameId publisher broadcaster).handleAll fresh
      (earlier ++ cmdEnv :: between) = later := by
    rw [GameService.handleAll_append, GameService.handleAll_cons]
  obtain ⟨session, history⟩ : ∃ session, sessions.History service.store.events session :=
    GameService.exists_session fresh gameId publisher broadcaster earlier
  obtain ⟨forUs, events, decided⟩ := accepted
  have stays : ∀ leaver, cmdEnv.command ≠ .leaveGame leaver := by
    rintro leaver leaves
    rcases joinOrPlace with ⟨_, _, joins⟩ | ⟨_, _, places⟩
    · cases joins.symm.trans leaves
    · cases places.symm.trans leaves
  have log_eq : later.store.events = decider.run (decider.next service.store.events cmdEnv.command)
      (GameService.addressed service.store.gameId between) := by
    rw [GameService.handleAll_events, GameService.handle_events fresh service cmdEnv forUs,
      GameService.handle_gameId]
  obtain ⟨error, refused⟩ := refuses_after_accepted history stays decided
    (GameService.addressed service.store.gameId between)
  rw [← log_eq] at refused
  have stillForUs : cmdEnv.gameId = later.store.gameId := by
    rw [GameService.handleAll_gameId, GameService.handle_gameId]
    exact forUs
  rw [split]
  exact ⟨error, refused, GameService.handle_of_refused fresh stillForUs refused⟩

end Service

private def bothSeated : List GameCommand := [.joinGame ⟨1⟩ "Ann", .joinGame ⟨2⟩ "Bob"]

private theorem bothSeated_admits_centre :
    decider.decide (decider.hydrate (decider.run [] bothSeated)) (.placeTile ⟨1⟩ 4) =
      .ok [.tilePlaced ⟨1⟩ 4] := by
  decide +kernel

private def midnight : Stamp := ⟨⟨0⟩, ⟨0⟩⟩

private def delivery (command : GameCommand) : CommandEnvelope := .new midnight ⟨⟨0⟩⟩ command

/-- Ann's move to the centre, delivered again after Bob's answer. -/
theorem accepted_once_centre :
    ((GameService.build ⟨⟨0⟩⟩ NoopPublisher.mk NoopBroadcaster.mk).handleAll (fun _ => midnight)
      (bothSeated.map delivery ++
        delivery (.placeTile ⟨1⟩ 4) :: [delivery (.placeTile ⟨2⟩ 0)])).Rejects (fun _ => midnight)
          (delivery (.placeTile ⟨1⟩ 4)) := by
  have logged : ((GameService.build ⟨⟨0⟩⟩ NoopPublisher.mk NoopBroadcaster.mk).handleAll
      (fun _ => midnight) (bothSeated.map delivery)).store.events = decider.run [] bothSeated :=
    GameService.handleAll_new_events (fun _ => midnight) ⟨⟨0⟩⟩ NoopPublisher.mk
      NoopBroadcaster.mk midnight bothSeated
  have accepted : ((GameService.build ⟨⟨0⟩⟩ NoopPublisher.mk NoopBroadcaster.mk).handleAll
      (fun _ => midnight) (bothSeated.map delivery)).Accepts (delivery (.placeTile ⟨1⟩ 4)) := by
    rw [GameService.Accepts, logged, GameService.handleAll_gameId]
    exact ⟨rfl, [.tilePlaced ⟨1⟩ 4], bothSeated_admits_centre⟩
  have places : ∃ playerId cell,
      (delivery (.placeTile ⟨1⟩ 4)).command = .placeTile playerId cell := ⟨⟨1⟩, 4, rfl⟩
  have rejected := accepted_once (E := ErrorChain) (fun _ => midnight) ⟨⟨0⟩⟩ NoopPublisher.mk
    NoopBroadcaster.mk (bothSeated.map delivery) (delivery (.placeTile ⟨1⟩ 4))
    [delivery (.placeTile ⟨2⟩ 0)] (.inr places) accepted
  exact rejected

/-- A transition emits no event twice. -/
theorem Session.Step.events_nodup {session after : Session} {command : GameCommand}
    {events : List GameEvent} (step : Session.Step session command events after) :
    events.Nodup := by
  cases step <;> simp

section Retry

variable {E P B : Type} [Anyhow E] [EventPublisher E P] [NetworkBroadcaster E B]

/-- The service after the handling of an envelope, with a broadcaster put in place of its own. -/
def GameService.retried (fresh : ℕ → Stamp) (service : GameService P B) (recovered : B)
    (cmdEnv : CommandEnvelope) : GameService P B :=
  ({ (service.handle fresh cmdEnv).1 with broadcaster := recovered }.handle fresh cmdEnv).1

/-- The retry leaves the log of a single handling that never failed, and by then every event of the
batch has been broadcast. -/
structure GameService.RetryRepairs (fresh : ℕ → Stamp) (heard : B → List GameEvent)
    (service : GameService P B) (recovered : B) (cmdEnv : CommandEnvelope)
    (events : List GameEvent) : Prop where
  appendedOnce : (service.retried fresh recovered cmdEnv).store.events =
    ({ service with broadcaster := recovered }.handle fresh cmdEnv).1.store.events
  broadcast : ∃ news, heard (service.retried fresh recovered cmdEnv).broadcaster =
    heard service.broadcaster ++ news ∧ ∀ event ∈ events, event ∈ news

/-- After a broadcast that failed halfway no retry repairs it: a join or a tile is refused, so that
the rest of its batch is never broadcast, and a departure is accepted and appended again. -/
theorem retry_never_repairs (fresh : ℕ → Stamp) (gameId : GameId) (publisher : P) (broadcaster : B)
    (past : List CommandEnvelope) (cmdEnv : CommandEnvelope) (recovered : B)
    {heard : B → List GameEvent} (hears : Hears heard) {events : List GameEvent} {error : E}
    (forUs : cmdEnv.gameId = gameId) :
    let service := (GameService.build gameId publisher broadcaster).handleAll fresh past
    decider.decide (decider.hydrate service.store.events) cmdEnv.command = .ok events →
      (service.handle fresh cmdEnv).2 = .error error →
        heard recovered = heard (service.handle fresh cmdEnv).1.broadcaster →
          ¬ service.RetryRepairs fresh heard recovered cmdEnv events := by
  intro service decided failed kept repairs
  have ours : cmdEnv.gameId = service.store.gameId := by
    rw [GameService.handleAll_gameId]
    exact forUs
  let first := { (service.handle fresh cmdEnv).1 with broadcaster := recovered }
  have firstOurs : cmdEnv.gameId = first.store.gameId :=
    ours.trans (GameService.handle_gameId fresh service cmdEnv).symm
  have firstLog : first.store.events = decider.next service.store.events cmdEnv.command :=
    GameService.handle_events fresh service cmdEnv ours
  obtain ⟨session, history⟩ : ∃ session, sessions.History service.store.events session :=
    GameService.exists_session fresh gameId publisher broadcaster past
  by_cases leaves : ∃ leaver, cmdEnv.command = .leaveGame leaver
  · obtain ⟨leaver, leaves⟩ := leaves
    have once : ({ service with broadcaster := recovered }.handle fresh cmdEnv).1.store.events =
        decider.next service.store.events cmdEnv.command :=
      GameService.handle_events fresh { service with broadcaster := recovered } cmdEnv ours
    have twice : (service.retried fresh recovered cmdEnv).store.events =
        decider.next (decider.next service.store.events cmdEnv.command) cmdEnv.command := by
      rw [← firstLog]
      exact GameService.handle_events fresh first cmdEnv firstOurs
    have same := repairs.appendedOnce
    rw [once, twice, leaves, next_leaveGame (decider.next _ _)] at same
    exact List.cons_ne_nil _ _ (List.append_right_eq_self.mp same)
  · have stays : ∀ leaver, cmdEnv.command ≠ .leaveGame leaver := not_exists.mp leaves
    obtain ⟨cause, refused⟩ : decider.Refuses first.store.events cmdEnv.command := by
      rw [firstLog]
      exact refuses_after_accepted history stays decided []
    have unheard : (service.retried fresh recovered cmdEnv).broadcaster = recovered := by
      rw [GameService.retried, GameService.handle_of_refused fresh firstOurs refused]
    have accepted := GameService.handle_of_accepted fresh ours decided
    obtain ⟨front, back, events_eq, heard_eq, complete⟩ :=
      hears.broadcastAll service.broadcaster events
    obtain ⟨news, newsHeard, allHeard⟩ := repairs.broadcast
    rw [unheard, kept, accepted, heard_eq] at newsHeard
    obtain rfl := List.append_cancel_left newsHeard
    cases back with
    | nil =>
        rw [accepted] at failed
        cases failed.symm.trans (complete.mp rfl)
    | cons missed back =>
        obtain ⟨after, step⟩ := (history.decide_iff cmdEnv.command events).mp decided
        have nodup := step.events_nodup
        have isHeard := allHeard missed (by simp [events_eq])
        rw [events_eq] at nodup
        exact (List.nodup_append.mp nodup).2.2 missed isHeard missed List.mem_cons_self rfl

end Retry

/-- A broadcaster that remembers what it sent and fails where its script says so. -/
structure ScriptedBroadcaster where
  script : List Bool
  sent : List GameEvent
  deriving DecidableEq, Repr

/-- One sending, along the script. -/
def ScriptedBroadcaster.send (broadcaster : ScriptedBroadcaster) (event : GameEvent) :
    ScriptedBroadcaster × Except ErrorChain Unit :=
  match broadcaster.script with
  | false :: script => ({ broadcaster with script }, .error (.foreign "send failed"))
  | true :: script => ({ script, sent := broadcaster.sent ++ [event] }, .ok ())
  | [] => ({ broadcaster with sent := broadcaster.sent ++ [event] }, .ok ())

instance : NetworkBroadcaster ErrorChain ScriptedBroadcaster where
  broadcast := ScriptedBroadcaster.send
  sendTo broadcaster _ event := broadcaster.send event

theorem ScriptedBroadcaster.hears : Hears ScriptedBroadcaster.sent where
  succeeded := by
    rintro ⟨script, sent⟩ after event sending
    match script, sending with
    | true :: script, rfl => rfl
    | [], rfl => rfl
  failed := by
    rintro ⟨script, sent⟩ after event error sending
    match script, sending with
    | false :: script, rfl => rfl

/-- Ann's join of an empty lobby fails to be broadcast, and the retry is refused. -/
theorem retry_never_repairs_join :
    let stamp : Stamp := ⟨⟨0⟩, ⟨0⟩⟩
    let service := GameService.build ⟨⟨0⟩⟩ NoopPublisher.mk (⟨[false], []⟩ : ScriptedBroadcaster)
    ¬ service.RetryRepairs (fun _ => stamp) ScriptedBroadcaster.sent ⟨[], []⟩
      (.new stamp ⟨⟨0⟩⟩ (.joinGame ⟨1⟩ "Ann")) [.playerJoined ⟨1⟩ "Ann"] := by
  intro stamp service
  exact retry_never_repairs (fun _ => stamp) ⟨⟨0⟩⟩ NoopPublisher.mk ⟨[false], []⟩ []
    (.new stamp ⟨⟨0⟩⟩ (.joinGame ⟨1⟩ "Ann")) ⟨[], []⟩ ScriptedBroadcaster.hears rfl rfl rfl rfl

/-- Bob's join starts the game, the start fails to be broadcast, and no retry makes up for it. -/
theorem start_never_broadcast :
    let stamp : Stamp := ⟨⟨0⟩, ⟨0⟩⟩
    let envelope := CommandEnvelope.new stamp ⟨⟨0⟩⟩
    let service := (GameService.build ⟨⟨0⟩⟩ NoopPublisher.mk
      (⟨[true, true, false], []⟩ : ScriptedBroadcaster)).handleAll (fun _ => stamp)
        [envelope (.joinGame ⟨1⟩ "Ann")]
    let failing := service.handle (fun _ => stamp) (envelope (.joinGame ⟨2⟩ "Bob"))
    failing.2 = .error (.context "broadcast" (.foreign "send failed")) ∧
      ¬ service.RetryRepairs (fun _ => stamp) ScriptedBroadcaster.sent
        { failing.1.broadcaster with script := [] } (envelope (.joinGame ⟨2⟩ "Bob"))
          [.playerJoined ⟨2⟩ "Bob", .gameStarted ⟨1⟩] := by
  intro stamp envelope service failing
  have failed : failing.2 = .error (.context "broadcast" (.foreign "send failed")) := by
    decide +kernel
  refine ⟨failed, ?_⟩
  rintro ⟨_, news, heard, complete⟩
  have sent : [.playerJoined ⟨1⟩ "Ann"] ++ [.playerJoined ⟨2⟩ "Bob"] =
      [.playerJoined ⟨1⟩ "Ann"] ++ news := heard
  have started := complete (.gameStarted ⟨1⟩) (by simp)
  simp [← List.append_cancel_left sent] at started

end TicTacTussle
