import TicTacTussle.Client
import TicTacTussle.Service

/-!
# Moves on a stale replica

A client decides on a copy of the state that may lag behind the server's log by any number of
events.  While it is a player's turn nobody else can change that: the log continues with a tile of
this very player or the game ends.  An honest move is therefore accepted, or overtaken by one of the
two.
-/

namespace TicTacTussle

open EventSourcing
open GameDecider
open Wire

/-- The event ends a player's turn: a tile of his own or the end of the game. -/
def EndsTurn (playerId : PlayerId) (event : GameEvent) : Prop :=
  (∃ cell, event = .tilePlaced playerId cell) ∨ ∃ reason, event = .gameEnded reason

/-- It is this player's turn. -/
def OnTurn (state : GameState) (playerId : PlayerId) : Prop :=
  state.stage = .inGame ∧ state.activePlayerId = playerId

/-- Whatever is accepted during a player's turn ends it. -/
theorem Session.Step.endsTurn {session after : Session} {command : GameCommand}
    {events : List GameEvent} (step : Session.Step session command events after)
    {playerId : PlayerId} (onTurn : OnTurn session.state playerId) :
    ∃ event ∈ events, EndsTurn playerId event := by
  obtain ⟨inGame, active⟩ := onTurn
  cases step with
  | joinFirst | joinSecond => cases inGame
  | place seats moves cell | win seats moves cell | draw seats moves cell =>
      have mover : seats.turn moves.length = playerId := active
      exact ⟨_, List.mem_cons_self, .inl ⟨cell, by rw [mover]⟩⟩
  | abandon seats leaver => exact ⟨.gameEnded (.playerLeft leaver), by simp, .inr ⟨_, rfl⟩⟩
  | leave _ _ idle => exact (idle inGame).elim

/-- Where a batch is cut during the game, the rest of it ends the game. -/
theorem Session.Step.cut_inGame {session after : Session} {command : GameCommand}
    {events left right : List GameEvent} {event : GameEvent}
    (step : Session.Step session command events after) (split : events = left ++ event :: right)
    (entered : left ≠ []) (inGame : (decider.replay session.state left).stage = .inGame) :
    ∃ reason, event = .gameEnded reason := by
  cases step with
  | joinFirst | place | leave => exact (entered (singleton_eq_append_cons.mp split).1).elim
  | joinSecond x o name taken _ _ =>
      rcases pair_eq_append_cons.mp split with ⟨whole, _⟩ | ⟨rfl, _, _⟩
      · exact (entered whole).elim
      · have inLobby : (decider.replay (Session.waiting x taken).state
            [.playerJoined o name]).stage = .lobby := by
          rw [Decider.replay_cons, decider_evolve, evolve]
          split <;> rfl
        cases inLobby.symm.trans inGame
  | win | draw | abandon =>
      rcases pair_eq_append_cons.mp split with ⟨whole, _⟩ | ⟨_, rfl, _⟩
      · exact (entered whole).elim
      · exact ⟨_, rfl⟩

/-- From a player's turn on, a log ends the turn before anything else happens in the game. -/
theorem endsTurn_of_onTurn {log seen rest : List GameEvent} {session : Session}
    (history : sessions.History log session) (split : log = seen ++ rest) {playerId : PlayerId}
    (onTurn : OnTurn (hydrate seen) playerId) :
    rest = [] ∨ ∃ event ∈ rest, EndsTurn playerId event := by
  induction history generalizing rest with
  | start => exact .inl (List.append_eq_nil_iff.mp split.symm).2
  | @step log session after command events history step induction =>
      have now (boundary : hydrate seen = session.state) :
          ∃ event ∈ events, EndsTurn playerId event := by
        rw [boundary] at onTurn
        exact step.endsTurn onTurn
      rcases List.append_eq_append_iff.mp split with ⟨left, rfl, rfl⟩ | ⟨middle, rfl, rfl⟩
      · cases left with
        | nil => exact .inr (now ((congrArg hydrate (List.append_nil log)).trans history.hydrate))
        | cons first left =>
            cases rest with
            | nil => exact .inl rfl
            | cons event rest =>
                have cut : hydrate (log ++ first :: left) =
                    decider.replay session.state (first :: left) :=
                  (decider.hydrate_append log (first :: left)).trans
                    (congrArg (decider.replay · (first :: left)) history.hydrate)
                have inGame := onTurn.1
                rw [cut] at inGame
                have ends := step.cut_inGame rfl (List.cons_ne_nil first left) inGame
                exact .inr ⟨event, List.mem_cons_self, .inr ends⟩
      · right
        rcases induction rfl with rfl | ⟨event, member, ends⟩
        · have boundary := history.hydrate
          rw [List.append_nil] at boundary
          exact now boundary
        · exact ⟨event, List.mem_append_left _ member, ends⟩

section Service

variable {E P B : Type} [Anyhow E] [EventPublisher E P] [NetworkBroadcaster E B]

/-- A move that passes the checks on a front part of a run's log is accepted on the whole log, or
overtaken. -/
theorem GameService.honest_of_admits (fresh : ℕ → Stamp) (gameId : GameId) (publisher : P)
    (broadcaster : B) (envelopes : List CommandEnvelope) {seen rest : List GameEvent}
    (split : ((GameService.build gameId publisher broadcaster).handleAll fresh
      envelopes).store.events = seen ++ rest)
    {playerId : PlayerId} {cell : ℕ} (admits : Admits (hydrate seen) (.placeTile playerId cell)) :
    (∃ events, decider.decide (decider.hydrate (seen ++ rest)) (.placeTile playerId cell) =
        .ok events) ∨
      (∃ overtaking, .tilePlaced playerId overtaking ∈ rest) ∨
        ∃ reason, .gameEnded reason ∈ rest := by
  obtain ⟨session, history⟩ :=
    GameService.exists_session fresh gameId publisher broadcaster envelopes
  rcases endsTurn_of_onTurn history split ⟨admits.1, admits.2.1⟩ with rfl | ⟨event, member, ends⟩
  · rw [List.append_nil]
    exact .inl ((exists_decide_eq_ok_iff seen _).mpr admits)
  · rcases ends with ⟨cell, rfl⟩ | ⟨reason, rfl⟩
    · exact .inr (.inl ⟨cell, member⟩)
    · exact .inr (.inr ⟨reason, member⟩)

/-- What a client allows on a front part of the server's log is accepted by the server, unless the
rest of the log holds a tile of the same player or the end of the game. -/
theorem stale_click_honest (fresh : ℕ → Stamp) (gameId : GameId) (publisher : P) (broadcaster : B)
    (envelopes : List CommandEnvelope) {seen rest : List GameEvent}
    (split : ((GameService.build gameId publisher broadcaster).handleAll fresh
      envelopes).store.events = seen ++ rest)
    {playerId : PlayerId} {cell : ℕ}
    (allowed : Replica.Allows ⟨decider.hydrate seen, seen⟩ playerId cell) :
    (∃ events, decider.decide (decider.hydrate (seen ++ rest)) (.placeTile playerId cell) =
        .ok events) ∨
      (∃ overtaking, .tilePlaced playerId overtaking ∈ rest) ∨
        ∃ reason, .gameEnded reason ∈ rest :=
  GameService.honest_of_admits fresh gameId publisher broadcaster envelopes split allowed.admits

private def underWay : List GameCommand :=
  [.joinGame ⟨1⟩ "Ann", .joinGame ⟨2⟩ "Bob", .placeTile ⟨1⟩ 4]

private def beforeTile : List GameEvent :=
  [.playerJoined ⟨1⟩ "Ann", .playerJoined ⟨2⟩ "Bob", .gameStarted ⟨1⟩]

private theorem run_underWay :
    decider.run [] underWay = beforeTile ++ [.tilePlaced ⟨1⟩ 4] := by
  decide +kernel

private theorem corner_allowed :
    Replica.Allows ⟨decider.hydrate beforeTile, beforeTile⟩ ⟨1⟩ 2 := by
  rw [Replica.Allows]
  decide +kernel

/-- Ann clicks on the corner before her tile in the centre has come back to her. -/
theorem stale_click_honest_corner :
    (∃ events, decider.decide (decider.hydrate (beforeTile ++ [.tilePlaced ⟨1⟩ 4]))
        (.placeTile ⟨1⟩ 2) = .ok events) ∨
      (∃ overtaking, .tilePlaced ⟨1⟩ overtaking ∈ [GameEvent.tilePlaced ⟨1⟩ 4]) ∨
        ∃ reason, .gameEnded reason ∈ [GameEvent.tilePlaced ⟨1⟩ 4] := by
  let stamp : Stamp := ⟨⟨0⟩, ⟨0⟩⟩
  have logged := GameService.handleAll_new_events (fun _ => stamp) ⟨⟨0⟩⟩ NoopPublisher.mk
    NoopBroadcaster.mk stamp underWay
  have honest := stale_click_honest (fun _ => stamp) ⟨⟨0⟩⟩ NoopPublisher.mk NoopBroadcaster.mk
    (underWay.map (CommandEnvelope.new stamp ⟨⟨0⟩⟩)) (logged.trans run_underWay) corner_allowed
  exact honest

/-- The same for a client at work: it has received the front part of the log as messages, and a
click has sent the move. -/
theorem delivered_click_honest [Bincode] (fresh : ℕ → Stamp) (gameId : GameId) (publisher : P)
    (broadcaster : B) (envelopes : List CommandEnvelope) {seen rest : List GameEvent}
    (split : ((GameService.build gameId publisher broadcaster).handleAll fresh
      envelopes).store.events = seen ++ rest)
    {messages : List Bytes} (decoded : messages.map Bincode.decodeEvent = seen.map .ok)
    {playerId : PlayerId} {cursor : Option (ℤ × ℤ)} {pressed : Bool} {command : GameCommand}
    (sent : (Replica.new.receiveServerEvents messages).handleInput (some playerId) cursor pressed =
      some command) :
    (∃ events, decider.decide (decider.hydrate (seen ++ rest)) command = .ok events) ∨
      (∃ overtaking, .tilePlaced playerId overtaking ∈ rest) ∨
        ∃ reason, .gameEnded reason ∈ rest := by
  obtain ⟨cell, rfl, admits⟩ := Replica.handleInput_admits sent
  rw [Replica.receiveServerEvents_new decoded] at admits
  exact GameService.honest_of_admits fresh gameId publisher broadcaster envelopes split admits

end Service

end TicTacTussle
