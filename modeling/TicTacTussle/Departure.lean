import TicTacTussle.Lifecycle

/-!
# Departures and seats

`LeaveGame` is accepted from anybody at any time, and folding a `PlayerLeft` gives up no seat.  So
the departures of a log are the leave commands of its run, one for one: they concern seated players
exactly when each leave command does, and a game starts against somebody who is gone exactly when
the first player leaves the lobby and another join follows.
-/

namespace TicTacTussle

open GameDecider EventSourcing

/-- The player joined and has not left since. -/
def Present (log : List GameEvent) (playerId : PlayerId) : Prop :=
  ∃ front name later, log = front ++ .playerJoined playerId name :: later ∧
    .playerLeft playerId ∉ later

theorem Present.mem_joins {log : List GameEvent} {playerId : PlayerId}
    (present : Present log playerId) : playerId ∈ joins log := by
  obtain ⟨front, name, later, rfl, _⟩ := present
  exact (mem_joins_iff _ _).mpr ⟨name, List.mem_append_right front List.mem_cons_self⟩

/-- A player who joined and never left is present. -/
theorem present_of_joined {log : List GameEvent} {playerId : PlayerId}
    (joined : playerId ∈ joins log) (stayed : .playerLeft playerId ∉ log) :
    Present log playerId := by
  obtain ⟨name, member⟩ := (mem_joins_iff log playerId).mp joined
  obtain ⟨front, later, rfl⟩ := List.append_of_mem member
  refine ⟨front, name, later, rfl, fun left => stayed ?_⟩
  exact List.mem_append_right front (List.mem_cons_of_mem _ left)

/-- A player who was present when leaving is not present again: nobody joins twice. -/
theorem not_present_after_leave {before middle : List GameEvent} {playerId : PlayerId}
    (nodup : (joins (before ++ .playerLeft playerId :: middle)).Nodup)
    (present : Present before playerId) :
    ¬ Present (before ++ .playerLeft playerId :: middle) playerId := by
  rintro ⟨front, name, later, split, stayed⟩
  have again : playerId ∈ joins middle := by
    rcases split_append split with ⟨rest, rfl, later_eq⟩ | ⟨left, rfl, tail⟩
    · exact (stayed (later_eq ▸ List.mem_append_right rest List.mem_cons_self)).elim
    · cases left with
      | nil => cases tail
      | cons head left =>
          obtain ⟨_, rfl⟩ := List.cons.inj tail
          refine (mem_joins_iff _ _).mpr ⟨name, ?_⟩
          exact List.mem_append_right left List.mem_cons_self
  rw [joins_append] at nodup
  exact (List.disjoint_of_nodup_append nodup) present.mem_joins again

/-- The end by a departure was appended by a leave command. -/
theorem exists_leave_of_ending {commands : List GameCommand} {leaver : PlayerId}
    (member : .gameEnded (.playerLeft leaver) ∈ decider.run [] commands) :
    ∃ earlier later, commands = earlier ++ .leaveGame leaver :: later := by
  obtain ⟨before, after, split⟩ := List.append_of_mem member
  obtain ⟨⟨front, command, back, spec, next, events, left, right, rest, rfl, history, step,
    events_eq, _, _, _⟩⟩ := sessions.exists_emission split
  cases step with
  | abandon =>
      simp only [pair_eq_append_cons, reduceCtorEq, false_and, and_false, false_or,
        GameEvent.gameEnded.injEq, EndGameReason.playerLeft.injEq] at events_eq
      obtain ⟨_, rfl, _⟩ := events_eq
      exact ⟨front, back, rfl⟩
  | joinFirst | place | leave => simp [singleton_eq_append_cons] at events_eq
  | joinSecond | win | draw => simp [pair_eq_append_cons] at events_eq

/-- Who leaves was present, and a departure that ends the game is that of a seated player. -/
structure DeparturesSeated (log : List GameEvent) : Prop where
  present : ∀ before leaver after, log = before ++ .playerLeft leaver :: after →
    Present before leaver
  seated : ∀ leaver, .gameEnded (.playerLeft leaver) ∈ log → leaver ∈ joins log

/-- Each leave command comes from a player who holds a seat in its turn, and from each only one. -/
def SeatedLeaves (commands : List GameCommand) : Prop :=
  ∀ earlier leaver later, commands = earlier ++ .leaveGame leaver :: later →
    HoldsSeat (hydrate (decider.run [] earlier)) leaver ∧ .leaveGame leaver ∉ earlier

theorem holdsSeat_iff {log : List GameEvent} {session : Session}
    (history : sessions.History log session) (playerId : PlayerId) :
    HoldsSeat (hydrate log) playerId ↔ playerId ∈ joins log := by
  rw [history_state history, history_joins history]
  exact session.holdsSeat_iff playerId

theorem SeatedLeaves.present {commands earlier later : List GameCommand} {leaver : PlayerId}
    (seatedLeaves : SeatedLeaves commands)
    (split : commands = earlier ++ .leaveGame leaver :: later) :
    Present (decider.run [] earlier) leaver := by
  obtain ⟨holds, once⟩ := seatedLeaves earlier leaver later split
  obtain ⟨session, history⟩ := sessions.exists_history earlier
  apply present_of_joined ((holdsSeat_iff history leaver).mp holds)
  intro left
  obtain ⟨before, after, log_eq⟩ := List.append_of_mem left
  obtain ⟨front, back, rfl, _⟩ := exists_leave_of_departure log_eq
  exact once (List.mem_append_right front List.mem_cons_self)

theorem run_departuresSeated_iff (commands : List GameCommand) :
    DeparturesSeated (decider.run [] commands) ↔ SeatedLeaves commands := by
  constructor
  · intro departures earlier leaver later split
    obtain ⟨session, history⟩ := sessions.exists_history earlier
    obtain ⟨rest, log_eq⟩ := run_leave earlier later leaver
    rw [← split] at log_eq
    have present := departures.present _ leaver _ log_eq
    refine ⟨(holdsSeat_iff history leaver).mpr present.mem_joins, fun again => ?_⟩
    obtain ⟨front, back, rfl⟩ := List.append_of_mem again
    obtain ⟨middle, earlier_eq⟩ := run_leave front back leaver
    have first : Present (decider.run [] front) leaver := by
      apply departures.present _ leaver
      rw [log_eq, earlier_eq, List.append_assoc, List.cons_append]
    have nodup := history_joins history ▸ session.joined_nodup
    rw [earlier_eq] at present nodup
    exact not_present_after_leave nodup first present
  · intro seatedLeaves
    constructor
    · intro before leaver after split
      obtain ⟨earlier, later, commands_eq, rfl⟩ := exists_leave_of_departure split
      exact seatedLeaves.present commands_eq
    · intro leaver ended
      obtain ⟨earlier, later, rfl⟩ := exists_leave_of_ending ended
      have joined := (seatedLeaves.present rfl).mem_joins
      obtain ⟨rest, log_eq⟩ := run_leave earlier later leaver
      rw [log_eq, joins_append]
      exact List.mem_append_left _ joined

/-! ## Starting against somebody who is there -/

/-- When the game starts, nobody has left since joining. -/
def StartsTogether (log : List GameEvent) : Prop :=
  ∀ before goesFirst after, log = before ++ .gameStarted goesFirst :: after →
    ∀ front playerId name later, before = front ++ .playerJoined playerId name :: later →
      .playerLeft playerId ∉ later

/-- The first player leaves the lobby, and somebody else asks to join later. -/
def LobbyDeserted (commands : List GameCommand) : Prop :=
  ∃ earlier leaver middle joiner name later,
    commands = earlier ++ .leaveGame leaver :: (middle ++ .joinGame joiner name :: later) ∧
      WaitsAlone (hydrate (decider.run [] earlier)) leaver ∧
        joiner ≠ leaver ∧ joiner ≠ .vacant

theorem waitsAlone_iff {log : List GameEvent} {session : Session}
    (history : sessions.History log session) (playerId : PlayerId) :
    WaitsAlone (hydrate log) playerId ↔ joins log = [playerId] := by
  rw [WaitsAlone, history_state history, Session.state_players, Session.state_stage,
    history_joins history]
  cases session with
  | empty =>
      simp only [Session.players, Session.joined, List.nil_eq, reduceCtorEq, iff_false]
      rintro ⟨_, same, named⟩
      exact named same.symm
  | waiting x taken =>
      simp only [Session.stage, Session.players, Session.joined, List.cons.injEq, and_true,
        true_and]
      constructor
      · exact fun alone => alone.1
      · rintro rfl
        exact ⟨rfl, taken⟩
  | playing | won | drawn | abandoned => simp [Session.stage, Session.joined]

theorem exists_start_iff {log : List GameEvent} {session : Session}
    (history : sessions.History log session) :
    (∃ goesFirst, .gameStarted goesFirst ∈ log) ↔ ¬ (joins log).length < 2 := by
  have started : (∃ goesFirst, .gameStarted goesFirst ∈ log) ↔ 0 < (starts log).length := by
    rw [List.length_pos_iff_exists_mem]
    refine exists_congr fun goesFirst => ?_
    rw [starts, List.mem_filterMap]
    constructor
    · exact fun member => ⟨.gameStarted goesFirst, member, rfl⟩
    · rintro ⟨event, member, found⟩
      cases event with
      | gameStarted first => exact Option.some.inj found ▸ member
      | playerJoined | tilePlaced | playerLeft | gameEnded => cases found
  rw [started, history_starts history, history_joins history, ← session.stage_eq_lobby_iff]
  split <;> simp_all

/-- Whoever waits alone plays with the next joiner. -/
theorem joins_of_waiting {log : List GameEvent} {session : Session}
    (history : sessions.History log session) {first joiner : PlayerId} (name : String)
    (alone : joins log = [first]) (other : joiner ≠ first) (named : joiner ≠ .vacant) :
    joins (decider.next log (.joinGame joiner name)) = [first, joiner] := by
  rw [history_joins history] at alone
  cases session with
  | waiting x taken =>
      obtain rfl : x = first := by simpa [Session.joined] using alone
      have step := Session.Step.joinSecond x joiner name taken named other.symm
      have accepted := (history.decide_iff _ _).mpr ⟨_, step⟩
      rw [decider.next_of_ok accepted]
      exact history_joins (history.step step)
  | empty | playing | won | drawn | abandoned => simp [Session.joined] at alone

theorem joins_growing (earlier later : List GameCommand) :
    ∃ more, joins (decider.run [] (earlier ++ later)) =
      joins (decider.run [] earlier) ++ more := by
  obtain ⟨rest, grown⟩ := decider.log_prefix_run (decider.run [] earlier) later
  rw [Decider.run_append, ← grown, joins_append]
  exact ⟨joins rest, rfl⟩

/-- Whoever joined first and alone had joined alone before, too. -/
theorem joins_eq_singleton {earlier later : List GameCommand} {first : PlayerId}
    (alone : joins (decider.run [] (earlier ++ later)) = [first])
    (member : first ∈ joins (decider.run [] earlier)) :
    joins (decider.run [] earlier) = [first] := by
  obtain ⟨more, grown⟩ := joins_growing earlier later
  rw [alone] at grown
  cases found : joins (decider.run [] earlier) with
  | nil => simp [found] at member
  | cons head others =>
      rw [found] at grown
      obtain ⟨rfl, nothing⟩ := List.cons.inj grown
      rw [(List.append_eq_nil_iff.mp nothing.symm).1]

/-- A game starts once somebody else joins after the first player. -/
theorem starts_of_second_join {earlier : List GameCommand} (middle later : List GameCommand)
    {first joiner : PlayerId} (name : String) (alone : joins (decider.run [] earlier) = [first])
    (other : joiner ≠ first) (named : joiner ≠ .vacant) :
    ∃ goesFirst, .gameStarted goesFirst ∈
      decider.run [] (earlier ++ (middle ++ .joinGame joiner name :: later)) := by
  obtain ⟨session, history⟩ :=
    sessions.exists_history (earlier ++ (middle ++ .joinGame joiner name :: later))
  obtain ⟨waiting, waited⟩ := sessions.exists_history (earlier ++ middle)
  rw [exists_start_iff history]
  obtain ⟨between, joined_eq⟩ := joins_growing earlier middle
  rw [alone] at joined_eq
  cases between with
  | nil =>
      have both : joins (decider.run [] (earlier ++ middle ++ [.joinGame joiner name])) =
          [first, joiner] := by
        rw [decider.run_append]
        exact joins_of_waiting waited name joined_eq other named
      obtain ⟨more, grown⟩ := joins_growing (earlier ++ middle ++ [.joinGame joiner name]) later
      have whole : earlier ++ middle ++ [.joinGame joiner name] ++ later =
          earlier ++ (middle ++ .joinGame joiner name :: later) := by
        simp
      rw [← whole, grown, both]
      simp
  | cons second between =>
      obtain ⟨more, grown⟩ := joins_growing (earlier ++ middle) (.joinGame joiner name :: later)
      rw [List.append_assoc, joined_eq] at grown
      rw [grown]
      simp

/-- The start of a deserted game comes after the departure of the first player. -/
theorem LobbyDeserted.not_startsTogether {commands : List GameCommand}
    (deserted : LobbyDeserted commands) : ¬ StartsTogether (decider.run [] commands) := by
  obtain ⟨earlier, leaver, middle, joiner, name, later, rfl, waits, other, named⟩ := deserted
  intro together
  obtain ⟨session, history⟩ := sessions.exists_history earlier
  have alone := (waitsAlone_iff history leaver).mp waits
  obtain ⟨rest, log_eq⟩ := run_leave earlier (middle ++ .joinGame joiner name :: later) leaver
  obtain ⟨goesFirst, member⟩ :=
    starts_of_second_join (.leaveGame leaver :: middle) later name alone other named
  obtain ⟨before, after, split⟩ := List.append_of_mem member
  rcases split_append (log_eq.symm.trans split) with ⟨_, early, _⟩ | ⟨left, rfl, late⟩
  · have started : ∃ goesFirst, .gameStarted goesFirst ∈ decider.run [] earlier :=
      ⟨goesFirst, early ▸ List.mem_append_right before List.mem_cons_self⟩
    rw [exists_start_iff history, alone] at started
    exact started (by simp)
  · cases left with
    | nil => cases late
    | cons head left =>
        obtain ⟨rfl, _⟩ := List.cons.inj late
        have joined : leaver ∈ joins (decider.run [] earlier) :=
          alone ▸ List.mem_singleton_self leaver
        obtain ⟨joinName, joinMember⟩ := (mem_joins_iff _ leaver).mp joined
        obtain ⟨front, back, earlier_eq⟩ := List.append_of_mem joinMember
        have before_eq : decider.run [] earlier ++ .playerLeft leaver :: left =
            front ++ .playerJoined leaver joinName :: (back ++ .playerLeft leaver :: left) := by
          rw [earlier_eq, List.append_assoc, List.cons_append]
        exact together _ goesFirst after split front leaver joinName _ before_eq
          (List.mem_append_right back List.mem_cons_self)

/-- A departure between a join and the start is the first player's, out of the lobby. -/
theorem startsTogether_of_attended {commands : List GameCommand}
    (attended : ¬ LobbyDeserted commands) : StartsTogether (decider.run [] commands) := by
  intro before goesFirst after split front playerId name later before_eq left
  obtain ⟨earlier, joiner, joinName, back, rfl, rfl, alone, other, named⟩ :=
    exists_second_join split
  rcases split_append before_eq with ⟨middle, earlier_eq, rfl⟩ | ⟨_, _, last⟩
  · have leftEarlier : .playerLeft playerId ∈ middle := by simpa using left
    have joined : playerId ∈ joins (decider.run [] earlier) := by
      rw [earlier_eq]
      exact (mem_joins_iff _ _).mpr ⟨name, List.mem_append_right front List.mem_cons_self⟩
    obtain rfl : playerId = goesFirst := by simpa [alone] using joined
    obtain ⟨stayed, gone, rfl⟩ := List.append_of_mem leftEarlier
    have leave_eq : decider.run [] earlier =
        (front ++ .playerJoined playerId name :: stayed) ++ .playerLeft playerId :: gone := by
      rw [earlier_eq, List.append_assoc, List.cons_append]
    obtain ⟨waiting, between, rfl, waiting_eq⟩ := exists_leave_of_departure leave_eq
    obtain ⟨session, waited⟩ := sessions.exists_history waiting
    have waits : playerId ∈ joins (decider.run [] waiting) := by
      rw [← waiting_eq]
      exact (mem_joins_iff _ _).mpr ⟨name, List.mem_append_right front List.mem_cons_self⟩
    have sits := joins_eq_singleton alone waits
    exact attended ⟨waiting, playerId, between, joiner, joinName, back, by simp,
      (waitsAlone_iff waited playerId).mpr sits, other, named⟩
  · obtain ⟨_, _, rfl⟩ := singleton_eq_append_cons.mp last
    cases left

theorem run_startsTogether_iff (commands : List GameCommand) :
    StartsTogether (decider.run [] commands) ↔ ¬ LobbyDeserted commands :=
  ⟨fun together deserted => deserted.not_startsTogether together, startsTogether_of_attended⟩

section Runs

variable {E P B : Type} [Anyhow E] [EventPublisher E P] [NetworkBroadcaster E B]

/-- Every game that a service starts is between two players who are there, exactly when the first
player never leaves the lobby before somebody else asks to join. -/
theorem service_startsTogether_iff (fresh : ℕ → Stamp) (gameId : GameId) (publisher : P)
    (broadcaster : B) (envelopes : List CommandEnvelope) :
    StartsTogether
        ((GameService.build gameId publisher broadcaster).handleAll fresh envelopes).store.events ↔
      ¬ LobbyDeserted (GameService.addressed gameId envelopes) := by
  rw [GameService.handleAll_events]
  exact run_startsTogether_iff _

/-- The leave commands of players who are not present change nothing in the log. -/
def GameService.AbsentIgnored (fresh : ℕ → Stamp) (service : GameService P B)
    (envelopes : List CommandEnvelope) : Prop :=
  ∀ earlier cmdEnv later leaver, envelopes = earlier ++ cmdEnv :: later →
    cmdEnv.command = .leaveGame leaver →
      ¬ Present (service.handleAll fresh earlier).store.events leaver →
        (service.handleAll fresh (earlier ++ [cmdEnv])).store.events =
          (service.handleAll fresh earlier).store.events

theorem SeatedLeaves.absentIgnored (fresh : ℕ → Stamp) (gameId : GameId) (publisher : P)
    (broadcaster : B) {envelopes : List CommandEnvelope}
    (seatedLeaves : SeatedLeaves (GameService.addressed gameId envelopes)) :
    (GameService.build gameId publisher broadcaster).AbsentIgnored fresh envelopes := by
  rintro earlier cmdEnv later leaver rfl leaves absent
  let service := GameService.build gameId publisher broadcaster
  by_cases forUs : cmdEnv.gameId = gameId
  · have split : GameService.addressed gameId (earlier ++ cmdEnv :: later) =
        GameService.addressed gameId earlier ++
          .leaveGame leaver :: GameService.addressed gameId later := by
      rw [GameService.addressed_append, ← leaves]
      simp [GameService.addressed, forUs]
    have present := seatedLeaves.present split
    rw [GameService.handleAll_events] at absent
    exact (absent present).elim
  · have foreign : cmdEnv.gameId ≠ (service.handleAll fresh earlier).store.gameId := by
      rw [GameService.handleAll_gameId]
      exact forUs
    have same :=
      GameService.handle_of_wrongGame fresh (service.handleAll fresh earlier) cmdEnv foreign
    rw [GameService.handleAll_append, GameService.handleAll_cons, same]
    rfl

/-- Only seated players leave, each only once, and everybody else's leave commands change nothing,
exactly when every leave command comes from a player who holds a seat and sent none before. -/
theorem service_departuresSeated_iff (fresh : ℕ → Stamp) (gameId : GameId) (publisher : P)
    (broadcaster : B) (envelopes : List CommandEnvelope) :
    let service := GameService.build gameId publisher broadcaster
    (DeparturesSeated (service.handleAll fresh envelopes).store.events ∧
        service.AbsentIgnored fresh envelopes) ↔
      SeatedLeaves (GameService.addressed gameId envelopes) := by
  intro service
  rw [GameService.handleAll_events]
  constructor
  · rintro ⟨departures, _⟩
    exact (run_departuresSeated_iff _).mp departures
  · intro seatedLeaves
    exact ⟨(run_departuresSeated_iff _).mpr seatedLeaves,
      seatedLeaves.absentIgnored fresh gameId publisher broadcaster⟩

end Runs

private def deserted : List GameCommand :=
  [.joinGame ⟨1⟩ "Ann", .leaveGame ⟨1⟩, .joinGame ⟨2⟩ "Bob"]

private theorem run_deserted : decider.run [] deserted =
    [.playerJoined ⟨1⟩ "Ann", .playerLeft ⟨1⟩, .playerJoined ⟨2⟩ "Bob"] ++
      [.gameStarted ⟨1⟩] := by
  decide +kernel

/-- Bob's join starts a game against Ann, who has left the lobby. -/
theorem game_starts_deserted :
    ¬ ∀ (fresh : ℕ → Stamp) (gameId : GameId) (envelopes : List CommandEnvelope),
      StartsTogether ((GameService.build gameId NoopPublisher.mk NoopBroadcaster.mk).handleAll fresh
        envelopes).store.events := by
  intro always
  let stamp : Stamp := ⟨⟨0⟩, ⟨0⟩⟩
  have together := always (fun _ => stamp) ⟨⟨0⟩⟩ (deserted.map (CommandEnvelope.new stamp ⟨⟨0⟩⟩))
  rw [GameService.handleAll_new_events, run_deserted] at together
  exact together _ ⟨1⟩ [] rfl [] ⟨1⟩ "Ann" _ rfl List.mem_cons_self

private def intrusion : List GameCommand :=
  [.joinGame ⟨1⟩ "Ann", .joinGame ⟨2⟩ "Bob", .leaveGame ⟨9⟩]

private theorem run_intrusion : decider.run [] intrusion =
    [.playerJoined ⟨1⟩ "Ann", .playerJoined ⟨2⟩ "Bob", .gameStarted ⟨1⟩, .playerLeft ⟨9⟩,
      .gameEnded (.playerLeft ⟨9⟩)] := by
  decide +kernel

/-- Somebody who never joined ends the running game. -/
theorem stranger_ends_game :
    ¬ ∀ (fresh : ℕ → Stamp) (gameId : GameId) (envelopes : List CommandEnvelope),
      let service := GameService.build gameId NoopPublisher.mk NoopBroadcaster.mk
      DeparturesSeated (service.handleAll fresh envelopes).store.events ∧
        service.AbsentIgnored fresh envelopes := by
  intro always
  let stamp : Stamp := ⟨⟨0⟩, ⟨0⟩⟩
  have departures := (always (fun _ => stamp) ⟨⟨0⟩⟩
    (intrusion.map (CommandEnvelope.new stamp ⟨⟨0⟩⟩))).1
  rw [GameService.handleAll_new_events, run_intrusion] at departures
  have seated := departures.seated ⟨9⟩ (by simp)
  simp [joins] at seated

end TicTacTussle
