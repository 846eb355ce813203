import TicTacTussle.Screen
import TicTacTussle.World

/-!
# What the screens of a game say

A program learns of the game with delay and draws what has arrived.  In a calm run its screen shows
a front part of the server's log at all times, and screens that report an end report the same one.
-/

namespace TicTacTussle

open Wire GameDecider

namespace StatusText

/-- What the winner reads. -/
def victory : StatusText := ⟨"You win! 🎉", ⟨255, 215, 0⟩⟩

/-- Nobody but the winner is told of a victory. -/
theorem winner_of_victory {clientId : UInt64} {nameOf : PlayerId → Option String}
    {reason : EndGameReason} (told : ending ⟨clientId⟩ nameOf reason = victory) :
    reason = .playerWon ⟨clientId⟩ := by
  cases reason with
  | playerWon winner =>
      by_cases own : winner = ⟨clientId⟩
      · rw [own]
      · simp [ending, own, victory] at told
  | draw | playerLeft => simp [ending, victory] at told

theorem turn_ne_victory (activeId myId : PlayerId) (opponent : Option String) :
    turn activeId myId opponent ≠ victory := by
  intro same
  have colors := congrArg StatusText.color same
  unfold turn at colors
  split at colors <;> simp [victory, Color.white] at colors

/-- The bar waits, names the turn of a running game, or reports an end among the events. -/
theorem expected_cases (clientId : UInt64) (shown : List GameEvent)
    (nameOf : PlayerId → Option String) :
    expected clientId shown nameOf = waiting ∨
      ((hydrate shown).stage = .inGame ∧ expected clientId shown nameOf =
        turn (hydrate shown).activePlayerId ⟨clientId⟩ (nameOf (hydrate shown).activePlayerId)) ∨
        ∃ reason, .gameEnded reason ∈ shown ∧
          expected clientId shown nameOf = ending ⟨clientId⟩ nameOf reason := by
  unfold expected
  split
  · rename_i inGame
    exact .inr (.inl ⟨inGame, rfl⟩)
  · rename_i reason _ first
    exact .inr (.inr ⟨reason, (mem_endings_iff _ _).mp (List.mem_of_mem_head? first), rfl⟩)
  · exact .inl rfl

end StatusText

namespace World

section Screens

variable {E P : Type} [Anyhow E] [EventPublisher E P] [Bincode] {fresh clock : ℕ → Stamp}
  {gameId : GameId} {publisher : P} {world : World E P}

/-- The screen of a program after a frame shows what had arrived before it. -/
structure ScreenShows (world : World E P) (clientId : UInt64) (peer : Peer)
    (inputs : List FrameInput) (last : FrameInput) : Prop where
  logged : ClientApp.arrivals inputs <+: world.loop.log
  pieces : ClientApp.PiecesShow clientId inputs last (ClientApp.arrivals inputs) peer.app.pieces
  status : ClientApp.StatusShows clientId inputs last (ClientApp.arrivals inputs) peer.app.status

theorem Sound.screenShows (sound : world.Sound fresh clock gameId publisher)
    (follows : world.Follows) {clientId : UInt64} {peer : Peer}
    (found : world.peers clientId = some peer) {inputs : List FrameInput} {last : FrameInput}
    (frames : peer.inputs = inputs ++ [last]) : world.ScreenShows clientId peer inputs last := by
  have own := sound.peers clientId peer found
  have ran := own.ran
  rw [frames] at ran
  obtain ⟨earlier, middle, ranEarlier, updated, after⟩ := ClientApp.run_append_singleton ran
  have received := (ClientApp.heardEvents_prefix own.received).trans (follows clientId peer found)
  have logged : ClientApp.arrivals inputs <+: world.loop.log := by
    have arrived : peer.arrived = (inputs.flatMap FrameInput.arrived) ++ last.arrived := by
      rw [Peer.arrived, frames, List.flatMap_append, List.flatMap_singleton]
    rw [arrived, ClientApp.heardEvents_append] at received
    exact (List.prefix_append _ _).trans received
  obtain ⟨rest, inOrder⟩ := logged
  have front := gameFront (world.loop.logged.symm.trans inOrder.symm)
  rw [ClientApp.receiveServerEvents_eq] at after
  have pieces : peer.app.pieces = middle.pieces := by rw [after]
  have status : peer.app.status = middle.status := by rw [after]
  refine ⟨⟨rest, inOrder⟩, ?_, ?_⟩
  · rw [pieces]
    exact ClientApp.piecesShow_of_front front ranEarlier updated
  · rw [status]
    exact ClientApp.statusShows_of_front front ranEarlier updated

/-- In a calm run the screen of every program shows, after each of its frames, a front part of the
server's log: the one that had arrived before the frame. -/
theorem run_screensShow {actions : List Action}
    (ran : (run fresh clock gameId publisher actions : Option (World E P)) = some world)
    (calm : world.Calm fresh clock gameId publisher) :
    ∀ clientId peer, world.peers clientId = some peer → ∀ inputs last,
      peer.inputs = inputs ++ [last] → world.ScreenShows clientId peer inputs last := by
  intro clientId peer found inputs last frames
  exact (run_sound ran).screenShows (run_follows ran calm) found frames

/-- The names that a program may know: those of both players, or none yet. -/
def Knows (world : World E P) (pair : Option PlayerPair) : Prop :=
  pair = none ∨ pair = pairOf world.loop.log

/-- The bar is that of a game still going on: it waits, or names the turn at a front part of the
log. -/
def Undecided (world : World E P) (clientId : UInt64) (status : StatusText) : Prop :=
  status = .waiting ∨ ∃ seen pair, seen <+: world.loop.log ∧ world.Knows pair ∧
    (hydrate seen).stage = .inGame ∧
      status = .turn (hydrate seen).activePlayerId ⟨clientId⟩
        (namesOf pair (hydrate seen).activePlayerId)

/-- The bar reports this end, from the side of the client and with the names of the game. -/
def Reports (world : World E P) (clientId : UInt64) (reason : EndGameReason)
    (status : StatusText) : Prop :=
  ∃ pair, world.Knows pair ∧ status = .ending ⟨clientId⟩ (namesOf pair) reason

omit [Anyhow E] [EventPublisher E P] [Bincode] in
/-- The pair of a front part of a log is that of the log, if there is one. -/
theorem knows_of_prefix {seen : List GameEvent} (logged : seen <+: world.loop.log)
    {pair : Option PlayerPair} (known : pair = none ∨ pair = pairOf seen) : world.Knows pair := by
  rcases known with none | named
  · exact .inl none
  have whole : world.loop.log = world.loop.log ++ [] := (List.append_nil _).symm
  have front := gameFront (world.loop.logged.symm.trans whole)
  rcases Nat.lt_or_ge (joins seen).length 2 with fewer | both
  · exact .inl (named.trans (pairOf_eq_none fewer))
  · have bothSeen : (joins seen).length = 2 :=
      Nat.le_antisymm (front.of_prefix logged).atMostTwo both
    have settled := pairOf_of_prefix logged bothSeen front.atMostTwo
    exact .inr (named.trans settled)

omit [Anyhow E] [EventPublisher E P] [Bincode] in
/-- The end of a game is recorded once. -/
theorem endings_of_mem {reason : EndGameReason} (ended : .gameEnded reason ∈ world.loop.log) :
    endings world.loop.log = [reason] := by
  have oneEnd : (endings world.loop.log).length ≤ 1 := by
    have logged : world.loop.log = decider.run [] _ := world.loop.logged
    rw [logged]
    exact (run_lifecycleCorrect _).oneEnd
  have member := (mem_endings_iff _ _).mpr ended
  obtain ⟨single, whole⟩ := List.length_eq_one_iff.mp
    (Nat.le_antisymm oneEnd (List.length_pos_of_mem member))
  rw [whole, List.mem_singleton] at member
  rw [whole, member]

/-- The bar of a program is that of a game going on, or reports the recorded end. -/
theorem Sound.status_cases (sound : world.Sound fresh clock gameId publisher)
    (follows : world.Follows) {clientId : UInt64} {peer : Peer}
    (found : world.peers clientId = some peer) :
    world.Undecided clientId peer.app.status ∨
      ∃ reason, endings world.loop.log = [reason] ∧
        world.Reports clientId reason peer.app.status := by
  rcases List.eq_nil_or_concat peer.inputs with none | ⟨inputs, last, frames⟩
  · have own := sound.peers clientId peer found
    have ran := own.ran
    rw [none] at ran
    obtain same := Option.some.inj ran
    exact .inl (.inl (congrArg ClientApp.status same).symm)
  · rw [List.concat_eq_append] at frames
    have shows := sound.screenShows follows found frames
    obtain ⟨pair, named, status⟩ := shows.status.current
    have knows := knows_of_prefix shows.logged named
    rw [status]
    rcases StatusText.expected_cases clientId (ClientApp.arrivals inputs) (namesOf pair) with
      waits | ⟨inGame, turn⟩ | ⟨reason, ended, reports⟩
    · exact .inl (.inl waits)
    · exact .inl (.inr ⟨ClientApp.arrivals inputs, pair, shows.logged, knows, inGame, turn⟩)
    · exact .inr ⟨reason, endings_of_mem (shows.logged.subset ended), pair, knows, reports⟩

/-- Only the recorded winner is told of a victory. -/
theorem Sound.winner_of_victory (sound : world.Sound fresh clock gameId publisher)
    (follows : world.Follows) {clientId : UInt64} {peer : Peer}
    (found : world.peers clientId = some peer) (told : peer.app.status = StatusText.victory) :
    endings world.loop.log = [.playerWon ⟨clientId⟩] := by
  rcases sound.status_cases follows found with (waits | ⟨_, _, _, _, _, turn⟩) |
    ⟨reason, ended, pair, _, reports⟩
  · exact absurd (waits.symm.trans told) (by decide)
  · exact (StatusText.turn_ne_victory _ _ _ (turn.symm.trans told)).elim
  · rw [ended, StatusText.winner_of_victory (reports.symm.trans told)]

/-- What the bars of all programs say about the end of the game. -/
structure VerdictsAgree (world : World E P) : Prop where
  /-- Whatever the delays, a bar reports no other end than the recorded one. -/
  recorded : ∀ clientId peer, world.peers clientId = some peer →
    world.Undecided clientId peer.app.status ∨
      ∃ reason, endings world.loop.log = [reason] ∧
        world.Reports clientId reason peer.app.status
  /-- A program that is told it has won is the recorded winner. -/
  victory : ∀ clientId peer, world.peers clientId = some peer →
    peer.app.status = StatusText.victory → endings world.loop.log = [.playerWon ⟨clientId⟩]
  /-- While one program is told that it has won, every other one is still in the game or reads the
  name of this winner. -/
  others : ∀ winner peer, world.peers winner = some peer →
    peer.app.status = StatusText.victory →
      ∀ clientId other, world.peers clientId = some other → clientId ≠ winner →
        world.Undecided clientId other.app.status ∨
          ∃ pair, world.Knows pair ∧ other.app.status =
            ⟨(namesOf pair ⟨winner⟩).getD "Opponent" ++ " wins.", ⟨200, 80, 80⟩⟩

/-- In a calm run the screens never contradict each other about the end of the game. -/
theorem run_verdictsAgree {actions : List Action}
    (ran : (run fresh clock gameId publisher actions : Option (World E P)) = some world)
    (calm : world.Calm fresh clock gameId publisher) : world.VerdictsAgree := by
  have sound := run_sound ran
  have follows := run_follows ran calm
  refine ⟨fun _ _ found => sound.status_cases follows found,
    fun _ _ found told => sound.winner_of_victory follows found told, ?_⟩
  intro winner peer found told clientId other foundOther apart
  refine (sound.status_cases follows foundOther).imp_right ?_
  rintro ⟨reason, ended, pair, knows, reports⟩
  obtain rfl : reason = .playerWon ⟨winner⟩ :=
    List.singleton_inj.mp (ended.symm.trans (sound.winner_of_victory follows found told))
  have loses : (⟨winner⟩ : PlayerId) ≠ ⟨clientId⟩ := fun same =>
    apart (congrArg PlayerId.raw same).symm
  rw [StatusText.ending, if_neg loses] at reports
  exact ⟨pair, knows, reports⟩

end Screens

attribute [local instance] standardBincode

private def timeless : ℕ → Stamp := fun _ => ⟨⟨0⟩, ⟨0⟩⟩

private def met : List GameEvent :=
  [.playerJoined ⟨1⟩ "Ann", .playerJoined ⟨2⟩ "Bob", .gameStarted ⟨1⟩]

private def spoken (command : GameCommand) : Bytes :=
  (Bincode.encodeCommand command).toOption.getD []

/-- A frame in which some events arrive, with a click on the cell if there is one. -/
private def watching (clicked : Option (ℤ × ℤ)) (events : List GameEvent) : FrameInput where
  order := UpdateSystem.all
  everyOnce := .refl _
  cursor := clicked
  pressed := clicked.isSome
  arrived := events.filterMap fun event => (Bincode.encodeEvent event).toOption

/-- A player clicks, the server takes the tile, and both programs hear of it. -/
private def round (clientId : UInt64) (row col : ℕ) (ends : List GameEvent) : List Action :=
  let cell := row * 3 + col
  let heard := .tilePlaced ⟨clientId⟩ cell :: ends
  [.frame clientId (watching (some (row, col)) []),
    .tick ⟨[.message clientId (spoken (.placeTile ⟨clientId⟩ cell))], [1, 2], []⟩,
    .frame 1 (watching none heard), .frame 2 (watching none heard)]

private def won : List Action :=
  [.launch 1 "Ann", .frame 1 (watching none []), .launch 2 "Bob", .frame 2 (watching none []),
    .tick ⟨[.connect 1 "Ann"], [], []⟩,
    .tick ⟨[.connect 2 "Bob", .message 1 (spoken (.joinGame ⟨1⟩ "Ann")),
      .message 2 (spoken (.joinGame ⟨2⟩ "Bob"))], [1, 2], []⟩,
    .frame 1 (watching none met), .frame 2 (watching none met)] ++
  round 1 0 0 [] ++ round 2 1 0 [] ++ round 1 0 1 [] ++ round 2 1 1 [] ++
  round 1 0 2 [.gameEnded (.playerWon ⟨1⟩)] ++
  [.frame 1 (watching none []), .frame 2 (watching none [])]

private def afterWon : Option (World ErrorChain NoopPublisher) :=
  run timeless timeless ⟨⟨0⟩⟩ NoopPublisher.mk won

private theorem exists_afterWon : ∃ world, afterWon = some world ∧
    world.Calm timeless timeless ⟨⟨0⟩⟩ NoopPublisher.mk := by
  have runs : afterWon.isSome := by decide +kernel
  have logged : (afterWon.map fun world => world.loop.log) = some (met ++
      [.tilePlaced ⟨1⟩ 0, .tilePlaced ⟨2⟩ 3, .tilePlaced ⟨1⟩ 1, .tilePlaced ⟨2⟩ 4,
        .tilePlaced ⟨1⟩ 2, .gameEnded (.playerWon ⟨1⟩)]) := by
    decide +kernel
  have arrivals : (afterWon.map fun world => world.ticks.map fun input =>
      (input.changes.filter NetworkChange.moves).length) = some [1, 1, 0, 0, 0, 0, 0] := by
    decide +kernel
  obtain ⟨world, ran⟩ := Option.isSome_iff_exists.mp runs
  rw [ran, Option.map_some, Option.some.injEq] at logged arrivals
  refine ⟨world, ran, GameLoop.quiet_of_single rfl ?_, ?_⟩
  · intro input member
    have listed := List.mem_map_of_mem (f := fun input : TickInput =>
      (input.changes.filter NetworkChange.moves).length) member
    rw [arrivals] at listed
    simp only [List.mem_cons, List.not_mem_nil, or_false] at listed
    omega
  · intro event member
    rw [logged] at member
    simp only [met, List.cons_append, List.nil_append, List.mem_cons, List.not_mem_nil,
      or_false] at member
    rcases member with rfl | rfl | rfl | rfl | rfl | rfl | rfl | rfl | rfl <;> exact ⟨_, rfl⟩

/-- Ann has taken the top row, and both screens show the game. -/
theorem run_screensShow_won : ∃ world, afterWon = some world ∧
    ∀ clientId peer, world.peers clientId = some peer → ∀ inputs last,
      peer.inputs = inputs ++ [last] → world.ScreenShows clientId peer inputs last := by
  obtain ⟨world, ran, calm⟩ := exists_afterWon
  exact ⟨world, ran, run_screensShow ran calm⟩

/-- Ann is told that she has won. -/
theorem run_verdictsAgree_won : ∃ world, afterWon = some world ∧
    ((world.peers 1).map fun peer => peer.app.status) = some .victory ∧ world.VerdictsAgree := by
  obtain ⟨world, ran, calm⟩ := exists_afterWon
  have told : (afterWon.map fun world => (world.peers 1).map fun peer => peer.app.status) =
      some (some .victory) := by
    decide +kernel
  rw [ran, Option.map_some, Option.some.injEq] at told
  exact ⟨world, ran, told, run_verdictsAgree ran calm⟩

end World

end TicTacTussle
