import TicTacTussle.ClientApp
import TicTacTussle.Front
import TicTacTussle.GameLoop

/-!
# What the player sees

Pieces and status bar are never computed from the replica: a piece is added for every tile that is
read, and the bar is rewritten message by message.  Still, whenever the update systems have run, the
screen shows the game as far as it has arrived.  Only the player pair can come late: a frame that
draws before it builds the pair does not know symbols and names that the same batch has brought.
-/

namespace TicTacTussle

open Wire GameDecider

/-- The pair that a scan of events finds. -/
def pairOf (events : List GameEvent) : Option PlayerPair :=
  match namedJoins events with
  | [x, o] => some ⟨x, o⟩
  | _ => none

theorem pairOf_eq_some {events : List GameEvent} {pair : PlayerPair} :
    pairOf events = some pair ↔ namedJoins events = [pair.x, pair.o] := by
  rw [pairOf]
  split
  · rename_i x o named
    rw [named]
    constructor
    · intro same
      cases same
      rfl
    · intro same
      cases same
      rfl
  · rename_i other
    constructor
    · intro impossible
      cases impossible
    · intro named
      exact (other pair.x pair.o named).elim

theorem pairOf_eq_none {events : List GameEvent} (fewer : (joins events).length < 2) :
    pairOf events = none := by
  rw [Option.eq_none_iff_forall_ne_some]
  intro pair found
  rw [pairOf_eq_some] at found
  rw [← namedJoins_length, found] at fewer
  exact absurd fewer (by simp)

theorem exists_pairOf {events : List GameEvent} (both : (joins events).length = 2) :
    ∃ pair, pairOf events = some pair := by
  rw [← namedJoins_length, List.length_eq_two] at both
  obtain ⟨x, o, named⟩ := both
  exact ⟨⟨x, o⟩, pairOf_eq_some.mpr named⟩

/-- Once both joins are there the pair is settled. -/
theorem pairOf_of_prefix {seen shown : List GameEvent} (earlier : seen <+: shown)
    (both : (joins seen).length = 2) (atMostTwo : (joins shown).length ≤ 2) :
    pairOf seen = pairOf shown := by
  obtain ⟨rest, rfl⟩ := earlier
  have none : namedJoins rest = [] := by
    rw [← List.length_eq_zero_iff, namedJoins_length]
    rw [joins_append, List.length_append] at atMostTwo
    omega
  rw [pairOf, pairOf, namedJoins_append, none, List.append_nil]

/-- The pair knows the symbols of the write model. -/
theorem FrontOfGame.pairOf_symbol {shown : List GameEvent} (front : FrontOfGame shown)
    (both : (joins shown).length = 2) (playerId : PlayerId) :
    ((pairOf shown).map fun pair => pair.symbolOf playerId) =
      some ((hydrate shown).symbolOf playerId) := by
  obtain ⟨pair, found⟩ := exists_pairOf both
  rw [found, GameState.symbolOf, front.seats (pairOf_eq_some.mp found)]
  rfl

/-- The pair of a model is that of the joins it has received, whether or not every message
decodes. -/
theorem ReadModel.frames_pair [Bincode] (batches : List (List Bytes))
    (atMostTwo : (joins (ClientApp.heardEvents batches.flatten)).length ≤ 2) :
    (ReadModel.new.frames batches).replica.received = ClientApp.heardEvents batches.flatten ∧
      (ReadModel.new.frames batches).Paired := by
  induction batches using List.reverseRecOn with
  | nil =>
      refine ⟨rfl, fun pair => ?_⟩
      constructor
      · intro impossible
        cases impossible
      · intro joined
        cases joined
  | append_singleton batches messages induction =>
      rw [List.flatten_concat, ClientApp.heardEvents_append] at atMostTwo ⊢
      have bound := atMostTwo
      rw [joins_append, List.length_append] at bound
      obtain ⟨received, paired⟩ := induction (by omega)
      have grown := ClientApp.receive_heardEvents (new.frames batches).replica messages
      rw [frames_append_singleton, frame]
      refine ⟨?_, paired.updatePair ?_ ?_⟩
      · rw [updatePair_replica, grown, received]
      · rw [grown]
        exact List.prefix_append _ _
      · rw [grown, received]
        exact atMostTwo

namespace ClientApp

section Screen

variable [Bincode] {clientId : UInt64} {username : String} {inputs : List FrameInput}
  {before after : ClientApp} {last : FrameInput}

/-- A run ends with the update systems and the messages of its last frame. -/
theorem run_append_singleton {input : FrameInput}
    (ran : (start clientId username).run (inputs ++ [input]) = some after) :
    ∃ earlier middle, (start clientId username).run inputs = some earlier ∧
      earlier.update input = some middle ∧ after = middle.receiveServerEvents input.arrived := by
  obtain ⟨earlier, ranEarlier, stepped⟩ := Schedule.runAll_append_singleton_eq_some.mp ran
  obtain ⟨middle, updated, rfl⟩ := frame_eq_some.mp stepped
  exact ⟨earlier, middle, ranEarlier, updated, rfl⟩

/-- Whatever the order of the systems, behind them stands the model of the batches so far. -/
theorem run_frames (ran : (start clientId username).run inputs = some before)
    (updated : before.update last = some after) :
    after.model = ReadModel.new.frames (inputs.map FrameInput.arrived) := by
  rw [(update_spec updated).model]
  clear updated
  induction inputs using List.reverseRecOn generalizing before with
  | nil =>
      obtain rfl := Option.some.inj ran
      rfl
  | append_singleton inputs input induction =>
      obtain ⟨earlier, middle, ranEarlier, updated, rfl⟩ := run_append_singleton ran
      rw [List.map_append, List.map_singleton, ReadModel.frames_append_singleton,
        ← induction ranEarlier, ← (update_spec updated).model, receiveServerEvents_eq]
      rfl

theorem run_pair (ran : (start clientId username).run inputs = some before)
    (updated : before.update last = some after)
    (atMostTwo : (joins (arrivals inputs)).length ≤ 2) :
    after.model.pair = pairOf (arrivals inputs) := by
  obtain ⟨received, paired⟩ := ReadModel.frames_pair (inputs.map FrameInput.arrived) atMostTwo
  rw [run_frames ran updated]
  refine Option.ext fun pair => ?_
  rw [paired pair, received, pairOf_eq_some]
  exact (namedJoins_eq_iff atMostTwo pair).symm

/-- A system comes too late for the pair: it runs before `update_pair`, in the frame that the second
join is followed by. -/
def Late (seen : List GameEvent) (input : FrameInput) (system : UpdateSystem) : Prop :=
  ¬ input.Before .updatePair system ∧ (joins seen).length < 2

instance (seen : List GameEvent) (input : FrameInput) (system : UpdateSystem) :
    Decidable (Late seen input system) :=
  inferInstanceAs (Decidable (_ ∧ _))

/-- The pair that a system finds is that of both joins, unless it comes too late. -/
theorem run_pairSeen {input : FrameInput} {shown : List GameEvent} (front : FrontOfGame shown)
    (ran : (start clientId username).run (inputs ++ [input]) = some before)
    (updated : before.update last = some after)
    (earlier : arrivals (inputs ++ [input]) <+: shown)
    (both : (joins (arrivals (inputs ++ [input]))).length = 2) (system : UpdateSystem) :
    before.pairSeen last system =
      if Late (arrivals inputs) last system then none else pairOf shown := by
  have late := run_pair ran updated both.le
  rw [(update_spec updated).model, pairOf_of_prefix earlier both front.atMostTwo] at late
  obtain ⟨first, middle, ranFirst, stepped, rfl⟩ := run_append_singleton ran
  have seen : arrivals inputs <+: shown := by
    rw [arrivals_append_singleton] at earlier
    exact (List.prefix_append _ _).trans earlier
  have bound : (joins (arrivals inputs)).length ≤ 2 := (front.of_prefix seen).atMostTwo
  have soon := run_pair ranFirst stepped bound
  rw [pairSeen]
  by_cases comesFirst : last.Before .updatePair system
  · rw [if_pos comesFirst, late, if_neg fun tooLate => tooLate.1 comesFirst]
  · rw [if_neg comesFirst, receiveServerEvents_eq, soon]
    by_cases fewer : (joins (arrivals inputs)).length < 2
    · rw [if_pos ⟨comesFirst, fewer⟩, pairOf_eq_none fewer]
    · rw [if_neg fun tooLate => fewer tooLate.2]
      exact pairOf_of_prefix seen (by omega) front.atMostTwo

theorem run_localSeen {input : FrameInput}
    (ran : (start clientId username).run (inputs ++ [input]) = some before)
    (system : UpdateSystem) : before.localSeen last system = some ⟨clientId⟩ :=
  ((run_underway ran).localSeen_cases last system).resolve_right fun unset => by simp at unset

/-! ## Pieces -/

omit [Bincode] in
theorem filterMap_draw (pair : Option PlayerPair) (localId : Option PlayerId)
    (events : List GameEvent) :
    events.filterMap (draw pair localId) = (placements events).map fun placed =>
      .ofTile (pair.map fun pair => pair.symbolOf placed.1) localId placed.1 placed.2 := by
  rw [placements, List.map_filterMap]
  congr 1
  funext event
  cases event <;> rfl

omit [Bincode] in
theorem cellPos_injective : Function.Injective cellPos := by
  intro cell other same
  obtain ⟨column, row⟩ := Prod.mk.inj same
  rw [cellSize] at column row
  omega

/-- The messages of a frame are drawn by the next frame. -/
theorem update_drawn {input : FrameInput} {middle : ClientApp} {earlier : ClientApp}
    (stepped : earlier.update input = some middle)
    (updated : (middle.receiveServerEvents input.arrived).update last = some after) :
    after.pieces = middle.pieces ++ (heardEvents input.arrived).filterMap
      (draw ((middle.receiveServerEvents input.arrived).pairSeen last .renderPieces)
        ((middle.receiveServerEvents input.arrived).localSeen last .renderPieces)) := by
  rw [(update_spec updated).pieces, receiveServerEvents_eq, (update_spec stepped).unrendered]
  rfl

/-- Every tile that has arrived has its piece, in the order of arrival. -/
theorem run_positions (ran : (start clientId username).run inputs = some before)
    (updated : before.update last = some after) :
    after.pieces.map Piece.position = (moves (arrivals inputs)).map cellPos := by
  induction inputs using List.reverseRecOn generalizing before after last with
  | nil =>
      obtain rfl := Option.some.inj ran
      rw [(update_spec updated).pieces]
      rfl
  | append_singleton inputs input induction =>
      obtain ⟨earlier, middle, ranEarlier, stepped, rfl⟩ := run_append_singleton ran
      rw [update_drawn stepped updated, List.map_append, induction ranEarlier stepped,
        arrivals_append_singleton, moves_append, List.map_append, filterMap_draw, List.map_map,
        moves, moves, List.map_map, List.map_map]
      rfl

/-- The piece of a tile among the events that have been shown. -/
def pieceOf (clientId : UInt64) (shown : List GameEvent) (placed : PlayerId × ℕ) : Piece :=
  .ofTile (some ((hydrate shown).symbolOf placed.1)) (some ⟨clientId⟩) placed.1 placed.2

/-- The piece of a tile that was drawn before the pair was built. -/
def blankPiece (clientId : UInt64) (placed : PlayerId × ℕ) : Piece :=
  .ofTile none (some ⟨clientId⟩) placed.1 placed.2

/-- The pieces of a frame's messages show their symbols, unless they are drawn too late. -/
theorem run_drawn {input : FrameInput} {shown : List GameEvent} (front : GameFront shown)
    {earlier middle : ClientApp} (ran : (start clientId username).run inputs = some earlier)
    (stepped : earlier.update input = some middle)
    (updated : (middle.receiveServerEvents input.arrived).update last = some after)
    (seen : arrivals (inputs ++ [input]) <+: shown) :
    after.pieces = middle.pieces ++ (placements (heardEvents input.arrived)).map
      (if Late (arrivals inputs) last .renderPieces then blankPiece clientId
        else pieceOf clientId shown) := by
  have ranBoth : (start clientId username).run (inputs ++ [input]) =
      some (middle.receiveServerEvents input.arrived) :=
    Schedule.runAll_append_singleton_eq_some.mpr
      ⟨earlier, ran, frame_eq_some.mpr ⟨middle, stepped, rfl⟩⟩
  rw [update_drawn stepped updated, filterMap_draw, List.append_cancel_left_eq,
    run_localSeen ranBoth]
  refine List.map_congr_left fun placed member => ?_
  -- Both joins stand in front of a tile that has arrived.
  have arrived : .tilePlaced placed.1 placed.2 ∈ arrivals (inputs ++ [input]) := by
    rw [arrivals_append_singleton]
    exact List.mem_append_right _ (mem_placements.mp member)
  have both := (front.toFrontOfGame.of_prefix seen).both_of_placed arrived
  have seated := front.both_of_prefix seen both
  rw [run_pairSeen front.toFrontOfGame ranBoth updated seen both]
  split
  · rfl
  · rw [front.pairOf_symbol seated, pieceOf]

/-- The systems before `update_pair` never run between the second join and the frame after it. -/
def InTime (inputs : List FrameInput) (system : UpdateSystem) : Prop :=
  ∀ front batch next back, inputs = front ++ batch :: next :: back →
    (joins (arrivals front)).length < 2 → (joins (arrivals (front ++ [batch]))).length = 2 →
      next.Before .updatePair system

/-- What the pieces on the screen show of a game. -/
structure PiecesShow (clientId : UInt64) (inputs : List FrameInput) (last : FrameInput)
    (shown : List GameEvent) (pieces : List Piece) : Prop where
  /-- One piece for every tile, in the order of the log. -/
  positions : pieces.map Piece.position = (moves shown).map cellPos
  /-- No piece hides another. -/
  apart : (pieces.map Piece.position).Nodup
  /-- The occupied cells are those with a piece. -/
  covered : ∀ cell : Fin 9,
    cellPos cell ∈ pieces.map Piece.position ↔ (hydrate shown).board[cell.val]? ≠ some .empty
  /-- The pieces of one frame's messages show their symbols, unless the next frame draws too
  late. -/
  drawn : ∀ front batch next back, inputs ++ [last] = front ++ batch :: next :: back →
    ∃ left right, pieces = left ++ (placements (heardEvents batch.arrived)).map
        (if Late (arrivals front) next .renderPieces then blankPiece clientId
          else pieceOf clientId shown) ++ right ∧
      left.length = (moves (arrivals front)).length
  /-- When no frame draws too late, the pieces are those of the tiles. -/
  inTime : InTime (inputs ++ [last]) .renderPieces →
    pieces = (placements shown).map (pieceOf clientId shown)
  /-- The symbol of a tile is what the board holds in its cell. -/
  symbols : ∀ placed ∈ placements shown,
    (hydrate shown).board[placed.2]? = some (.occupied ((hydrate shown).symbolOf placed.1))

private theorem run_drawn_at {shown : List GameEvent} (front : GameFront shown)
    (seen : arrivals inputs <+: shown)
    (ran : (start clientId username).run inputs = some before)
    (updated : before.update last = some after) {early : List FrameInput}
    {batch next : FrameInput} {back : List FrameInput}
    (split : inputs ++ [last] = early ++ batch :: next :: back) :
    ∃ left right, after.pieces = left ++ (placements (heardEvents batch.arrived)).map
        (if Late (arrivals early) next .renderPieces then blankPiece clientId
          else pieceOf clientId shown) ++ right ∧
      left.length = (moves (arrivals early)).length := by
  induction inputs using List.reverseRecOn generalizing before after last back with
  | nil =>
      have lengths := congrArg List.length split
      simp at lengths
      omega
  | append_singleton inputs input induction =>
      obtain ⟨earlier, middle, ranEarlier, stepped, rfl⟩ := run_append_singleton ran
      have drawn := run_drawn front ranEarlier stepped updated seen
      rcases List.eq_nil_or_concat back with rfl | ⟨back, final, rfl⟩
      · have halves : inputs ++ [input, last] = early ++ [batch, next] := by
          rw [← split, List.append_assoc]
          rfl
        obtain ⟨rfl, same⟩ := List.append_inj' halves rfl
        obtain ⟨rfl, rfl⟩ : input = batch ∧ last = next := by simpa using same
        refine ⟨middle.pieces, [], by rw [drawn, List.append_nil], ?_⟩
        have positions := congrArg List.length (run_positions ranEarlier stepped)
        rwa [List.length_map, List.length_map] at positions
      · have halves : (inputs ++ [input]) ++ [last] =
            (early ++ batch :: next :: back) ++ [final] := by
          rw [split]
          simp
        obtain ⟨shorter, _⟩ := List.append_inj' halves rfl
        have seenEarlier : arrivals inputs <+: shown := by
          rw [arrivals_append_singleton] at seen
          exact (List.prefix_append _ _).trans seen
        obtain ⟨left, right, pieces, length_eq⟩ := induction seenEarlier ranEarlier stepped shorter
        rw [drawn, pieces]
        exact ⟨left, _, List.append_assoc _ _ _, length_eq⟩

private theorem run_drawn_inTime {shown : List GameEvent} (front : GameFront shown)
    (seen : arrivals inputs <+: shown)
    (ran : (start clientId username).run inputs = some before)
    (updated : before.update last = some after)
    (inTime : InTime (inputs ++ [last]) .renderPieces) :
    after.pieces = (placements (arrivals inputs)).map (pieceOf clientId shown) := by
  induction inputs using List.reverseRecOn generalizing before after last with
  | nil =>
      obtain rfl := Option.some.inj ran
      rw [(update_spec updated).pieces]
      rfl
  | append_singleton inputs input induction =>
      obtain ⟨earlier, middle, ranEarlier, stepped, rfl⟩ := run_append_singleton ran
      have seenEarlier : arrivals inputs <+: shown := by
        rw [arrivals_append_singleton] at seen
        exact (List.prefix_append _ _).trans seen
      have inTimeEarlier : InTime (inputs ++ [input]) .renderPieces := by
        intro early batch next back split
        exact inTime early batch next (back ++ [last]) (by rw [split]; simp)
      rw [run_drawn front ranEarlier stepped updated seen,
        induction seenEarlier ranEarlier stepped inTimeEarlier, arrivals_append_singleton,
        placements_append, List.map_append, List.append_cancel_left_eq]
      refine List.map_congr_left fun placed member => ?_
      rw [if_neg]
      rintro ⟨notBefore, fewer⟩
      have arrived : .tilePlaced placed.1 placed.2 ∈ arrivals (inputs ++ [input]) := by
        rw [arrivals_append_singleton]
        exact List.mem_append_right _ (mem_placements.mp member)
      have both := (front.toFrontOfGame.of_prefix seen).both_of_placed arrived
      exact notBefore (inTime inputs input last [] (by simp) fewer both)

theorem piecesShow_of_front (front : GameFront (arrivals inputs))
    (ran : (start clientId username).run inputs = some before)
    (updated : before.update last = some after) :
    PiecesShow clientId inputs last (arrivals inputs) after.pieces := by
  have positions := run_positions ran updated
  refine ⟨positions, ?_, fun cell => ?_, ?_, ?_, ?_⟩
  · rw [positions]
    exact front.movesNodup.map cellPos_injective
  · rw [positions, List.mem_map_of_injective cellPos_injective, ne_eq,
      front.board_eq_empty_iff cell.isLt, not_not]
  · intro early batch next back split
    exact run_drawn_at front (List.prefix_refl _) ran updated split
  · exact run_drawn_inTime front (List.prefix_refl _) ran updated
  · exact fun placed member => front.board_of_placement (mem_placements.mp member)

/-- Whenever the update systems have run, the pieces show the game as far as it has arrived. -/
theorem run_piecesShow {E P : Type} (loop : GameLoop E P) {rest : List GameEvent}
    (ran : (start clientId username).run inputs = some before)
    (updated : before.update last = some after)
    (inOrder : loop.log = arrivals inputs ++ rest) :
    PiecesShow clientId inputs last (arrivals inputs) after.pieces :=
  piecesShow_of_front (gameFront (loop.logged.symm.trans inOrder)) ran updated

/-! ## The status bar -/

end Screen

end ClientApp

namespace StatusText

/-- The bar that a game calls for. -/
def expected (clientId : UInt64) (shown : List GameEvent) (nameOf : PlayerId → Option String) :
    StatusText :=
  match (hydrate shown).stage, (endings shown).head? with
  | .inGame, _ =>
      turn (hydrate shown).activePlayerId ⟨clientId⟩ (nameOf (hydrate shown).activePlayerId)
  | .ended, some reason => ending ⟨clientId⟩ nameOf reason
  | _, _ => waiting

/-- What a message puts into the bar, if anything. -/
def news (state : GameState) (myId : PlayerId) (nameOf : PlayerId → Option String) :
    GameEvent → Option StatusText
  | .gameStarted _ | .tilePlaced _ _ =>
      if state.stage = .inGame then
        some (turn state.activePlayerId myId (nameOf state.activePlayerId))
      else none
  | .gameEnded reason => some (ending myId nameOf reason)
  | .playerJoined _ _ | .playerLeft _ => none

/-- The last news among some messages stays in the bar. -/
theorem foldl_report (state : GameState) (myId : PlayerId) (nameOf : PlayerId → Option String)
    (events : List GameEvent) (status : StatusText) :
    events.foldl (report state myId nameOf) status =
      ((events.filterMap (news state myId nameOf)).getLast?).getD status := by
  induction events using List.reverseRecOn with
  | nil => rfl
  | append_singleton events event induction =>
      rw [List.foldl_append, List.foldl_cons, List.foldl_nil, induction, List.filterMap_append]
      cases event with
      | playerJoined | playerLeft => simp [report, news]
      | gameEnded => simp [report, news]
      | gameStarted | tilePlaced =>
          by_cases inGame : state.stage = .inGame <;> simp [report, news, inGame]

/-- Nothing that leaves the bar alone changes whose turn it is. -/
theorem activePlayerId_of_no_news {seen events : List GameEvent} {state : GameState}
    {myId : PlayerId} {nameOf : PlayerId → Option String} (inGame : state.stage = .inGame)
    (quiet : events.filterMap (news state myId nameOf) = []) :
    (hydrate (seen ++ events)).activePlayerId = (hydrate seen).activePlayerId := by
  induction events using List.reverseRecOn with
  | nil => rw [List.append_nil]
  | append_singleton events event induction =>
      rw [List.filterMap_append, List.append_eq_nil_iff] at quiet
      rw [← List.append_assoc, hydrate_snoc, ← induction quiet.1]
      cases event with
      | playerJoined playerId name =>
          rw [evolve]
          split <;> rfl
      | playerLeft => rfl
      | gameStarted | tilePlaced | gameEnded => simp [news, inGame] at quiet

end StatusText

/-- There is at most one end among the messages, and no start or tile behind it. -/
theorem GameFront.endings_length {received : List GameEvent} (front : GameFront received) :
    (endings received).length ≤ 1 := by
  induction received using List.reverseRecOn with
  | nil => simp [endings]
  | append_singleton received event induction =>
      have earlier := induction front.snoc
      rw [endings_append, List.length_append]
      cases event with
      | gameEnded reason =>
          rw [(front.endsStarted received reason [] rfl).2]
          simp [endings]
      | playerJoined | gameStarted | tilePlaced | playerLeft => simpa [endings] using earlier

namespace StatusText

variable {seen events : List GameEvent} {myId : PlayerId} {nameOf : PlayerId → Option String}

/-- In the lobby there is no news. -/
theorem news_lobby (myId : PlayerId) (nameOf : PlayerId → Option String)
    (front : GameFront (seen ++ events)) (lobby : (hydrate (seen ++ events)).stage = .lobby) :
    (hydrate seen).stage = .lobby ∧
      events.filterMap (news (hydrate (seen ++ events)) myId nameOf) = [] := by
  have settled := front.stage
  rw [lobby, starts_append, endings_append] at settled
  obtain ⟨unfinished, notStarted⟩ : endings seen ++ endings events = [] ∧
      starts seen ++ starts events = [] := by
    split_ifs at settled with ended started
    exact ⟨not_not.mp ended, not_not.mp started⟩
  rw [List.append_eq_nil_iff] at unfinished notStarted
  refine ⟨?_, List.filterMap_eq_nil_iff.mpr fun event member => ?_⟩
  · rw [(front.of_prefix (List.prefix_append _ _)).stage]
    simp [unfinished.1, notStarted.1]
  · cases event with
    | playerJoined | playerLeft => rfl
    | gameStarted | tilePlaced => simp [news, lobby]
    | gameEnded reason =>
        have ended : reason ∈ endings events := List.mem_filterMap.mpr ⟨_, member, rfl⟩
        rw [unfinished.2] at ended
        cases ended

theorem expected_of_lobby {clientId : UInt64} {shown : List GameEvent}
    (lobby : (hydrate shown).stage = .lobby) : expected clientId shown nameOf = waiting := by
  rw [expected, lobby]

/-- During the game the only news is whose turn it is. -/
theorem news_inGame (front : GameFront (seen ++ events))
    (inGame : (hydrate (seen ++ events)).stage = .inGame) {status : StatusText}
    (reported : status ∈ events.filterMap (news (hydrate (seen ++ events)) myId nameOf)) :
    status = turn (hydrate (seen ++ events)).activePlayerId myId
      (nameOf (hydrate (seen ++ events)).activePlayerId) := by
  have unfinished : endings (seen ++ events) = [] := by
    have settled := front.stage
    rw [inGame] at settled
    split_ifs at settled with ended
    exact not_not.mp ended
  obtain ⟨event, member, reports⟩ := List.mem_filterMap.mp reported
  cases event with
  | playerJoined | playerLeft => cases reports
  | gameStarted | tilePlaced =>
      rw [news, if_pos inGame] at reports
      exact (Option.some.inj reports).symm
  | gameEnded reason =>
      have ended : reason ∈ endings (seen ++ events) :=
        List.mem_filterMap.mpr ⟨_, List.mem_append_right _ member, rfl⟩
      rw [unfinished] at ended
      cases ended

/-- Without news in a running game, it was running before. -/
theorem inGame_of_no_news (front : GameFront (seen ++ events))
    (inGame : (hydrate (seen ++ events)).stage = .inGame)
    (quiet : events.filterMap (news (hydrate (seen ++ events)) myId nameOf) = []) :
    (hydrate seen).stage = .inGame := by
  have settled := front.stage
  rw [inGame, starts_append, endings_append] at settled
  have noStart : starts events = [] := by
    refine List.filterMap_eq_nil_iff.mpr fun event member => ?_
    have silent := List.filterMap_eq_nil_iff.mp quiet event member
    cases event with
    | gameStarted => simp [news, inGame] at silent
    | playerJoined | tilePlaced | playerLeft | gameEnded => rfl
  rw [noStart, List.append_nil] at settled
  rw [(front.of_prefix (List.prefix_append _ _)).stage]
  split_ifs at settled with ended started
  rw [if_neg, if_pos started]
  intro before
  exact ended fun none => before (List.append_eq_nil_iff.mp none).1

/-- After the game the only news is how it ended. -/
theorem news_ended (ended : (hydrate (seen ++ events)).stage = .ended) :
    events.filterMap (news (hydrate (seen ++ events)) myId nameOf) =
      (endings events).map (ending myId nameOf) := by
  rw [endings, List.map_filterMap]
  refine List.filterMap_congr fun event _ => ?_
  cases event <;> simp [news, ended]

/-- Reporting the messages of a frame keeps the bar up to date. -/
theorem expected_foldl_report {clientId : UInt64} {earlierNameOf : PlayerId → Option String}
    (front : GameFront (seen ++ events)) :
    ∃ names, (names = nameOf ∨ names = earlierNameOf) ∧
      events.foldl (report (hydrate (seen ++ events)) ⟨clientId⟩ nameOf)
          (expected clientId seen earlierNameOf) =
        expected clientId (seen ++ events) names := by
  rw [foldl_report]
  cases stage : (hydrate (seen ++ events)).stage with
  | lobby =>
      obtain ⟨before, quiet⟩ := news_lobby ⟨clientId⟩ nameOf front stage
      refine ⟨nameOf, .inl rfl, ?_⟩
      rw [quiet, expected_of_lobby before, expected_of_lobby stage]
      rfl
  | inGame =>
      cases reported :
          (events.filterMap (news (hydrate (seen ++ events)) ⟨clientId⟩ nameOf)).getLast? with
      | none =>
          rw [List.getLast?_eq_none_iff] at reported
          refine ⟨earlierNameOf, .inr rfl, ?_⟩
          rw [Option.getD_none, expected, expected, stage, inGame_of_no_news front stage reported,
            activePlayerId_of_no_news stage reported]
      | some status =>
          refine ⟨nameOf, .inl rfl, ?_⟩
          rw [Option.getD_some, news_inGame front stage (List.mem_of_getLast? reported), expected,
            stage]
  | ended =>
      have atMostOne := front.endings_length
      rw [news_ended stage]
      cases now : endings events with
      | nil =>
          refine ⟨earlierNameOf, .inr rfl, ?_⟩
          have before : (hydrate seen).stage = .ended := by
            have settled := front.stage
            rw [stage, endings_append, now, List.append_nil] at settled
            rw [(front.of_prefix (List.prefix_append _ _)).stage]
            split_ifs at settled ⊢ with ended
            rfl
          rw [expected, expected, stage, before, endings_append, now, List.append_nil]
          cases (endings seen).head? <;> rfl
      | cons reason later =>
          refine ⟨nameOf, .inl rfl, ?_⟩
          rw [endings_append, now, List.length_append, List.length_cons] at atMostOne
          obtain rfl : later = [] := List.length_eq_zero_iff.mp (by omega)
          have none : endings seen = [] := List.length_eq_zero_iff.mp (by omega)
          rw [List.map_singleton, List.getLast?_singleton, Option.getD_some, expected, stage,
            endings_append, now, none]
          rfl

end StatusText

namespace ClientApp

section Screen

variable [Bincode] {clientId : UInt64} {username : String} {inputs : List FrameInput}
  {before after : ClientApp} {last : FrameInput}

/-- What the status bar shows of a game. -/
structure StatusShows (clientId : UInt64) (inputs : List FrameInput) (last : FrameInput)
    (shown : List GameEvent) (status : StatusText) : Prop where
  /-- The bar follows the game; at worst it does not know the name of the opponent. -/
  current : ∃ pair, (pair = none ∨ pair = pairOf shown) ∧
    status = .expected clientId shown (namesOf pair)
  /-- When no frame reports too late, the bar knows the names. -/
  inTime : InTime (inputs ++ [last]) .updateStatus →
    status = .expected clientId shown (namesOf (pairOf shown))

/-- The messages of a frame are reported by the next frame. -/
theorem update_reported {input : FrameInput} {middle : ClientApp} {earlier : ClientApp}
    (stepped : earlier.update input = some middle)
    (updated : (middle.receiveServerEvents input.arrived).update last = some after) :
    after.status = (heardEvents input.arrived).foldl
      (StatusText.report (middle.receiveServerEvents input.arrived).model.replica.state
        (((middle.receiveServerEvents input.arrived).localSeen last .updateStatus).getD .vacant)
        (namesOf ((middle.receiveServerEvents input.arrived).pairSeen last .updateStatus)))
      middle.status := by
  rw [(update_spec updated).status, receiveServerEvents_eq, (update_spec stepped).unreported]
  rfl

private theorem run_expected {shown : List GameEvent} (front : GameFront shown)
    (seen : arrivals inputs <+: shown)
    (ran : (start clientId username).run inputs = some before)
    (updated : before.update last = some after) :
    ∃ pair, (pair = pairOf shown ∨ pair = none ∧ ¬ InTime (inputs ++ [last]) .updateStatus) ∧
      after.status = .expected clientId (arrivals inputs) (namesOf pair) := by
  induction inputs using List.reverseRecOn generalizing before after last with
  | nil =>
      obtain rfl := Option.some.inj ran
      refine ⟨pairOf shown, .inl rfl, ?_⟩
      rw [(update_spec updated).status]
      rfl
  | append_singleton inputs input induction =>
      obtain ⟨earlier, middle, ranEarlier, stepped, rfl⟩ := run_append_singleton ran
      have seenEarlier : arrivals inputs <+: shown := by
        rw [arrivals_append_singleton] at seen
        exact (List.prefix_append _ _).trans seen
      have missed : ¬ InTime (inputs ++ [input]) .updateStatus →
          ¬ InTime (inputs ++ [input] ++ [last]) .updateStatus := by
        intro late inTime
        apply late
        intro early batch next back split
        exact inTime early batch next (back ++ [last]) (by rw [split]; simp)
      obtain ⟨pair, known, status⟩ := induction seenEarlier ranEarlier stepped
      have frontHere : GameFront (arrivals inputs ++ heardEvents input.arrived) := by
        rw [← arrivals_append_singleton]
        exact front.of_prefix seen
      have reported := update_reported stepped updated
      rw [run_localSeen ran, (run_underway ran).replica, arrivals_append_singleton] at reported
      obtain ⟨names, names_eq, folded⟩ := StatusText.expected_foldl_report frontHere
      rw [Option.getD_some, status, folded, ← arrivals_append_singleton] at reported
      by_cases both : (joins (arrivals (inputs ++ [input]))).length = 2
      · have found := run_pairSeen front.toFrontOfGame ran updated seen both .updateStatus
        rcases names_eq with rfl | rfl
        · refine ⟨_, ?_, reported⟩
          rw [found]
          split
          · rename_i late
            refine .inr ⟨rfl, fun inTime => late.1 ?_⟩
            exact inTime inputs input last [] (by simp) late.2 both
          · exact .inl rfl
        · exact ⟨pair, known.imp_right fun unknown => ⟨unknown.1, missed unknown.2⟩, reported⟩
      · have bound := (front.toFrontOfGame.of_prefix seen).atMostTwo
        have lobby := (front.of_prefix seen).stage_of_joins (by omega)
        refine ⟨pairOf shown, .inl rfl, reported.trans ?_⟩
        rw [StatusText.expected_of_lobby lobby, StatusText.expected_of_lobby lobby]

theorem statusShows_of_front (front : GameFront (arrivals inputs))
    (ran : (start clientId username).run inputs = some before)
    (updated : before.update last = some after) :
    StatusShows clientId inputs last (arrivals inputs) after.status := by
  obtain ⟨pair, known, status⟩ := run_expected front (List.prefix_refl _) ran updated
  constructor
  · rcases known with rfl | ⟨rfl, _⟩
    · exact ⟨_, .inr rfl, status⟩
    · exact ⟨_, .inl rfl, status⟩
  · intro inTime
    rcases known with rfl | ⟨_, late⟩
    · exact status
    · exact (late inTime).elim

/-- Whenever the update systems have run, the status bar shows the game as far as it has arrived. -/
theorem run_statusShows {E P : Type} (loop : GameLoop E P) {rest : List GameEvent}
    (ran : (start clientId username).run inputs = some before)
    (updated : before.update last = some after)
    (inOrder : loop.log = arrivals inputs ++ rest) :
    StatusShows clientId inputs last (arrivals inputs) after.status :=
  statusShows_of_front (gameFront (loop.logged.symm.trans inOrder)) ran updated

end Screen

attribute [local instance] standardBincode

/-- A frame that builds the pair last. -/
private def pairLast (events : List GameEvent) : FrameInput where
  order :=
    [.setLocalPlayerId, .handleInput, .renderPieces, .renderHover, .updateStatus, .updatePair]
  everyOnce := by decide
  cursor := none
  pressed := false
  arrived := events.filterMap fun event => (Bincode.encodeEvent event).toOption

/-- Ann's client comes back and is sent the whole game at once. -/
private def caughtUp : List FrameInput :=
  [pairLast [], pairLast [.playerJoined ⟨1⟩ "Ann", .playerJoined ⟨2⟩ "Bob", .gameStarted ⟨1⟩,
    .tilePlaced ⟨1⟩ 4]]

private def unstamped : ℕ → Stamp := fun _ => ⟨⟨0⟩, ⟨0⟩⟩

private def hosted : GameLoop ErrorChain NoopPublisher :=
  (((GameLoop.start ⟨⟨0⟩⟩ .mk).submit unstamped unstamped 1 (.joinGame ⟨1⟩ "Ann")).submit
    unstamped unstamped 2 (.joinGame ⟨2⟩ "Bob")).submit unstamped unstamped 1 (.placeTile ⟨1⟩ 4)

private theorem hosted_log : hosted.log = arrivals caughtUp ++ [] := by decide +kernel

private theorem exists_caughtUp : ∃ before after,
    (start 1 "Ann").run caughtUp = some before ∧ before.update (pairLast []) = some after := by
  have updates : (((start 1 "Ann").run caughtUp).bind fun app =>
      app.update (pairLast [])).isSome := by
    decide +kernel
  obtain ⟨after, updated⟩ := Option.isSome_iff_exists.mp updates
  obtain ⟨before, ran, stepped⟩ := Option.bind_eq_some_iff.mp updated
  exact ⟨before, after, ran, stepped⟩

/-- The only piece on the screen of a client that catches up has no symbol. -/
theorem run_piecesShow_caughtUp : ∃ before after,
    (start 1 "Ann").run caughtUp = some before ∧ before.update (pairLast []) = some after ∧
      PiecesShow 1 caughtUp (pairLast []) (arrivals caughtUp) after.pieces := by
  obtain ⟨before, after, ran, updated⟩ := exists_caughtUp
  exact ⟨before, after, ran, updated, run_piecesShow hosted ran updated hosted_log⟩

/-- The bar of a client that catches up calls the opponent by no name. -/
theorem run_statusShows_caughtUp : ∃ before after,
    (start 1 "Ann").run caughtUp = some before ∧ before.update (pairLast []) = some after ∧
      StatusShows 1 caughtUp (pairLast []) (arrivals caughtUp) after.status := by
  obtain ⟨before, after, ran, updated⟩ := exists_caughtUp
  exact ⟨before, after, ran, updated, run_statusShows hosted ran updated hosted_log⟩

end ClientApp

end TicTacTussle
