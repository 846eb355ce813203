import TicTacTussle.Bounds
import TicTacTussle.Client
import TicTacTussle.Position

/-!
# The client's player pair

Beside its replica a client keeps a second projection of the same log: it scans what it has received
for joins and, once there are two, remembers who plays which symbol.  The log of a game has at most
two joins, both in front of any tile, so that the pair names the seats that `evolve` fills and
answers as `evolve` does.
-/

namespace TicTacTussle

open EventSourcing GameDecider Wire

/-- The two players with their names. -/
structure PlayerPair where
  x : PlayerId × String
  o : PlayerId × String
  deriving DecidableEq, Repr

namespace PlayerPair

def new (x : PlayerId) (xName : String) (o : PlayerId) (oName : String) : PlayerPair where
  x := (x, xName)
  o := (o, oName)

def opponentOf (pair : PlayerPair) (id : PlayerId) : PlayerId :=
  if pair.x.1 = id then pair.o.1 else pair.x.1

def symbolOf (pair : PlayerPair) (id : PlayerId) : Symbol :=
  if pair.x.1 = id then .x else .o

/-- The name of a player, if it is one of the two. -/
def nameOf (pair : PlayerPair) (id : PlayerId) : Option String :=
  if pair.x.1 = id then some pair.x.2
  else if pair.o.1 = id then some pair.o.2
  else none

/-- The events of the two joins, in order. -/
def joinEvents (pair : PlayerPair) : List GameEvent :=
  [.playerJoined pair.x.1 pair.x.2, .playerJoined pair.o.1 pair.o.2]

end PlayerPair

/-- The players and names of the `PlayerJoined` events. -/
def namedJoins (received : List GameEvent) : List (PlayerId × String) :=
  received.filterMap fun
    | .playerJoined playerId name => some (playerId, name)
    | _ => none

/-- A replica with the `MaybePair` beside it. -/
structure ReadModel where
  replica : Replica
  pair : Option PlayerPair
  deriving DecidableEq, Repr

namespace ReadModel

def new : ReadModel := ⟨.new, none⟩

/-- Build the pair once both joins are received. -/
def updatePair (model : ReadModel) : ReadModel :=
  if model.pair.isSome then model
  else
    let joins := namedJoins model.replica.received
    if both : joins.length = 2 then
      { model with pair := some (.new joins[0].1 joins[0].2 joins[1].1 joins[1].2) }
    else model

/-- Drain a batch of messages and update the pair. -/
def frame [Bincode] (model : ReadModel) (messages : List Bytes) : ReadModel :=
  { model with replica := model.replica.receiveServerEvents messages }.updatePair

/-- One batch after the other. -/
def frames [Bincode] (model : ReadModel) (batches : List (List Bytes)) : ReadModel :=
  batches.foldl frame model

end ReadModel

@[simp]
theorem namedJoins_append (left right : List GameEvent) :
    namedJoins (left ++ right) = namedJoins left ++ namedJoins right := by
  simp [namedJoins]

theorem map_fst_namedJoins (events : List GameEvent) :
    (namedJoins events).map Prod.fst = joins events := by
  rw [namedJoins, joins, List.map_filterMap]
  congr 1
  funext event
  cases event <;> rfl

theorem namedJoins_length (events : List GameEvent) :
    (namedJoins events).length = (joins events).length := by
  rw [← map_fst_namedJoins, List.length_map]

theorem namedJoins_sublist (events : List GameEvent) :
    ((namedJoins events).map fun join => GameEvent.playerJoined join.1 join.2).Sublist events := by
  induction events with
  | nil => exact .slnil
  | cons event events induction =>
      cases event with
      | playerJoined playerId name => exact induction.cons_cons _
      | gameStarted | tilePlaced | playerLeft | gameEnded => exact induction.cons _

/-- With at most two joins, the joins of a log are the two events of a pair in order. -/
theorem namedJoins_eq_iff {events : List GameEvent} (atMostTwo : (joins events).length ≤ 2)
    (pair : PlayerPair) :
    namedJoins events = [pair.x, pair.o] ↔ pair.joinEvents.Sublist events := by
  constructor
  · intro both
    have joined := namedJoins_sublist events
    rw [both] at joined
    exact joined
  · intro joined
    have named : (namedJoins pair.joinEvents).Sublist (namedJoins events) := joined.filterMap _
    rw [← namedJoins_length] at atMostTwo
    exact (named.eq_of_length_le atMostTwo).symm

theorem evolve_players_of_not_join {event : GameEvent}
    (other : ∀ playerId name, event ≠ .playerJoined playerId name) (state : GameState) :
    (evolve state event).players = state.players := by
  cases event with
  | playerJoined playerId name => exact (other playerId name rfl).elim
  | gameStarted | tilePlaced | playerLeft | gameEnded => rfl

/-- Up to two joins of players, no one of them the vacant id, fill the seats in order. -/
theorem hydrate_players {events : List GameEvent} (atMostTwo : (joins events).length ≤ 2)
    (noVacant : .vacant ∉ joins events) :
    (hydrate events).players =
      #v[(joins events).getD 0 .vacant, (joins events).getD 1 .vacant] := by
  induction events using List.reverseRecOn with
  | nil => rfl
  | append_singleton events event induction =>
      rw [joins_append] at atMostTwo noVacant
      rw [List.length_append] at atMostTwo
      have earlier := induction (by omega) fun member => noVacant (List.mem_append_left _ member)
      have grown : hydrate (events ++ [event]) = evolve (hydrate events) event := by
        rw [hydrate, List.foldl_append]
        rfl
      rw [grown, joins_append]
      cases event with
      | playerJoined playerId name =>
          have alone : joins [.playerJoined playerId name] = [playerId] := rfl
          rw [alone, evolve_playerJoined_players]
          rw [alone, List.length_singleton] at atMostTwo
          cases seated : joins events with
          | nil =>
              rw [seated] at earlier
              simp [earlier]
          | cons first others =>
              rw [seated] at earlier atMostTwo noVacant
              obtain rfl : others = [] := by
                simpa using atMostTwo
              have taken : first ≠ .vacant := by
                rintro rfl
                simp at noVacant
              simp [earlier, taken]
      | gameStarted | tilePlaced | playerLeft | gameEnded =>
          rw [evolve_players_of_not_join (by simp), earlier]
          simp [joins]

/-! ## Agreement with the write model -/

/-- A pair of the seated players answers as `evolve` does, for any author of the tile. -/
theorem PlayerPair.evolve_tilePlaced {pair : PlayerPair} {state : GameState}
    (seats : state.players = #v[pair.x.1, pair.o.1]) (playerId : PlayerId) {cell : ℕ}
    (onBoard : cell < 9) :
    (evolve state (.tilePlaced playerId cell)).board[cell]? =
        some (.occupied (pair.symbolOf playerId)) ∧
      (evolve state (.tilePlaced playerId cell)).activePlayerId = pair.opponentOf playerId := by
  rw [evolve, seats]
  constructor
  · rw [Vector.getElem?_setIfInBounds_self, if_pos onBoard]
    rfl
  · rfl

/-- The pair of a model is that of the two joins in what it has received. -/
def ReadModel.Paired (model : ReadModel) : Prop :=
  ∀ pair, model.pair = some pair ↔ pair.joinEvents.Sublist model.replica.received

namespace ReadModel

theorem updatePair_replica (model : ReadModel) : model.updatePair.replica = model.replica := by
  rw [updatePair]
  split
  · rfl
  · dsimp only
    split <;> rfl

theorem updatePair_of_isSome {model : ReadModel} (found : model.pair.isSome) :
    model.updatePair = model :=
  if_pos found

/-- The scan fires on exactly two joins. -/
theorem updatePair_of_none {model : ReadModel} (missing : model.pair = none) (pair : PlayerPair) :
    model.updatePair.pair = some pair ↔
      namedJoins model.replica.received = [pair.x, pair.o] := by
  have unset : ¬ model.pair.isSome := by simp [missing]
  rw [updatePair, if_neg unset]
  dsimp only
  split
  · rename_i both
    obtain ⟨x, o, named⟩ := List.length_eq_two.mp both
    simp only [named, List.getElem_cons_zero, List.getElem_cons_succ]
    constructor
    · intro same
      cases same
      rfl
    · intro same
      cases same
      rfl
  · rename_i fewer
    rw [missing]
    constructor
    · intro impossible
      cases impossible
    · intro named
      rw [named] at fewer
      exact (fewer rfl).elim

/-- Scanning again after more events keeps the pair that of the joins. -/
theorem Paired.updatePair {model : ReadModel} (paired : model.Paired) {replica : Replica}
    (grown : model.replica.received <+: replica.received)
    (atMostTwo : (joins replica.received).length ≤ 2) :
    ({ model with replica } : ReadModel).updatePair.Paired := by
  intro pair
  rw [updatePair_replica, ← namedJoins_eq_iff atMostTwo]
  cases found : model.pair with
  | some old =>
      have joined : old.joinEvents.Sublist replica.received :=
        ((paired old).mp found).trans grown.sublist
      rw [updatePair_of_isSome rfl, (namedJoins_eq_iff atMostTwo old).mpr joined]
      constructor
      · intro same
        cases same
        rfl
      · intro same
        cases pair
        cases same
        rfl
  | none => exact updatePair_of_none rfl pair

section Frames

variable [Bincode]

/-- Once set, the pair stays, whatever is received later. -/
theorem frames_of_some {model : ReadModel} {pair : PlayerPair} (found : model.pair = some pair)
    (batches : List (List Bytes)) : (model.frames batches).pair = some pair := by
  induction batches generalizing model with
  | nil => exact found
  | cons messages batches induction =>
      apply induction
      rw [frame, updatePair_of_isSome]
      · exact found
      · exact Option.isSome_of_eq_some found

theorem frames_append_singleton (model : ReadModel) (batches : List (List Bytes))
    (messages : List Bytes) :
    model.frames (batches ++ [messages]) = (model.frames batches).frame messages := by
  rw [frames, List.foldl_append]
  rfl

/-- However a log is cut into batches, the replica is its fold and the pair that of its joins. -/
theorem frames_new {batches : List (List Bytes)} {received : List GameEvent}
    (decoded : batches.flatten.map Bincode.decodeEvent = received.map .ok)
    (atMostTwo : (joins received).length ≤ 2) :
    (new.frames batches).replica = ⟨hydrate received, received⟩ ∧ (new.frames batches).Paired := by
  induction batches using List.reverseRecOn generalizing received with
  | nil =>
      obtain rfl : received = [] := List.map_eq_nil_iff.mp decoded.symm
      refine ⟨rfl, fun pair => ?_⟩
      constructor
      · intro impossible
        cases impossible
      · intro joined
        cases joined
  | append_singleton batches messages induction =>
      rw [List.flatten_concat, List.map_append] at decoded
      obtain ⟨front, back, rfl, decodedFront, decodedBack⟩ :=
        List.append_eq_map_iff.mp decoded
      rw [joins_append, List.length_append] at atMostTwo
      obtain ⟨replica, paired⟩ := induction decodedFront.symm (by omega)
      have drained : (new.frames batches).replica.receiveServerEvents messages =
          ⟨hydrate (front ++ back), front ++ back⟩ := by
        rw [Replica.receiveServerEvents_eq decodedBack.symm, replica]
        exact congrArg (Replica.mk · (front ++ back)) (decider.hydrate_append front back).symm
      rw [frames_append_singleton, frame, drained]
      refine ⟨updatePair_replica _, paired.updatePair ?_ ?_⟩
      · rw [replica]
        exact List.prefix_append front back
      · rwa [joins_append, List.length_append]

end Frames

end ReadModel

/-- Both players have joined before a tile of a run. -/
theorem joins_before_tile {commands : List GameCommand} {before after : List GameEvent}
    {playerId : PlayerId} {cell : ℕ}
    (split : decider.run [] commands = before ++ .tilePlaced playerId cell :: after) :
    (joins before).length = 2 := by
  obtain ⟨⟨front, command, back, spec, next, events, left, right, rest, _, history, step,
    events_eq, rfl, _, _⟩⟩ := sessions.exists_emission split
  have seated : left = [] ∧ spec.joined.length = 2 := by
    cases step with
    | place => exact ⟨(singleton_eq_append_cons.mp events_eq).1, rfl⟩
    | win | draw =>
        simp only [pair_eq_append_cons, reduceCtorEq, false_and, and_false, or_false] at events_eq
        exact ⟨events_eq.1, rfl⟩
    | joinFirst | leave => simp [singleton_eq_append_cons] at events_eq
    | joinSecond | abandon => simp [pair_eq_append_cons] at events_eq
  rw [seated.1, List.append_nil, history_joins history]
  exact seated.2

/-- What a model of received events has in common with the write model. -/
structure ReadModel.Agrees [Bincode] (model : ReadModel) (received : List GameEvent) : Prop where
  replica : model.replica = ⟨hydrate received, received⟩
  isSome_iff : model.pair.isSome ↔ (joins received).length = 2
  pair_iff : ∀ pair, model.pair = some pair ↔ pair.joinEvents.Sublist received
  kept : ∀ pair, model.pair = some pair → ∀ later, (model.frames later).pair = some pair
  seats : ∀ pair, model.pair = some pair →
    model.replica.state.players = #v[pair.x.1, pair.o.1]
  tiles : ∀ pair, model.pair = some pair → ∀ before playerId cell after,
    received = before ++ .tilePlaced playerId cell :: after →
      let placed := hydrate (before ++ [.tilePlaced playerId cell])
      placed.board[cell]? = some (.occupied (pair.symbolOf playerId)) ∧
        placed.activePlayerId = pair.opponentOf playerId

/-- What the pair relies on of a front part of a log. -/
structure FrontOfGame (received : List GameEvent) : Prop where
  atMostTwo : (joins received).length ≤ 2
  noVacant : .vacant ∉ joins received
  onBoard : ∀ event ∈ received, event.OnBoard
  tilesLast : ∀ before playerId cell after,
    received = before ++ .tilePlaced playerId cell :: after → (joins before).length = 2

theorem frontOfGame {commands : List GameCommand} {received rest : List GameEvent}
    (inOrder : decider.run [] commands = received ++ rest) : FrontOfGame received := by
  obtain ⟨session, history⟩ := sessions.exists_history commands
  have position := history_referencePosition history
  have emptyLog : ∀ event ∈ ([] : List GameEvent), event.OnBoard := List.forall_mem_nil _
  have onBoard := guarded.run_valid emptyLog commands
  rw [inOrder] at position onBoard
  constructor
  · have bound := position.atMostTwo
    rw [joins_append, List.length_append] at bound
    omega
  · intro member
    apply position.noVacant
    rw [joins_append]
    exact List.mem_append_left _ member
  · exact (List.forall_mem_append.mp onBoard).1
  · rintro before playerId cell after rfl
    rw [List.append_assoc, List.cons_append] at inOrder
    exact joins_before_tile inOrder

namespace FrontOfGame

variable {received : List GameEvent} {pair : PlayerPair}

theorem seats (front : FrontOfGame received) (named : namedJoins received = [pair.x, pair.o]) :
    (hydrate received).players = #v[pair.x.1, pair.o.1] := by
  have joined : joins received = [pair.x.1, pair.o.1] := by
    rw [← map_fst_namedJoins, named]
    rfl
  rw [hydrate_players front.atMostTwo front.noVacant, joined]
  rfl

/-- The part in front of a tile holds both joins already. -/
theorem beforeTile {before after : List GameEvent} {playerId : PlayerId} {cell : ℕ}
    (front : FrontOfGame (before ++ .tilePlaced playerId cell :: after))
    (named : namedJoins (before ++ .tilePlaced playerId cell :: after) = [pair.x, pair.o]) :
    FrontOfGame before ∧ namedJoins before = [pair.x, pair.o] := by
  have both := front.tilesLast before playerId cell after rfl
  constructor
  · refine ⟨both.le, ?_, (List.forall_mem_append.mp front.onBoard).1, ?_⟩
    · intro member
      apply front.noVacant
      rw [joins_append]
      exact List.mem_append_left _ member
    · rintro earlier author here middle rfl
      exact front.tilesLast earlier author here (middle ++ .tilePlaced playerId cell :: after)
        (by simp)
  · rw [namedJoins_append] at named
    rw [← namedJoins_length] at both
    have none : namedJoins (.tilePlaced playerId cell :: after) = [] := by
      have lengths := congrArg List.length named
      rw [List.length_append, both] at lengths
      exact List.eq_nil_of_length_eq_zero (Nat.add_left_cancel lengths)
    rwa [none, List.append_nil] at named

theorem tile {before after : List GameEvent} {playerId : PlayerId} {cell : ℕ}
    (front : FrontOfGame (before ++ .tilePlaced playerId cell :: after))
    (named : namedJoins (before ++ .tilePlaced playerId cell :: after) = [pair.x, pair.o]) :
    (hydrate (before ++ [.tilePlaced playerId cell])).board[cell]? =
        some (.occupied (pair.symbolOf playerId)) ∧
      (hydrate (before ++ [.tilePlaced playerId cell])).activePlayerId =
        pair.opponentOf playerId := by
  have inside : cell < 9 := front.onBoard (.tilePlaced playerId cell) (by simp)
  obtain ⟨earlier, namedBefore⟩ := front.beforeTile named
  have placed : hydrate (before ++ [.tilePlaced playerId cell]) =
      evolve (hydrate before) (.tilePlaced playerId cell) := by
    rw [hydrate, List.foldl_append]
    rfl
  rw [placed]
  exact PlayerPair.evolve_tilePlaced (earlier.seats namedBefore) playerId inside

/-- However a front part is cut into batches, the model of it agrees with the write model. -/
theorem agrees [Bincode] (front : FrontOfGame received) {batches : List (List Bytes)}
    (decoded : batches.flatten.map Bincode.decodeEvent = received.map .ok) :
    (ReadModel.new.frames batches).Agrees received := by
  obtain ⟨replica, paired⟩ := ReadModel.frames_new decoded front.atMostTwo
  have pair_iff : ∀ pair, (ReadModel.new.frames batches).pair = some pair ↔
      pair.joinEvents.Sublist received := by
    intro pair
    rw [paired pair, replica]
  have named : ∀ pair, (ReadModel.new.frames batches).pair = some pair ↔
      namedJoins received = [pair.x, pair.o] := fun pair =>
    (pair_iff pair).trans (namedJoins_eq_iff front.atMostTwo pair).symm
  refine ⟨replica, ?_, pair_iff, fun pair found => ReadModel.frames_of_some found, ?_, ?_⟩
  · rw [← namedJoins_length, List.length_eq_two, Option.isSome_iff_exists]
    constructor
    · rintro ⟨pair, found⟩
      exact ⟨pair.x, pair.o, (named pair).mp found⟩
    · rintro ⟨x, o, both⟩
      exact ⟨⟨x, o⟩, (named ⟨x, o⟩).mpr both⟩
  · intro pair found
    rw [replica]
    exact front.seats ((named pair).mp found)
  · rintro pair found before playerId cell after rfl
    exact front.tile ((named pair).mp found)

end FrontOfGame

section Runs

variable {E P B : Type} [Anyhow E] [EventPublisher E P] [NetworkBroadcaster E B]

/-- A client that receives the log of a service in order and once agrees with it at every batch. -/
theorem readModel_agrees [Bincode] (fresh : ℕ → Stamp) (gameId : GameId) (publisher : P)
    (broadcaster : B) (envelopes : List CommandEnvelope) (batches : List (List Bytes))
    (received rest : List GameEvent)
    (inOrder : ((GameService.build gameId publisher broadcaster).handleAll fresh
      envelopes).store.events = received ++ rest)
    (decoded : batches.flatten.map Bincode.decodeEvent = received.map .ok) :
    (ReadModel.new.frames batches).Agrees received := by
  rw [GameService.handleAll_events] at inOrder
  have front : FrontOfGame received := frontOfGame inOrder
  exact front.agrees decoded

end Runs

attribute [local instance] standardBincode

private def moveMade : List GameCommand :=
  [.joinGame ⟨1⟩ "Ann", .joinGame ⟨2⟩ "Bob", .placeTile ⟨1⟩ 4]

private def firstFrame : List GameEvent := [.playerJoined ⟨1⟩ "Ann"]

private def secondFrame : List GameEvent :=
  [.playerJoined ⟨2⟩ "Bob", .gameStarted ⟨1⟩, .tilePlaced ⟨1⟩ 4]

private def encoded (events : List GameEvent) : List Bytes :=
  events.filterMap fun event => (Bincode.encodeEvent event).toOption

/-- The second frame of a client brings the second join and a tile. -/
theorem readModel_agrees_secondFrame :
    (ReadModel.new.frames [encoded firstFrame, encoded secondFrame]).Agrees
      (firstFrame ++ secondFrame) := by
  let stamp : Stamp := ⟨⟨0⟩, ⟨0⟩⟩
  have logged : ((GameService.build ⟨⟨0⟩⟩ NoopPublisher.mk NoopBroadcaster.mk).handleAll
      (fun _ => stamp) (moveMade.map (CommandEnvelope.new stamp ⟨⟨0⟩⟩))).store.events =
        (firstFrame ++ secondFrame) ++ [] := by
    rw [GameService.handleAll_new_events]
    decide +kernel
  have decoded : [encoded firstFrame, encoded secondFrame].flatten.map Bincode.decodeEvent =
      (firstFrame ++ secondFrame).map .ok := by
    decide +kernel
  have agrees := readModel_agrees (E := ErrorChain) (fun _ => stamp) ⟨⟨0⟩⟩ NoopPublisher.mk
    NoopBroadcaster.mk _ _ _ _ logged decoded
  exact agrees

end TicTacTussle
