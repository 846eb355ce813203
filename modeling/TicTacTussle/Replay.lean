import TicTacTussle.Bounds
import TicTacTussle.Simulation

/-!
# Replay

The source's harness is a plain record, and nothing in it ties the cursor to the log or the state to
the cursor.  Its operations are written here on such records, with `none` for a panic.  Over a log
on the board they never panic and stay among the harnesses of `SimulationHarness`, whatever the
order in which they are used.  Over the log of a service they foretell what the service did.
-/

namespace TicTacTussle

open GameDecider

/-- The fields of a harness, with nothing known about them. -/
structure HarnessFields where
  log : List GameEvent
  cursor : ℕ
  state : GameState
  deriving DecidableEq, Repr

namespace HarnessFields

/-- The slice `log[..n]`, which panics past the end. -/
def sliceTo (log : List GameEvent) (n : ℕ) : Option (List GameEvent) :=
  if n ≤ log.length then some (log.take n) else none

/-- `from_log`. -/
def fromLog (log : List GameEvent) : Option HarnessFields := do
  let state ← tryHydrate log
  let cursor := log.length
  some { log, cursor, state }

/-- `from_log_up_to`. -/
def fromLogUpTo (log : List GameEvent) (n : ℕ) : Option HarnessFields := do
  let take := min n log.length
  let front ← sliceTo log take
  let state ← tryHydrate front
  some { log, cursor := take, state }

/-- `is_exhausted`. -/
def isExhausted (harness : HarnessFields) : Bool :=
  harness.cursor ≥ harness.log.length

/-- `step_forward`, with its answer. -/
def stepForward (harness : HarnessFields) : Option (HarnessFields × Bool) :=
  if harness.isExhausted then some (harness, false)
  else do
    let event ← harness.log[harness.cursor]?
    let state ← tryEvolve harness.state event
    some ({ harness with state, cursor := harness.cursor + 1 }, true)

/-- `rewind_to`. -/
def rewindTo (harness : HarnessFields) (n : ℕ) : Option HarnessFields := do
  let cursor := min n harness.log.length
  let front ← sliceTo harness.log cursor
  let state ← tryHydrate front
  some { harness with cursor, state }

/-- `branch_with_command`, which borrows the harness. -/
def branchWithCommand (harness : HarnessFields) (cmd : GameCommand) :
    Option (Except TicTacTussleError (List GameEvent × GameState)) := do
  match ← tryDecide harness.state cmd with
  | .error error => some (.error error)
  | .ok events =>
      let newState ← events.foldlM tryEvolve harness.state
      some (.ok (events, newState))

/-- A step that answers `true` leaves fewer events to replay. -/
theorem stepForward_decreases {harness next : HarnessFields}
    (stepped : harness.stepForward = some (next, true)) :
    next.log.length - next.cursor < harness.log.length - harness.cursor := by
  rw [stepForward] at stepped
  split at stepped
  · cases stepped
  · rename_i more
    simp only [isExhausted, ge_iff_le, decide_eq_true_eq, not_le] at more
    simp only [bind, Option.bind_eq_some_iff, Option.some.injEq, Prod.mk.injEq, and_true] at stepped
    obtain ⟨event, _, state, _, rfl⟩ := stepped
    dsimp only
    omega

/-- `run_to_end`: step until a step answers `false`. -/
def runToEnd (harness : HarnessFields) : Option HarnessFields :=
  match _ : harness.stepForward with
  | none => none
  | some (next, true) => next.runToEnd
  | some (next, false) => some next
termination_by harness.log.length - harness.cursor
decreasing_by exact stepForward_decreases ‹_›

/-- How a harness is created over a log. -/
inductive Origin where
  | fromLog
  | fromLogUpTo (n : ℕ)
  deriving DecidableEq, Repr

/-- What can be asked of a harness. -/
inductive Operation where
  | stepForward
  | rewindTo (n : ℕ)
  | branchWithCommand (cmd : GameCommand)
  | runToEnd
  deriving DecidableEq, Repr

/-- Create a harness. -/
def create (log : List GameEvent) : Origin → Option HarnessFields
  | .fromLog => fromLog log
  | .fromLogUpTo n => fromLogUpTo log n

/-- The harness that an operation leaves behind. -/
def apply (harness : HarnessFields) : Operation → Option HarnessFields
  | .stepForward => harness.stepForward.map Prod.fst
  | .rewindTo n => harness.rewindTo n
  | .branchWithCommand cmd => (harness.branchWithCommand cmd).map fun _ => harness
  | .runToEnd => harness.runToEnd

/-- Create a harness and use it. -/
def use (log : List GameEvent) (origin : Origin) (operations : List Operation) :
    Option HarnessFields := do
  let harness ← create log origin
  operations.foldlM apply harness

theorem sliceTo_of_le {log : List GameEvent} {n : ℕ} (inRange : n ≤ log.length) :
    sliceTo log n = some (log.take n) :=
  if_pos inRange

end HarnessFields

/-! ## Refinement -/

namespace SimulationHarness

/-- The record behind a harness. -/
def fields (harness : SimulationHarness) : HarnessFields :=
  ⟨harness.log, harness.cursor, harness.state⟩

/-- The harness replays a log on the board. -/
def OnBoard (harness : SimulationHarness) : Prop :=
  ∀ event ∈ harness.log, event.OnBoard

section Log

variable {log : List GameEvent} (onBoard : ∀ event ∈ log, event.OnBoard)

include onBoard

theorem tryHydrate_take (n : ℕ) : tryHydrate (log.take n) = some (hydrate (log.take n)) :=
  tryHydrate_eq fun event member => onBoard event (List.mem_of_mem_take member)

theorem fields_fromLog : HarnessFields.fromLog log = some (fromLog log).fields := by
  rw [HarnessFields.fromLog, tryHydrate_eq onBoard]
  rfl

theorem fields_fromLogUpTo (n : ℕ) :
    HarnessFields.fromLogUpTo log n = some (fromLogUpTo log n).fields := by
  rw [HarnessFields.fromLogUpTo, HarnessFields.sliceTo_of_le (Nat.min_le_right n log.length)]
  dsimp only [Bind.bind]
  rw [Option.bind_some, tryHydrate_take onBoard]
  rfl

end Log

namespace OnBoard

variable {harness : SimulationHarness} (onBoard : harness.OnBoard)

include onBoard

theorem fields_stepForward :
    harness.fields.stepForward =
      some (harness.stepForward.1.fields, harness.stepForward.2) := by
  rw [HarnessFields.stepForward, SimulationHarness.stepForward]
  by_cases exhausted : harness.isExhausted
  · have same : harness.fields.isExhausted = true := decide_eq_true exhausted
    rw [if_pos same, dif_pos exhausted]
  · have same : ¬ harness.fields.isExhausted = true := by
      rwa [HarnessFields.isExhausted, decide_eq_true_eq]
    have more : harness.cursor < harness.log.length := Nat.lt_of_not_le exhausted
    have found : harness.fields.log[harness.fields.cursor]? = some harness.log[harness.cursor] :=
      List.getElem?_eq_getElem more
    rw [if_neg same, dif_neg exhausted, found]
    dsimp only [Bind.bind]
    rw [Option.bind_some, tryEvolve_of_onBoard (onBoard _ (List.getElem_mem more))]
    rfl

theorem fields_rewindTo (n : ℕ) :
    harness.fields.rewindTo n = some (harness.rewindTo n).fields :=
  fields_fromLogUpTo onBoard n

theorem stepForward : harness.stepForward.1.OnBoard := by
  rw [OnBoard, stepForward_log]
  exact onBoard

theorem fields_runToEnd : harness.fields.runToEnd = some harness.runToEnd.fields := by
  induction harness using SimulationHarness.runToEnd.induct with
  | case1 harness exhausted =>
      have stopped : harness.fields.stepForward = some (harness.fields, false) := by
        rw [fields_stepForward onBoard, SimulationHarness.stepForward, dif_pos exhausted]
      rw [HarnessFields.runToEnd, SimulationHarness.runToEnd, if_pos exhausted]
      split <;> rename_i stepped <;> cases stopped.symm.trans stepped
      rfl
  | case2 harness more induction =>
      have moved : harness.fields.stepForward = some (harness.stepForward.1.fields, true) := by
        rw [fields_stepForward onBoard, SimulationHarness.stepForward, dif_neg more]
      rw [HarnessFields.runToEnd, SimulationHarness.runToEnd, if_neg more]
      split <;> rename_i stepped <;> cases moved.symm.trans stepped
      exact induction onBoard.stepForward

end OnBoard

/-- Branching panics on no state at all. -/
theorem fields_branchWithCommand (harness : SimulationHarness) (cmd : GameCommand) :
    harness.fields.branchWithCommand cmd = some (harness.branchWithCommand cmd) := by
  rw [HarnessFields.branchWithCommand, SimulationHarness.branchWithCommand, tryDecide_eq]
  dsimp only [Bind.bind]
  rw [Option.bind_some]
  change _ = some ((GameDecider.decide harness.fields.state cmd).bind _)
  cases decision : GameDecider.decide harness.fields.state cmd with
  | error error => rfl
  | ok events =>
      have replayed : events.foldlM tryEvolve harness.fields.state =
          some (events.foldl evolve harness.fields.state) :=
        guarded.tryReplay_eq_some (decide_onBoard decision) _
      dsimp only
      rw [replayed]
      rfl

/-- Every operation leads from a harness to a harness over the same log. -/
theorem OnBoard.exists_apply {harness : SimulationHarness} (onBoard : harness.OnBoard)
    (operation : HarnessFields.Operation) :
    ∃ next : SimulationHarness, harness.fields.apply operation = some next.fields ∧
      next.log = harness.log := by
  cases operation with
  | stepForward =>
      refine ⟨harness.stepForward.1, ?_, stepForward_log harness⟩
      rw [HarnessFields.apply, onBoard.fields_stepForward]
      rfl
  | rewindTo n => exact ⟨harness.rewindTo n, onBoard.fields_rewindTo n, rfl⟩
  | branchWithCommand cmd =>
      refine ⟨harness, ?_, rfl⟩
      rw [HarnessFields.apply, fields_branchWithCommand]
      rfl
  | runToEnd =>
      refine ⟨harness.runToEnd, onBoard.fields_runToEnd, ?_⟩
      rw [runToEnd_eq]
      rfl

theorem OnBoard.exists_foldlM {harness : SimulationHarness} (onBoard : harness.OnBoard)
    (operations : List HarnessFields.Operation) :
    ∃ final : SimulationHarness,
      operations.foldlM HarnessFields.apply harness.fields = some final.fields ∧
        final.log = harness.log := by
  induction operations generalizing harness with
  | nil => exact ⟨harness, rfl, rfl⟩
  | cons operation operations induction =>
      obtain ⟨next, applied, next_log⟩ := onBoard.exists_apply operation
      have nextOnBoard : next.OnBoard := by
        rw [OnBoard, next_log]
        exact onBoard
      obtain ⟨final, run, final_log⟩ := induction nextOnBoard
      refine ⟨final, ?_, final_log.trans next_log⟩
      rw [List.foldlM_cons, applied]
      exact run

/-- Over a log on the board the source's record never leaves the harnesses. -/
theorem exists_use {log : List GameEvent} (onBoard : ∀ event ∈ log, event.OnBoard)
    (origin : HarnessFields.Origin) (operations : List HarnessFields.Operation) :
    ∃ harness : SimulationHarness,
      HarnessFields.use log origin operations = some harness.fields ∧ harness.log = log := by
  have created : ∃ first : SimulationHarness,
      HarnessFields.create log origin = some first.fields ∧ first.log = log := by
    cases origin with
    | fromLog => exact ⟨fromLog log, fields_fromLog onBoard, rfl⟩
    | fromLogUpTo n => exact ⟨fromLogUpTo log n, fields_fromLogUpTo onBoard n, rfl⟩
  obtain ⟨first, created, rfl⟩ := created
  obtain ⟨final, run, final_log⟩ := OnBoard.exists_foldlM onBoard operations
  refine ⟨final, ?_, final_log⟩
  rw [HarnessFields.use, created]
  exact run

end SimulationHarness

/-- What a harness holds and answers is a function of the log and its cursor. -/
structure HarnessFields.PathIndependent (log : List GameEvent) (harness : HarnessFields) :
    Prop where
  log_eq : harness.log = log
  cursor_le : harness.cursor ≤ log.length
  state_eq : tryHydrate (log.take harness.cursor) = some harness.state
  branch : ∀ cmd, harness.apply (.branchWithCommand cmd) = some harness ∧
    ∃ answer, harness.branchWithCommand cmd = some answer ∧
      ∀ events after, answer = .ok (events, after) →
        tryHydrate (log.take harness.cursor ++ events) = some after
  step : ∃ next moved, harness.stepForward = some (next, moved) ∧
    (moved = false ↔ harness.cursor = log.length)
  finish : ∃ final, harness.runToEnd = some final ∧ final.log = log ∧
    final.cursor = log.length ∧ tryHydrate log = some final.state

namespace SimulationHarness

theorem stepForward_eq_false_iff (harness : SimulationHarness) :
    harness.stepForward.2 = false ↔ harness.cursor = harness.log.length := by
  have bound := harness.cursor_le
  rw [stepForward]
  split
  · rename_i exhausted
    exact iff_of_true rfl (Nat.le_antisymm bound exhausted)
  · rename_i more
    have apart : harness.cursor ≠ harness.log.length := fun same => more same.ge
    simp [apart]

/-- A branch ends where hydrating its events behind the log does. -/
theorem OnBoard.tryHydrate_branch {harness : SimulationHarness} (onBoard : harness.OnBoard)
    {cmd : GameCommand} {events : List GameEvent} {after : GameState}
    (branched : harness.branchWithCommand cmd = .ok (events, after)) :
    tryHydrate (harness.log.take harness.cursor ++ events) = some after := by
  obtain ⟨decided, rfl⟩ := (harness.branchWithCommand_eq_ok_iff _ _ _).mp branched
  have whole : ∀ event ∈ harness.log.take harness.cursor ++ events, event.OnBoard :=
    List.forall_mem_append.mpr
      ⟨fun event member => onBoard event (List.mem_of_mem_take member), decide_onBoard decided⟩
  rw [tryHydrate_eq whole, harness.state_eq, hydrate, List.foldl_append]
  rfl

theorem OnBoard.pathIndependent {harness : SimulationHarness} (onBoard : harness.OnBoard) :
    HarnessFields.PathIndependent harness.log harness.fields where
  log_eq := rfl
  cursor_le := harness.cursor_le
  state_eq := (tryHydrate_take onBoard harness.cursor).trans (congrArg some harness.state_eq.symm)
  branch cmd := by
    have answered := harness.fields_branchWithCommand cmd
    refine ⟨?_, _, answered, fun events after branched => onBoard.tryHydrate_branch branched⟩
    rw [HarnessFields.apply, answered]
    rfl
  step := ⟨_, _, onBoard.fields_stepForward, harness.stepForward_eq_false_iff⟩
  finish := by
    refine ⟨_, onBoard.fields_runToEnd, ?_⟩
    rw [runToEnd_eq]
    exact ⟨rfl, rfl, tryHydrate_eq onBoard⟩

end SimulationHarness

/-- Over a log on the board every mix of operations keeps the harness a function of its cursor. -/
theorem replay_pathIndependent (log : List GameEvent) (onBoard : ∀ event ∈ log, event.OnBoard)
    (origin : HarnessFields.Origin) (operations : List HarnessFields.Operation) :
    ∃ harness, HarnessFields.use log origin operations = some harness ∧
      harness.PathIndependent log := by
  obtain ⟨harness, used, rfl⟩ := SimulationHarness.exists_use onBoard origin operations
  exact ⟨harness.fields, used, SimulationHarness.OnBoard.pathIndependent onBoard⟩

private def shortGame : List GameEvent :=
  [.playerJoined ⟨1⟩ "Ann", .playerJoined ⟨2⟩ "Bob", .gameStarted ⟨1⟩, .tilePlaced ⟨1⟩ 4,
    .tilePlaced ⟨2⟩ 8]

/-- Stepping, branching and rewinding past the end of a short game. -/
theorem replay_pathIndependent_shortGame :
    ∃ harness, HarnessFields.use shortGame (.fromLogUpTo 2)
        [.stepForward, .branchWithCommand (.placeTile ⟨1⟩ 0), .rewindTo 9, .rewindTo 1,
          .runToEnd] = some harness ∧
      harness.PathIndependent shortGame :=
  replay_pathIndependent shortGame (by decide) _ _

/-! ## What-if answers come true -/

section Forecasts

variable {E P B : Type} [Anyhow E] [EventPublisher E P] [NetworkBroadcaster E B]

/-- What a harness answers to a command is what the service did with it. -/
structure GameService.Foretold (fresh : ℕ → Stamp) (before : GameService P B)
    (cmdEnv : CommandEnvelope) (log : List GameEvent)
    (answer : Except TicTacTussleError (List GameEvent × GameState)) : Prop where
  refused : ∀ error, answer = .error error →
    before.handle fresh cmdEnv = (before, .error (Anyhow.msg (error.display (Anyhow.uuidText E))))
  accepted : ∀ events after, answer = .ok (events, after) →
    (before.handle fresh cmdEnv).1.store.events = before.store.events ++ events ∧
      (∃ rest, log = before.store.events ++ events ++ rest) ∧
      after = hydrate (before.handle fresh cmdEnv).1.store.events

theorem SimulationHarness.foretold (fresh : ℕ → Stamp) {before : GameService P B}
    {cmdEnv : CommandEnvelope} (forUs : cmdEnv.gameId = before.store.gameId)
    {harness : SimulationHarness} (there : harness.log.take harness.cursor = before.store.events)
    (later : (before.handle fresh cmdEnv).1.store.events <+: harness.log) :
    before.Foretold fresh cmdEnv harness.log (harness.branchWithCommand cmdEnv.command) := by
  have state : harness.state = hydrate before.store.events := by rw [harness.state_eq, there]
  have handled := GameService.handle_events fresh before cmdEnv forUs
  constructor
  · intro error refused
    cases decision : GameDecider.decide harness.state cmdEnv.command with
    | ok events =>
        rw [branchWithCommand, decision] at refused
        cases refused
    | error reason =>
        rw [branchWithCommand, decision] at refused
        obtain rfl : reason = error := Except.error.inj refused
        rw [state] at decision
        exact GameService.handle_of_refused fresh forUs decision
  · intro events after accepted
    obtain ⟨decided, rfl⟩ := (harness.branchWithCommand_eq_ok_iff _ _ _).mp accepted
    rw [state] at decided ⊢
    rw [decider.next_of_ok decided] at handled
    rw [handled] at later ⊢
    obtain ⟨rest, whole⟩ := later
    refine ⟨rfl, ⟨rest, whole.symm⟩, ?_⟩
    rw [hydrate, hydrate, List.foldl_append]

/-- Wherever in the log of a run a harness stands, as long as it is where the service handled a
command, it foretells what the service did with this command. -/
theorem replay_foretells (fresh : ℕ → Stamp) (gameId : GameId) (publisher : P) (broadcaster : B)
    (front back : List CommandEnvelope) (cmdEnv : CommandEnvelope)
    (forUs : cmdEnv.gameId = gameId) (origin : HarnessFields.Origin)
    (operations : List HarnessFields.Operation) {harness : HarnessFields} :
    let service : GameService P B := .build gameId publisher broadcaster
    let before := service.handleAll fresh front
    let log := (service.handleAll fresh (front ++ cmdEnv :: back)).store.events
    HarnessFields.use log origin operations = some harness →
      harness.cursor = before.store.events.length →
        ∃ answer, harness.branchWithCommand cmdEnv.command = some answer ∧
          before.Foretold fresh cmdEnv log answer := by
  intro service before log used there
  have onBoard : ∀ event ∈ log, event.OnBoard :=
    (GameService.onBoard_build gameId publisher broadcaster).handleAll fresh
      (front ++ cmdEnv :: back)
  obtain ⟨reached, same, log_eq⟩ := SimulationHarness.exists_use onBoard origin operations
  obtain rfl := Option.some.inj (same.symm.trans used)
  have own : before.store.gameId = gameId := GameService.handleAll_gameId fresh service front
  have split : log = ((before.handle fresh cmdEnv).1.handleAll fresh back).store.events := by
    simp only [log, before, GameService.handleAll_append, GameService.handleAll_cons]
  have later : (before.handle fresh cmdEnv).1.store.events <+: log := by
    rw [split, GameService.handleAll_events]
    exact decider.log_prefix_run _ _
  have earlier : before.store.events <+: log := by
    refine List.IsPrefix.trans ?_ later
    rw [GameService.handle_events fresh before cmdEnv (forUs.trans own.symm)]
    exact decider.log_prefix_next _ _
  have front_eq : reached.log.take reached.cursor = before.store.events := by
    have cursor : reached.cursor = before.store.events.length := there
    rw [log_eq, cursor]
    exact (List.prefix_iff_eq_take.mp earlier).symm
  refine ⟨_, reached.fields_branchWithCommand cmdEnv.command, ?_⟩
  rw [← log_eq] at later ⊢
  exact SimulationHarness.foretold fresh (forUs.trans own.symm) front_eq later

end Forecasts

private def dawn (_ : ℕ) : Stamp := ⟨⟨0⟩, ⟨0⟩⟩

private def issued (command : GameCommand) : CommandEnvelope := .new (dawn 0) ⟨⟨0⟩⟩ command

private def seating : List CommandEnvelope :=
  [issued (.joinGame ⟨1⟩ "Ann"), issued (.joinGame ⟨2⟩ "Bob")]

private abbrev lobby : GameService NoopPublisher NoopBroadcaster := .build ⟨⟨0⟩⟩ .mk .mk

private def rewound : Option HarnessFields :=
  HarnessFields.use
    (lobby.handleAll dawn
      (seating ++ issued (.placeTile ⟨1⟩ 4) :: [issued (.placeTile ⟨2⟩ 0)])).store.events
    .fromLog [.rewindTo 3]

private theorem rewound_cursor : rewound.map HarnessFields.cursor =
    some (lobby.handleAll dawn seating).store.events.length := by
  decide +kernel

/-- Rewound to the start of the game, the harness foretells the move to the centre. -/
theorem replay_foretells_centre :
    ∃ harness answer, rewound = some harness ∧
      harness.branchWithCommand (.placeTile ⟨1⟩ 4) = some answer ∧
        (lobby.handleAll dawn seating).Foretold dawn
          (issued (.placeTile ⟨1⟩ 4))
          (lobby.handleAll dawn
            (seating ++ issued (.placeTile ⟨1⟩ 4) :: [issued (.placeTile ⟨2⟩ 0)])).store.events
          answer := by
  obtain ⟨harness, used, cursor⟩ := Option.map_eq_some_iff.mp rewound_cursor
  obtain ⟨answer, answered, foretold⟩ := replay_foretells (E := ErrorChain)
    dawn ⟨⟨0⟩⟩ NoopPublisher.mk NoopBroadcaster.mk seating
    [issued (.placeTile ⟨2⟩ 0)] (issued (.placeTile ⟨1⟩ 4)) rfl _ _ used cursor
  exact ⟨harness, answer, used, answered, foretold⟩

end TicTacTussle
