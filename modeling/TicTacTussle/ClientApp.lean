import TicTacTussle.ReadModel
import TicTacTussle.Schedule

/-!
# The client program

The client is a set of systems over shared resources.  Every frame runs the update systems once, in
an order the program leaves open, and then takes in what the server has sent; messages to the server
are handed to renet in the order in which they are written.  A frame without a value is a panic.
-/

namespace TicTacTussle

open Wire

structure Color where
  red : UInt8
  green : UInt8
  blue : UInt8
  deriving DecidableEq, Repr

def Color.white : Color := ⟨255, 255, 255⟩

def cellSize : ℤ := 160

def cellPos (cell : ℕ) : ℤ × ℤ :=
  let col : ℤ := cell % 3
  let row : ℤ := cell / 3
  (cellSize * (col - 1), cellSize * (1 - row))

def pieceColor (symbol : Option Symbol) (playerId : PlayerId) (localId : Option PlayerId) : Color :=
  let isMe : Bool := localId = some playerId
  match symbol, isMe with
  | some .x, true => ⟨70, 180, 230⟩
  | some .x, false => ⟨230, 100, 70⟩
  | some .o, true => ⟨70, 230, 150⟩
  | some .o, false => ⟨230, 180, 70⟩
  | none, _ => .white

def symbolText : Option Symbol → String
  | some .x => "X"
  | some .o => "O"
  | none => "?"

structure Piece where
  position : ℤ × ℤ
  color : Color
  text : String
  deriving DecidableEq, Repr

/-- The piece of a tile. -/
def Piece.ofTile (symbol : Option Symbol) (localId : Option PlayerId) (playerId : PlayerId)
    (cell : ℕ) : Piece where
  position := cellPos cell
  color := pieceColor symbol playerId localId
  text := symbolText symbol

structure StatusText where
  text : String
  color : Color
  deriving DecidableEq, Repr

namespace StatusText

/-- What `setup` puts into the bar. -/
def waiting : StatusText := ⟨"Waiting for opponent…", .white⟩

/-- During the game: whose turn it is. -/
def turn (activeId myId : PlayerId) (opponent : Option String) : StatusText :=
  if activeId = myId then ⟨"Your turn!", ⟨100, 210, 100⟩⟩
  else ⟨opponent.getD "Opponent" ++ "'s turn...", .white⟩

/-- After the game: how it ended. -/
def ending (myId : PlayerId) (nameOf : PlayerId → Option String) : EndGameReason → StatusText
  | .playerWon winner =>
      if winner = myId then ⟨"You win! 🎉", ⟨255, 215, 0⟩⟩
      else ⟨(nameOf winner).getD "Opponent" ++ " wins.", ⟨200, 80, 80⟩⟩
  | .draw => ⟨"Draw!", ⟨180, 180, 180⟩⟩
  | .playerLeft _ => ⟨"Opponent left.", ⟨160, 160, 160⟩⟩

/-- The bar after one message; the state is that of the whole frame. -/
def report (state : GameState) (myId : PlayerId) (nameOf : PlayerId → Option String)
    (status : StatusText) : GameEvent → StatusText
  | .gameStarted _ | .tilePlaced _ _ =>
      if state.stage = .inGame then turn state.activePlayerId myId (nameOf state.activePlayerId)
      else status
  | .gameEnded reason => ending myId nameOf reason
  | .playerJoined _ _ | .playerLeft _ => status

end StatusText

def namesOf (pair : Option PlayerPair) (playerId : PlayerId) : Option String :=
  pair.bind fun pair => pair.nameOf playerId

/-- The resources and entities of a client program. -/
structure ClientApp where
  /-- `client_id` of the transport. -/
  clientId : UInt64
  username : String
  localPlayerId : Option PlayerId
  model : ReadModel
  /-- Messages that `render_pieces` has not read yet. -/
  unrendered : List GameEvent
  /-- Messages that `update_status` has not read yet. -/
  unreported : List GameEvent
  pieces : List Piece
  hovered : Option ℕ
  status : StatusText
  /-- What was handed to renet for the server. -/
  sent : List Bytes
  deriving DecidableEq, Repr

inductive UpdateSystem where
  | setLocalPlayerId
  | updatePair
  | handleInput
  | renderPieces
  | renderHover
  | updateStatus
  deriving DecidableEq, Repr

/-- The systems in the order in which `main` lists them, which the schedule is not bound to. -/
def UpdateSystem.all : List UpdateSystem :=
  [.setLocalPlayerId, .updatePair, .handleInput, .renderPieces, .renderHover, .updateStatus]

structure FrameInput where
  order : List UpdateSystem
  everyOnce : order.Perm UpdateSystem.all
  /-- The row and the column under the cursor. -/
  cursor : Option (ℤ × ℤ)
  /-- Whether the left button was just pressed. -/
  pressed : Bool
  arrived : List Bytes

/-- The system runs earlier than the other in this frame. -/
def FrameInput.Before (input : FrameInput) (first second : UpdateSystem) : Prop :=
  input.order.idxOf first < input.order.idxOf second

instance (input : FrameInput) (first second : UpdateSystem) :
    Decidable (input.Before first second) :=
  inferInstanceAs (Decidable (_ < _))

theorem FrameInput.order_nodup (input : FrameInput) : input.order.Nodup :=
  input.everyOnce.nodup_iff.mpr (by decide)

theorem FrameInput.mem_order (input : FrameInput) (system : UpdateSystem) :
    system ∈ input.order := by
  rw [input.everyOnce.mem_iff]
  cases system <;> decide

def cellUnder (cursor : Option (ℤ × ℤ)) : Option ℕ := do
  let (row, col) ← cursor
  guard ((0 ≤ col ∧ col < 3) ∧ 0 ≤ row ∧ row < 3)
  some (row * 3 + col).toNat

namespace ClientApp

def start (clientId : UInt64) (username : String) : ClientApp where
  clientId := clientId
  username := username
  localPlayerId := none
  model := .new
  unrendered := []
  unreported := []
  pieces := []
  hovered := none
  status := .waiting
  sent := []

/-! ## Systems -/

section Systems

variable [Bincode]

def sendCommand (app : ClientApp) (command : GameCommand) : Option ClientApp :=
  match Bincode.encodeCommand command with
  | .ok bytes => some { app with sent := app.sent ++ [bytes] }
  | .error _ => none

/-- Take the player's id from the transport, once, and ask to join under it. -/
def setLocalPlayerId (app : ClientApp) : Option ClientApp :=
  if app.localPlayerId.isNone then
    let id : PlayerId := ⟨app.clientId⟩
    { app with localPlayerId := some id }.sendCommand (.joinGame id app.username)
  else some app

def updatePair (app : ClientApp) : ClientApp :=
  { app with model := app.model.updatePair }

/-- A click on an empty cell in the player's turn asks for the tile. -/
def handleInput (app : ClientApp) (cursor : Option (ℤ × ℤ)) (pressed : Bool) : Option ClientApp :=
  match app.model.replica.handleInput app.localPlayerId cursor pressed with
  | some command => app.sendCommand command
  | none => some app

/-- The piece drawn for a message, if it is a tile. -/
def draw (pair : Option PlayerPair) (localId : Option PlayerId) : GameEvent → Option Piece
  | .tilePlaced playerId cell =>
      some (.ofTile (pair.map fun pair => pair.symbolOf playerId) localId playerId cell)
  | _ => none

def renderPieces (app : ClientApp) : ClientApp :=
  { app with
    pieces := app.pieces ++ app.unrendered.filterMap (draw app.model.pair app.localPlayerId)
    unrendered := [] }

def hoverCell (state : GameState) (localId : Option PlayerId) (cursor : Option (ℤ × ℤ)) :
    Option ℕ :=
  let isMyTurn : Bool :=
    (localId.map fun id => decide (state.activePlayerId = id ∧ state.stage = .inGame)).getD false
  if isMyTurn then cellUnder cursor else none

def renderHover (app : ClientApp) (cursor : Option (ℤ × ℤ)) : ClientApp :=
  { app with hovered := hoverCell app.model.replica.state app.localPlayerId cursor }

/-- Report every message not read yet. -/
def updateStatus (app : ClientApp) : ClientApp :=
  let myId := app.localPlayerId.getD .vacant
  let report := StatusText.report app.model.replica.state myId (namesOf app.model.pair)
  { app with
    status := app.unreported.foldl report app.status
    unreported := [] }

def runSystem (input : FrameInput) (app : ClientApp) : UpdateSystem → Option ClientApp
  | .setLocalPlayerId => app.setLocalPlayerId
  | .updatePair => some app.updatePair
  | .handleInput => app.handleInput input.cursor input.pressed
  | .renderPieces => some app.renderPieces
  | .renderHover => some (app.renderHover input.cursor)
  | .updateStatus => some app.updateStatus

def update (app : ClientApp) (input : FrameInput) : Option ClientApp :=
  Schedule.runAll (runSystem input) app input.order

/-- Take in one message; a message that does not decode is only logged. -/
def receive (app : ClientApp) (raw : Bytes) : ClientApp :=
  match Bincode.decodeEvent raw with
  | .ok event =>
      { app with
        model := { app.model with replica := app.model.replica.receive raw }
        unrendered := app.unrendered ++ [event]
        unreported := app.unreported ++ [event] }
  | .error _ => app

def receiveServerEvents (app : ClientApp) (messages : List Bytes) : ClientApp :=
  messages.foldl receive app

/-- One frame: the update systems, then the messages that have arrived. -/
def frame (app : ClientApp) (input : FrameInput) : Option ClientApp :=
  (app.update input).map fun app => app.receiveServerEvents input.arrived

def run (app : ClientApp) (inputs : List FrameInput) : Option ClientApp :=
  Schedule.runAll frame app inputs

/-- The resources that a system leaves alone. -/
structure Writes (system : UpdateSystem) (before after : ClientApp) : Prop where
  identity : (after.clientId, after.username) = (before.clientId, before.username)
  localId : system ≠ .setLocalPlayerId → after.localPlayerId = before.localPlayerId
  model : system ≠ .updatePair → after.model = before.model
  drawing : system ≠ .renderPieces →
    (after.pieces, after.unrendered) = (before.pieces, before.unrendered)
  hovered : system ≠ .renderHover → after.hovered = before.hovered
  reporting : system ≠ .updateStatus →
    (after.status, after.unreported) = (before.status, before.unreported)
  sent : system ≠ .setLocalPlayerId → system ≠ .handleInput → after.sent = before.sent

theorem sendCommand_spec {app after : ClientApp} {command : GameCommand}
    (ran : app.sendCommand command = some after) :
    ∃ bytes, Bincode.decodeCommand bytes = .ok command ∧
      after = { app with sent := app.sent ++ [bytes] } := by
  rw [sendCommand] at ran
  split at ran
  · rename_i bytes encoded
    exact ⟨bytes, Bincode.decodeCommand_encodeCommand encoded, (Option.some.inj ran).symm⟩
  · cases ran

/-- The first frame asks to join; later ones leave everything alone. -/
theorem setLocalPlayerId_spec {app after : ClientApp} (ran : app.setLocalPlayerId = some after) :
    (app.localPlayerId.isSome ∧ after = app) ∨
      app.localPlayerId = none ∧
        ∃ bytes, Bincode.decodeCommand bytes = .ok (.joinGame ⟨app.clientId⟩ app.username) ∧
          after = { app with
            localPlayerId := some ⟨app.clientId⟩
            sent := app.sent ++ [bytes] } := by
  rw [setLocalPlayerId] at ran
  split at ran
  · rename_i unset
    obtain ⟨bytes, decoded, rfl⟩ := sendCommand_spec ran
    exact .inr ⟨Option.isNone_iff_eq_none.mp unset, bytes, decoded, rfl⟩
  · rename_i set
    rw [Option.isNone_iff_eq_none] at set
    exact .inl ⟨Option.isSome_iff_ne_none.mpr set, (Option.some.inj ran).symm⟩

/-- A click sends the tile that the replica allows. -/
theorem handleInput_spec {app after : ClientApp} {cursor : Option (ℤ × ℤ)} {pressed : Bool}
    (ran : app.handleInput cursor pressed = some after) :
    ∃ clicked, clicked.map Bincode.decodeCommand =
        (app.model.replica.handleInput app.localPlayerId cursor pressed).toList.map .ok ∧
      after = { app with sent := app.sent ++ clicked } := by
  rw [handleInput] at ran
  split at ran
  · rename_i command clicked
    obtain ⟨bytes, decoded, rfl⟩ := sendCommand_spec ran
    exact ⟨[bytes], by rw [clicked, List.map_singleton, decoded]; rfl, rfl⟩
  · rename_i idle
    obtain rfl := Option.some.inj ran
    exact ⟨[], by rw [idle]; rfl, by rw [List.append_nil]⟩

theorem runSystem_writes {input : FrameInput} {before after : ClientApp} {system : UpdateSystem}
    (ran : runSystem input before system = some after) : Writes system before after := by
  cases system with
  | setLocalPlayerId =>
      rcases setLocalPlayerId_spec ran with ⟨_, rfl⟩ | ⟨_, bytes, _, rfl⟩
      · constructor <;> simp
      · constructor <;> simp
  | handleInput =>
      obtain ⟨clicked, _, rfl⟩ := handleInput_spec ran
      constructor <;> simp
  | updatePair | renderPieces | renderHover | updateStatus =>
      obtain rfl := Option.some.inj ran
      constructor <;> simp [updatePair, renderPieces, renderHover, updateStatus]

def pairSeen (app : ClientApp) (input : FrameInput) (system : UpdateSystem) : Option PlayerPair :=
  if input.Before .updatePair system then app.model.updatePair.pair else app.model.pair

/-- The local id that a system finds in its turn. -/
def localSeen (app : ClientApp) (input : FrameInput) (system : UpdateSystem) : Option PlayerId :=
  if input.Before .setLocalPlayerId system then some (app.localPlayerId.getD ⟨app.clientId⟩)
  else app.localPlayerId

def joinAsked (app : ClientApp) : List GameCommand :=
  if app.localPlayerId.isNone then [.joinGame ⟨app.clientId⟩ app.username] else []

def clickAsked (app : ClientApp) (input : FrameInput) : List GameCommand :=
  (app.model.replica.handleInput (app.localSeen input .handleInput) input.cursor
    input.pressed).toList

/-- What the update systems make of a program, in whatever order they run. -/
structure Updated (input : FrameInput) (before after : ClientApp) : Prop where
  identity : (after.clientId, after.username) = (before.clientId, before.username)
  localPlayerId : after.localPlayerId = some (before.localPlayerId.getD ⟨before.clientId⟩)
  model : after.model = before.model.updatePair
  pieces : after.pieces = before.pieces ++ before.unrendered.filterMap
    (draw (before.pairSeen input .renderPieces) (before.localSeen input .renderPieces))
  unrendered : after.unrendered = []
  hovered : after.hovered =
    hoverCell before.model.replica.state (before.localSeen input .renderHover) input.cursor
  status : after.status = before.unreported.foldl
    (StatusText.report before.model.replica.state
      ((before.localSeen input .updateStatus).getD .vacant)
      (namesOf (before.pairSeen input .updateStatus))) before.status
  unreported : after.unreported = []
  sent : ∃ messages, messages.map Bincode.decodeCommand =
      (before.joinAsked ++ before.clickAsked input).map .ok ∧
    after.sent = before.sent ++ messages

/-- The highlighted cell, if the button goes down over it while it is empty. -/
def clickedCell (state : GameState) (pressed : Bool) (hovered : Option ℕ) : Option ℕ :=
  hovered.filter fun cell => pressed ∧ state.board[cell]? = some .empty

omit [Bincode] in
/-- The two readings of the cursor agree: a click plays the cell that is highlighted. -/
theorem handleInput_eq (replica : Replica) (playerId : PlayerId) (cursor : Option (ℤ × ℤ))
    (pressed : Bool) :
    replica.handleInput (some playerId) cursor pressed =
      (clickedCell replica.state pressed
        (hoverCell replica.state (some playerId) cursor)).map (.placeTile playerId) := by
  rw [clickedCell]
  cases cursor with
  | none => simp [Replica.handleInput, hoverCell, cellUnder]
  | some position =>
      by_cases onTurn : replica.state.activePlayerId = playerId ∧ replica.state.stage = .inGame
      · by_cases inside : (0 ≤ position.2 ∧ position.2 < 3) ∧ 0 ≤ position.1 ∧ position.1 < 3
        · have hovered : hoverCell replica.state (some playerId) (some position) =
              some (position.1 * 3 + position.2).toNat := by
            simp [hoverCell, cellUnder, onTurn, inside]
          cases pressed with
          | false => simp [Replica.handleInput, hovered]
          | true =>
              by_cases empty :
                  replica.state.board[(position.1 * 3 + position.2).toNat]? = some .empty
              · simp [Replica.handleInput, hovered, onTurn, inside, empty]
              · simp [Replica.handleInput, hovered, onTurn, inside, empty]
        · simp [Replica.handleInput, hoverCell, cellUnder, onTurn, inside]
      · have idle : hoverCell replica.state (some playerId) (some position) = none := by
          simp [hoverCell, onTurn]
        have notBoth : replica.state.stage = .inGame →
            replica.state.activePlayerId ≠ playerId := fun inGame active => onTurn ⟨active, inGame⟩
        simp +contextual [Replica.handleInput, idle, notBoth]

omit [Bincode] in
theorem hoverCell_of_not_inGame {state : GameState} (idle : state.stage ≠ .inGame)
    (localId : Option PlayerId) (cursor : Option (ℤ × ℤ)) :
    hoverCell state localId cursor = none := by
  cases localId <;> simp [hoverCell, idle]

omit [Bincode] in
theorem clickedCell_allows {replica : Replica} {playerId : PlayerId} {cursor : Option (ℤ × ℤ)}
    {pressed : Bool} {cell : ℕ}
    (clicked : clickedCell replica.state pressed
      (hoverCell replica.state (some playerId) cursor) = some cell) :
    pressed ∧ cellUnder cursor = some cell ∧ replica.Allows playerId cell := by
  obtain ⟨hovered, pressedEmpty⟩ := Option.filter_eq_some_iff.mp clicked
  obtain ⟨pressing, empty⟩ := of_decide_eq_true pressedEmpty
  obtain ⟨onBoard, _⟩ := Vector.getElem?_eq_some_iff.mp empty
  rw [hoverCell] at hovered
  split at hovered
  · rename_i onTurn
    obtain ⟨active, inGame⟩ := of_decide_eq_true onTurn
    exact ⟨pressing, hovered, inGame, active, onBoard, empty⟩
  · cases hovered

section Update

omit [Bincode] in
theorem handleInput_none (replica : Replica) (cursor : Option (ℤ × ℤ)) (pressed : Bool) :
    replica.handleInput none cursor pressed = none := by
  simp [Replica.handleInput]

variable {input : FrameInput} {before after : ClientApp}

theorem keeps_replica (system : UpdateSystem) :
    Schedule.Keeps (runSystem input) (fun app => app.model.replica) system := by
  intro before after ran
  by_cases pairing : system = .updatePair
  · subst pairing
    obtain rfl := Option.some.inj ran
    exact ReadModel.updatePair_replica before.model
  · exact congrArg ReadModel.replica ((runSystem_writes ran).model pairing)

theorem keeps_identity (system : UpdateSystem) :
    Schedule.Keeps (runSystem input) (fun app => (app.clientId, app.username)) system :=
  fun _ _ ran => (runSystem_writes ran).identity

theorem keeps_localPlayerId (system : UpdateSystem) (other : system ≠ .setLocalPlayerId) :
    Schedule.Keeps (runSystem input) ClientApp.localPlayerId system :=
  fun _ _ ran => (runSystem_writes ran).localId other

theorem keeps_model (system : UpdateSystem) (other : system ≠ .updatePair) :
    Schedule.Keeps (runSystem input) ClientApp.model system :=
  fun _ _ ran => (runSystem_writes ran).model other

/-- A system finds its own resources as they were before the frame. -/
theorem finds_replica {system : UpdateSystem}
    (turn : Schedule.Turn (runSystem input) input.order before after system) :
    turn.before.model.replica = before.model.replica :=
  Schedule.runAll_keeps (fun app : ClientApp => app.model.replica)
    (fun other _ => keeps_replica other) turn.arrives

theorem finds_identity {system : UpdateSystem}
    (turn : Schedule.Turn (runSystem input) input.order before after system) :
    (turn.before.clientId, turn.before.username) = (before.clientId, before.username) :=
  Schedule.runAll_keeps (fun app : ClientApp => (app.clientId, app.username))
    (fun other _ => keeps_identity other) turn.arrives

variable (ran : before.update input = some after)

include ran

theorem update_model : after.model = before.model.updatePair := by
  obtain ⟨turn⟩ := Schedule.exists_turn (input.mem_order .updatePair) ran
  have found := turn.view_before input.order_nodup keeps_model
  have left := turn.view_final input.order_nodup keeps_model
  have step := Option.some.inj turn.step
  rw [left, ← step, updatePair, found]

theorem update_localPlayerId :
    after.localPlayerId = some (before.localPlayerId.getD ⟨before.clientId⟩) := by
  obtain ⟨turn⟩ := Schedule.exists_turn (input.mem_order .setLocalPlayerId) ran
  have found := turn.view_before input.order_nodup keeps_localPlayerId
  have same := (Prod.mk.inj (finds_identity turn)).1
  rw [turn.view_final input.order_nodup keeps_localPlayerId]
  rcases setLocalPlayerId_spec turn.step with ⟨set, unchanged⟩ | ⟨unset, _, _, changed⟩
  · obtain ⟨id, known⟩ := Option.isSome_iff_exists.mp set
    rw [unchanged, ← found, known]
    rfl
  · rw [changed, ← found, unset, same]
    rfl

theorem finds_pair {system : UpdateSystem} (other : .updatePair ≠ system)
    (turn : Schedule.Turn (runSystem input) input.order before after system) :
    turn.before.model.pair = before.pairSeen input system := by
  rw [turn.view_other input.order_nodup other keeps_model, update_model ran, pairSeen]
  exact apply_ite ReadModel.pair _ _ _

theorem finds_localPlayerId {system : UpdateSystem} (other : .setLocalPlayerId ≠ system)
    (turn : Schedule.Turn (runSystem input) input.order before after system) :
    turn.before.localPlayerId = before.localSeen input system := by
  rw [turn.view_other input.order_nodup other keeps_localPlayerId, update_localPlayerId ran]
  rfl

theorem update_drawing :
    after.pieces = before.pieces ++ before.unrendered.filterMap
        (draw (before.pairSeen input .renderPieces) (before.localSeen input .renderPieces)) ∧
      after.unrendered = [] := by
  have keeps (other : UpdateSystem) (apart : other ≠ .renderPieces) :
      Schedule.Keeps (runSystem input) (fun app => (app.pieces, app.unrendered)) other :=
    fun _ _ stepped => (runSystem_writes stepped).drawing apart
  obtain ⟨turn⟩ := Schedule.exists_turn (input.mem_order .renderPieces) ran
  have found := turn.view_before input.order_nodup keeps
  have left := turn.view_final input.order_nodup keeps
  obtain ⟨pieces, unrendered⟩ := Prod.mk.inj found
  obtain ⟨finalPieces, finalUnrendered⟩ := Prod.mk.inj left
  have step := Option.some.inj turn.step
  rw [finalPieces, finalUnrendered, ← step, renderPieces, pieces, unrendered,
    finds_pair ran (by decide) turn, finds_localPlayerId ran (by decide) turn]
  exact ⟨rfl, rfl⟩

theorem update_hovered : after.hovered = hoverCell before.model.replica.state
    (before.localSeen input .renderHover) input.cursor := by
  have keeps (other : UpdateSystem) (apart : other ≠ .renderHover) :
      Schedule.Keeps (runSystem input) ClientApp.hovered other :=
    fun _ _ stepped => (runSystem_writes stepped).hovered apart
  obtain ⟨turn⟩ := Schedule.exists_turn (input.mem_order .renderHover) ran
  have step := Option.some.inj turn.step
  rw [turn.view_final input.order_nodup keeps, ← step, renderHover, finds_replica turn,
    finds_localPlayerId ran (by decide) turn]

theorem update_reporting :
    after.status = before.unreported.foldl
        (StatusText.report before.model.replica.state
          ((before.localSeen input .updateStatus).getD .vacant)
          (namesOf (before.pairSeen input .updateStatus))) before.status ∧
      after.unreported = [] := by
  have keeps (other : UpdateSystem) (apart : other ≠ .updateStatus) :
      Schedule.Keeps (runSystem input) (fun app => (app.status, app.unreported)) other :=
    fun _ _ stepped => (runSystem_writes stepped).reporting apart
  obtain ⟨turn⟩ := Schedule.exists_turn (input.mem_order .updateStatus) ran
  have found := turn.view_before input.order_nodup keeps
  have left := turn.view_final input.order_nodup keeps
  obtain ⟨status, unreported⟩ := Prod.mk.inj found
  obtain ⟨finalStatus, finalUnreported⟩ := Prod.mk.inj left
  have step := Option.some.inj turn.step
  rw [finalStatus, finalUnreported, ← step, updateStatus, status, unreported, finds_replica turn,
    finds_pair ran (by decide) turn, finds_localPlayerId ran (by decide) turn]
  exact ⟨rfl, rfl⟩

/-- The turn of `handle_input` appends the click that the frame asks for. -/
theorem turn_clicks (turn : Schedule.Turn (runSystem input) input.order before after .handleInput) :
    ∃ clicked, clicked.map Bincode.decodeCommand = (before.clickAsked input).map .ok ∧
      turn.after.sent = turn.before.sent ++ clicked := by
  obtain ⟨clicked, decoded, changed⟩ := handleInput_spec turn.step
  rw [finds_replica turn, finds_localPlayerId ran (by decide) turn] at decoded
  exact ⟨clicked, decoded, by rw [changed]⟩

omit ran in
/-- The turn of `set_local_player_id` appends the join that the frame asks for. -/
theorem turn_joins
    (turn : Schedule.Turn (runSystem input) input.order before after .setLocalPlayerId) :
    ∃ joined, joined.map Bincode.decodeCommand = before.joinAsked.map .ok ∧
      turn.after.sent = turn.before.sent ++ joined := by
  have found := turn.view_before input.order_nodup keeps_localPlayerId
  have identity := finds_identity turn
  obtain ⟨clientId, username⟩ := Prod.mk.inj identity
  rcases setLocalPlayerId_spec turn.step with ⟨set, unchanged⟩ | ⟨unset, bytes, decoded, changed⟩
  · rw [found] at set
    refine ⟨[], ?_, by rw [unchanged, List.append_nil]⟩
    rw [joinAsked, if_neg (by simp [Option.isSome_iff_ne_none.mp set])]
    rfl
  · rw [found] at unset
    refine ⟨[bytes], ?_, by rw [changed]⟩
    rw [joinAsked, if_pos (by simp [unset]), List.map_singleton, decoded, clientId, username]
    rfl

/-- Whichever of the two comes first, the join a frame sends stands in front of its click. -/
theorem update_sent : ∃ messages,
    messages.map Bincode.decodeCommand =
        (before.joinAsked ++ before.clickAsked input).map .ok ∧
      after.sent = before.sent ++ messages := by
  obtain ⟨click⟩ := Schedule.exists_turn (input.mem_order .handleInput) ran
  obtain ⟨join⟩ := Schedule.exists_turn (input.mem_order .setLocalPlayerId) ran
  obtain ⟨clicked, decodedClick, clickSent⟩ := turn_clicks ran click
  obtain ⟨joined, decodedJoin, joinSent⟩ := turn_joins join
  have keeps (other : UpdateSystem) (noJoin : other ≠ .setLocalPlayerId)
      (noClick : other ≠ .handleInput) : Schedule.Keeps (runSystem input) ClientApp.sent other :=
    fun _ _ stepped => (runSystem_writes stepped).sent noJoin noClick
  by_cases joinFirst : input.Before .setLocalPlayerId .handleInput
  · obtain ⟨first, second, third⟩ := join.view_pair input.order_nodup click joinFirst keeps
    refine ⟨joined ++ clicked, by simp [decodedJoin, decodedClick], ?_⟩
    rw [third, clickSent, second, joinSent, first, List.append_assoc]
  · have apart : input.order.idxOf .handleInput ≠ input.order.idxOf .setLocalPlayerId := by
      rw [ne_eq, List.idxOf_inj (input.mem_order _)]
      decide
    have clickFirst : input.Before .handleInput .setLocalPlayerId := by
      rw [FrameInput.Before] at joinFirst ⊢
      omega
    obtain ⟨first, second, third⟩ := click.view_pair input.order_nodup join clickFirst
      fun other noClick noJoin => keeps other noJoin noClick
    -- Without a local id there is no click, and with one there is no join.
    have oneIsEmpty : joined = [] ∨ clicked = [] := by
      cases known : before.localPlayerId with
      | none =>
          have unset : before.localSeen input .handleInput = none := by
            rw [localSeen, if_neg joinFirst, known]
          rw [clickAsked, unset, handleInput_none] at decodedClick
          exact .inr (List.map_eq_nil_iff.mp decodedClick)
      | some id =>
          rw [joinAsked, known] at decodedJoin
          exact .inl (List.map_eq_nil_iff.mp decodedJoin)
    refine ⟨joined ++ clicked, by simp [decodedJoin, decodedClick], ?_⟩
    rw [third, joinSent, second, clickSent, first]
    rcases oneIsEmpty with rfl | rfl <;> simp

theorem update_spec : Updated input before after where
  identity := Schedule.runAll_keeps (fun app : ClientApp => (app.clientId, app.username))
    (fun other _ => keeps_identity other) ran
  localPlayerId := update_localPlayerId ran
  model := update_model ran
  pieces := (update_drawing ran).1
  unrendered := (update_drawing ran).2
  hovered := update_hovered ran
  status := (update_reporting ran).1
  unreported := (update_reporting ran).2
  sent := update_sent ran

end Update

/-! ## Runs -/

/-- The events that messages decode to. -/
def heardEvents (messages : List Bytes) : List GameEvent :=
  messages.filterMap fun raw => (Bincode.decodeEvent raw).toOption

/-- Everything that has arrived in some frames. -/
def arrivals (inputs : List FrameInput) : List GameEvent :=
  heardEvents (inputs.flatMap FrameInput.arrived)

@[simp]
theorem heardEvents_append (left right : List Bytes) :
    heardEvents (left ++ right) = heardEvents left ++ heardEvents right :=
  List.filterMap_append

theorem heardEvents_of_decoded {messages : List Bytes} {events : List GameEvent}
    (decoded : messages.map Bincode.decodeEvent = events.map .ok) :
    heardEvents messages = events := by
  have mapped := congrArg (List.filterMap Except.toOption) decoded
  rw [List.filterMap_map, List.filterMap_map] at mapped
  exact mapped.trans (List.filterMap_some)

theorem arrivals_append_singleton (inputs : List FrameInput) (input : FrameInput) :
    arrivals (inputs ++ [input]) = arrivals inputs ++ heardEvents input.arrived := by
  simp [arrivals]

/-- A replica folds the events that messages decode to. -/
theorem receive_heardEvents (replica : Replica) (messages : List Bytes) :
    replica.receiveServerEvents messages =
      ⟨GameDecider.decider.replay replica.state (heardEvents messages),
        replica.received ++ heardEvents messages⟩ := by
  induction messages generalizing replica with
  | nil => simp [Replica.receiveServerEvents, heardEvents]
  | cons raw messages induction =>
      have later := induction (replica.receive raw)
      rw [Replica.receiveServerEvents] at later ⊢
      rw [List.foldl_cons, later, Replica.receive]
      cases decoded : Bincode.decodeEvent raw with
      | ok event => simp [heardEvents, decoded, Except.toOption]
      | error text => simp [heardEvents, decoded, Except.toOption]

/-- Draining messages updates the replica and leaves the events to be read. -/
theorem receiveServerEvents_eq (app : ClientApp) (messages : List Bytes) :
    app.receiveServerEvents messages = { app with
      model := { app.model with replica := app.model.replica.receiveServerEvents messages }
      unrendered := app.unrendered ++ heardEvents messages
      unreported := app.unreported ++ heardEvents messages } := by
  induction messages generalizing app with
  | nil => simp [receiveServerEvents, Replica.receiveServerEvents, heardEvents]
  | cons raw messages induction =>
      have later := induction (app.receive raw)
      have received : app.model.replica.receiveServerEvents (raw :: messages) =
          (app.model.replica.receive raw).receiveServerEvents messages := rfl
      rw [receiveServerEvents] at later ⊢
      rw [List.foldl_cons, later, received, receive]
      cases decoded : Bincode.decodeEvent raw with
      | ok event => simp [heardEvents, decoded, Except.toOption]
      | error text => simp [heardEvents, decoded, Except.toOption, Replica.receive]

/-- A frame is a run of the update systems and then the arrival of messages. -/
theorem frame_eq_some {app after : ClientApp} {input : FrameInput} :
    app.frame input = some after ↔
      ∃ middle, app.update input = some middle ∧
        after = middle.receiveServerEvents input.arrived := by
  rw [frame, Option.map_eq_some_iff]
  simp only [eq_comm]

structure Underway (clientId : UInt64) (username : String) (inputs : List FrameInput)
    (app : ClientApp) : Prop where
  identity : (app.clientId, app.username) = (clientId, username)
  localPlayerId : app.localPlayerId = if inputs = [] then none else some ⟨clientId⟩
  replica : app.model.replica = ⟨GameDecider.hydrate (arrivals inputs), arrivals inputs⟩

theorem run_underway {clientId : UInt64} {username : String} {inputs : List FrameInput}
    {app : ClientApp} (ran : (start clientId username).run inputs = some app) :
    Underway clientId username inputs app := by
  induction inputs using List.reverseRecOn generalizing app with
  | nil =>
      obtain rfl := Option.some.inj ran
      exact ⟨rfl, rfl, rfl⟩
  | append_singleton inputs input induction =>
      obtain ⟨before, early, last⟩ := Schedule.runAll_append_singleton_eq_some.mp ran
      have underway := induction early
      obtain ⟨middle, updated, rfl⟩ := frame_eq_some.mp last
      have spec := update_spec updated
      obtain ⟨clientId_eq, username_eq⟩ := Prod.mk.inj underway.identity
      rw [receiveServerEvents_eq]
      constructor
      · exact spec.identity.trans underway.identity
      · rw [if_neg (by simp)]
        refine spec.localPlayerId.trans ?_
        rw [underway.localPlayerId, clientId_eq]
        split <;> rfl
      · have kept : middle.model.replica = before.model.replica := by
          rw [spec.model, ReadModel.updatePair_replica]
        rw [kept, underway.replica, receive_heardEvents, arrivals_append_singleton]
        exact congrArg (Replica.mk · _) (GameDecider.decider.hydrate_append _ _).symm

section Underway

variable {clientId : UInt64} {username : String} {inputs : List FrameInput} {app : ClientApp}

theorem Underway.localSeen_cases (underway : Underway clientId username inputs app)
    (input : FrameInput) (system : UpdateSystem) :
    app.localSeen input system = some ⟨clientId⟩ ∨
      inputs = [] ∧ app.localSeen input system = none := by
  have same := (Prod.mk.inj underway.identity).1
  rw [localSeen, underway.localPlayerId, same]
  by_cases first : inputs = []
  · rw [if_pos first]
    split_ifs
    · exact .inl rfl
    · exact .inr ⟨first, rfl⟩
  · rw [if_neg first]
    left
    split_ifs <;> rfl

/-- A program asks to join in its first frame only. -/
theorem Underway.joinAsked (underway : Underway clientId username inputs app) :
    app.joinAsked = if inputs = [] then [.joinGame ⟨clientId⟩ username] else [] := by
  obtain ⟨rfl, rfl⟩ := Prod.mk.inj underway.identity
  rw [ClientApp.joinAsked, underway.localPlayerId]
  by_cases first : inputs = [] <;> simp [first]

/-- A frame sends at most one click, a tile in the program's own name that its replica allows. -/
theorem Underway.clickAsked (underway : Underway clientId username inputs app)
    (input : FrameInput) :
    ∃ cells : List ℕ, app.clickAsked input = cells.map (.placeTile ⟨clientId⟩) ∧
      cells.length ≤ 1 ∧ (cells ≠ [] → inputs ≠ []) ∧
        ∀ cell ∈ cells, input.pressed ∧ cellUnder input.cursor = some cell ∧
          app.model.replica.Allows ⟨clientId⟩ cell := by
  rw [ClientApp.clickAsked]
  rcases underway.localSeen_cases input .handleInput with known | ⟨_, unset⟩
  · rw [known, handleInput_eq]
    cases clicked : clickedCell app.model.replica.state input.pressed
        (hoverCell app.model.replica.state (some ⟨clientId⟩) input.cursor) with
    | none => exact ⟨[], rfl, by simp, by simp, by simp⟩
    | some cell =>
        have allowed := clickedCell_allows clicked
        refine ⟨[cell], rfl, by simp, ?_, by simpa using allowed⟩
        rintro _ rfl
        have inGame := allowed.2.2.1
        rw [underway.replica] at inGame
        cases inGame
  · rw [unset, handleInput_none]
    exact ⟨[], rfl, by simp, by simp, by simp⟩

/-- In one of these frames the button goes down over the cell, where the events that have arrived by
then allow the tile. -/
def ClicksOn (clientId : UInt64) (inputs : List FrameInput) (seen : List GameEvent) (cell : ℕ) :
    Prop :=
  ∃ early input late, inputs = early ++ input :: late ∧ seen = arrivals early ∧
    input.pressed ∧ cellUnder input.cursor = some cell ∧
      Replica.Allows ⟨GameDecider.hydrate seen, seen⟩ ⟨clientId⟩ cell

theorem ClicksOn.mono {seen : List GameEvent} {cell : ℕ} {more : List FrameInput}
    (clicks : ClicksOn clientId inputs seen cell) (longer : inputs <+: more) :
    ClicksOn clientId more seen cell := by
  obtain ⟨early, input, late, rfl, clicked⟩ := clicks
  obtain ⟨rest, rfl⟩ := longer
  exact ⟨early, input, late ++ rest, by simp, clicked⟩

theorem ClicksOn.seen_prefix {seen : List GameEvent} {cell : ℕ}
    (clicks : ClicksOn clientId inputs seen cell) : seen <+: arrivals inputs := by
  obtain ⟨early, input, late, rfl, rfl, _⟩ := clicks
  rw [arrivals, arrivals, List.flatMap_append, heardEvents_append]
  exact List.prefix_append _ _

theorem ClicksOn.allows {seen : List GameEvent} {cell : ℕ}
    (clicks : ClicksOn clientId inputs seen cell) :
    Replica.Allows ⟨GameDecider.hydrate seen, seen⟩ ⟨clientId⟩ cell := by
  obtain ⟨_, _, _, _, _, _, _, allows⟩ := clicks
  exact allows

/-- What the player has clicked: at most one tile in every frame but the first. -/
structure Clicked (clientId : UInt64) (inputs : List FrameInput) (cells : List ℕ) : Prop where
  length_lt : cells.length < inputs.length
  clicks : ∀ cell ∈ cells, ∃ seen, ClicksOn clientId inputs seen cell

end Underway

/-- A client program speaks for its own player only: it asks once to join, under its own id and
name, and from then on sends nothing but tiles that its replica allowed. -/
theorem run_honest {clientId : UInt64} {username : String} {inputs : List FrameInput}
    {app : ClientApp} (ran : (start clientId username).run inputs = some app)
    (started : inputs ≠ []) :
    ∃ cells, app.sent.map Bincode.decodeCommand =
        (.joinGame ⟨clientId⟩ username :: cells.map (.placeTile ⟨clientId⟩)).map .ok ∧
      Clicked clientId inputs cells := by
  induction inputs using List.reverseRecOn generalizing app with
  | nil => exact (started rfl).elim
  | append_singleton inputs input induction =>
      obtain ⟨before, early, last⟩ := Schedule.runAll_append_singleton_eq_some.mp ran
      have underway := run_underway early
      obtain ⟨middle, updated, rfl⟩ := frame_eq_some.mp last
      have spec := update_spec updated
      obtain ⟨messages, decoded, sent⟩ := spec.sent
      obtain ⟨asked, asked_eq, atMostOne, later, allowed⟩ := underway.clickAsked input
      rw [underway.joinAsked, asked_eq] at decoded
      rw [receiveServerEvents_eq]
      by_cases first : inputs = []
      · subst first
        obtain rfl := Option.some.inj early
        obtain rfl : asked = [] := by
          by_contra clicked
          exact later clicked rfl
        refine ⟨[], ?_, by simp, by simp⟩
        rw [sent, List.map_append, decoded]
        rfl
      · obtain ⟨cells, decodedBefore, length_lt, clicksBefore⟩ := induction early first
        refine ⟨cells ++ asked, ?_, ?_, ?_⟩
        · rw [sent, List.map_append, decoded, decodedBefore, if_neg first]
          simp
        · rw [List.length_append, List.length_append, List.length_singleton]
          omega
        · intro cell member
          rcases List.mem_append.mp member with earlier | now
          · obtain ⟨seen, clicks⟩ := clicksBefore cell earlier
            exact ⟨seen, clicks.mono (List.prefix_append _ _)⟩
          · obtain ⟨pressed, under, allows⟩ := allowed cell now
            rw [underway.replica] at allows
            exact ⟨arrivals inputs, inputs, input, [], rfl, rfl, pressed, under, allows⟩

/-- In every frame of every run: the program sends its request to join in the first frame, and a
tile exactly when the button goes down over a highlighted cell that is empty. -/
theorem run_clicks_highlighted {clientId : UInt64} {username : String} {inputs : List FrameInput}
    {before after : ClientApp} {input : FrameInput}
    (ran : (start clientId username).run inputs = some before)
    (updated : before.update input = some after) :
    ∃ messages, after.sent = before.sent ++ messages ∧
      messages.map Bincode.decodeCommand =
        ((if inputs = [] then [GameCommand.joinGame ⟨clientId⟩ username] else []) ++
          (clickedCell before.model.replica.state input.pressed after.hovered).toList.map
            (GameCommand.placeTile ⟨clientId⟩)).map .ok := by
  have underway := run_underway ran
  have spec := update_spec updated
  obtain ⟨messages, decoded, sent⟩ := spec.sent
  refine ⟨messages, sent, ?_⟩
  rw [decoded, underway.joinAsked, ClientApp.clickAsked, spec.hovered]
  congr 2
  by_cases first : inputs = []
  · have idle : before.model.replica.state.stage ≠ .inGame := by
      subst first
      rw [underway.replica]
      simp [arrivals, heardEvents, GameDecider.hydrate, GameState.default]
    rw [hoverCell_of_not_inGame idle]
    rcases underway.localSeen_cases input .handleInput with known | ⟨_, unset⟩
    · rw [known, handleInput_eq, hoverCell_of_not_inGame idle]
      rfl
    · rw [unset, handleInput_none]
      rfl
  · have known (system : UpdateSystem) : before.localSeen input system = some ⟨clientId⟩ :=
      (underway.localSeen_cases input system).resolve_right fun unset => first unset.1
    rw [known, known, handleInput_eq, Option.toList_map]

end Systems

attribute [local instance] standardBincode

/-- A frame that runs the systems as listed. -/
private def listed (cursor : Option (ℤ × ℤ)) (pressed : Bool) (events : List GameEvent) :
    FrameInput where
  order := UpdateSystem.all
  everyOnce := .refl _
  cursor := cursor
  pressed := pressed
  arrived := events.filterMap fun event => (Bincode.encodeEvent event).toOption

private def untilStarted : List FrameInput :=
  [listed none false [],
    listed none false [.playerJoined ⟨1⟩ "Ann", .playerJoined ⟨2⟩ "Bob", .gameStarted ⟨1⟩]]

private def centreClick : FrameInput := listed (some (1, 1)) true []

/-- The centre is clicked in the first turn. -/
theorem run_clicks_highlighted_centre : ∃ before after,
    (start 1 "Ann").run untilStarted = some before ∧ before.update centreClick = some after ∧
      ∃ messages, after.sent = before.sent ++ messages ∧
        messages.map Bincode.decodeCommand =
          ((if untilStarted = [] then [GameCommand.joinGame ⟨1⟩ "Ann"] else []) ++
            (clickedCell before.model.replica.state centreClick.pressed after.hovered).toList.map
              (GameCommand.placeTile ⟨1⟩)).map .ok := by
  have runs : ((start 1 "Ann").run untilStarted).isSome := by decide +kernel
  obtain ⟨before, ran⟩ := Option.isSome_iff_exists.mp runs
  have updates : (((start 1 "Ann").run untilStarted).bind fun app =>
      app.update centreClick).isSome := by
    decide +kernel
  rw [ran, Option.bind_some] at updates
  obtain ⟨after, updated⟩ := Option.isSome_iff_exists.mp updates
  exact ⟨before, after, ran, updated, run_clicks_highlighted ran updated⟩

end ClientApp

end TicTacTussle
