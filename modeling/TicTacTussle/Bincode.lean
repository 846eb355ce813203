import TicTacTussle.State
import TicTacTussle.Wire

/-!
# Commands and events on the wire

Clients send commands and receive events as bincode messages.  `Bincode` is what the code relies on
of that crate; `standardBincode` is its standard configuration at the two message types: the index
of the variant followed by the fields in declaration order, integers of variable length.
-/

namespace TicTacTussle

open Wire

/-- The bincode codec of commands and events.  Encoding may fail; what it produces decodes back. -/
class Bincode where
  encodeCommand : GameCommand → Except String Bytes
  decodeCommand : Bytes → Except String GameCommand
  encodeEvent : GameEvent → Except String Bytes
  decodeEvent : Bytes → Except String GameEvent
  decodeCommand_encodeCommand : ∀ {command bytes},
    encodeCommand command = .ok bytes → decodeCommand bytes = .ok command
  decodeEvent_encodeEvent : ∀ {event bytes},
    encodeEvent event = .ok bytes → decodeEvent bytes = .ok event

namespace Bincode

private def putPlayerId (id : PlayerId) : Bytes := putVarint id.raw.toNat

private def playerId : Reader PlayerId := (fun raw => ⟨UInt64.ofNat raw⟩) <$> varint 8

private theorem reads_playerId (id : PlayerId) : Reads playerId (putPlayerId id) id := by
  have raw := (reads_varint id.raw.toNat_lt).map fun raw => (⟨UInt64.ofNat raw⟩ : PlayerId)
  rw [UInt64.ofNat_toNat] at raw
  exact raw

/-- A string whose length is not a `u64`, or an index that is not a `usize`, has no encoding. -/
def ifFits (value : ℕ) (bytes : Bytes) : Except String Bytes :=
  if value < 256 ^ 8 then .ok bytes else .error "not a 64-bit integer"

theorem ifFits_eq_ok {value : ℕ} {bytes result : Bytes}
    (encoded : ifFits value bytes = .ok result) :
    value < 256 ^ 8 ∧ bytes = result := by
  unfold ifFits at encoded
  split at encoded
  · rename_i fits
    exact ⟨fits, Except.ok.inj encoded⟩
  · cases encoded

private def tag (index : ℕ) : Bytes := putVarint index

/-- The index of a variant is a `u32`. -/
private def variant : Reader ℕ := varint 4

private theorem reads_tag {α : Type} {next : ℕ → Reader α} {index : ℕ} (small : index < 251)
    {bytes : Bytes} {value : α} (fields : Reads (next index) bytes value) :
    Reads (variant >>= next) (tag index ++ bytes) value :=
  (reads_varint_of_small 4 small).bind fields

/-- `encode_to_vec` of a command. -/
def putCommand : GameCommand → Except String Bytes
  | .joinGame id name =>
      ifFits name.toUTF8.data.size (tag 0 ++ (putPlayerId id ++ (putString name ++ [])))
  | .placeTile id cell => ifFits cell (tag 1 ++ (putPlayerId id ++ (putVarint cell ++ [])))
  | .leaveGame id => .ok (tag 2 ++ (putPlayerId id ++ []))

/-- The reader behind `decode_from_slice` of a command. -/
def command : Reader GameCommand := do
  match ← variant with
  | 0 => do
      let id ← playerId
      let name ← string
      return .joinGame id name
  | 1 => do
      let id ← playerId
      let cell ← varint 8
      return .placeTile id cell
  | 2 => do
      let id ← playerId
      return .leaveGame id
  | _ => throw "unexpected variant of GameCommand"

theorem reads_command {value : GameCommand} {bytes : Bytes}
    (encoded : putCommand value = .ok bytes) :
    Reads command bytes value := by
  cases value with
  | joinGame id name =>
      obtain ⟨fits, rfl⟩ := ifFits_eq_ok encoded
      exact reads_tag (by omega) ((reads_playerId id).bind ((reads_string fits).bind (.pure _)))
  | placeTile id cell =>
      obtain ⟨fits, rfl⟩ := ifFits_eq_ok encoded
      exact reads_tag (by omega) ((reads_playerId id).bind ((reads_varint fits).bind (.pure _)))
  | leaveGame id =>
      obtain rfl := Except.ok.inj encoded
      exact reads_tag (by omega) ((reads_playerId id).bind (.pure _))

/-- The encoding of a reason. -/
def putReason : EndGameReason → Bytes
  | .playerWon winner => tag 0 ++ (putPlayerId winner ++ [])
  | .draw => tag 1 ++ []
  | .playerLeft id => tag 2 ++ (putPlayerId id ++ [])

/-- The reader of a reason. -/
def reason : Reader EndGameReason := do
  match ← variant with
  | 0 => do
      let winner ← playerId
      return .playerWon winner
  | 1 => return .draw
  | 2 => do
      let id ← playerId
      return .playerLeft id
  | _ => throw "unexpected variant of EndGameReason"

theorem reads_reason (value : EndGameReason) : Reads reason (putReason value) value := by
  cases value with
  | playerWon winner => exact reads_tag (by omega) ((reads_playerId winner).bind (.pure _))
  | draw => exact reads_tag (by omega) (.pure _)
  | playerLeft id => exact reads_tag (by omega) ((reads_playerId id).bind (.pure _))

/-- `encode_to_vec` of an event. -/
def putEvent : GameEvent → Except String Bytes
  | .playerJoined id name =>
      ifFits name.toUTF8.data.size (tag 0 ++ (putPlayerId id ++ (putString name ++ [])))
  | .gameStarted id => .ok (tag 1 ++ (putPlayerId id ++ []))
  | .tilePlaced id cell => ifFits cell (tag 2 ++ (putPlayerId id ++ (putVarint cell ++ [])))
  | .playerLeft id => .ok (tag 3 ++ (putPlayerId id ++ []))
  | .gameEnded why => .ok (tag 4 ++ (putReason why ++ []))

/-- The reader behind `decode_from_slice` of an event. -/
def event : Reader GameEvent := do
  match ← variant with
  | 0 => do
      let id ← playerId
      let name ← string
      return .playerJoined id name
  | 1 => do
      let id ← playerId
      return .gameStarted id
  | 2 => do
      let id ← playerId
      let cell ← varint 8
      return .tilePlaced id cell
  | 3 => do
      let id ← playerId
      return .playerLeft id
  | 4 => do
      let why ← reason
      return .gameEnded why
  | _ => throw "unexpected variant of GameEvent"

theorem reads_event {value : GameEvent} {bytes : Bytes} (encoded : putEvent value = .ok bytes) :
    Reads event bytes value := by
  cases value with
  | playerJoined id name =>
      obtain ⟨fits, rfl⟩ := ifFits_eq_ok encoded
      exact reads_tag (by omega) ((reads_playerId id).bind ((reads_string fits).bind (.pure _)))
  | gameStarted id =>
      obtain rfl := Except.ok.inj encoded
      exact reads_tag (by omega) ((reads_playerId id).bind (.pure _))
  | tilePlaced id cell =>
      obtain ⟨fits, rfl⟩ := ifFits_eq_ok encoded
      exact reads_tag (by omega) ((reads_playerId id).bind ((reads_varint fits).bind (.pure _)))
  | playerLeft id =>
      obtain rfl := Except.ok.inj encoded
      exact reads_tag (by omega) ((reads_playerId id).bind (.pure _))
  | gameEnded why =>
      obtain rfl := Except.ok.inj encoded
      exact reads_tag (by omega) ((reads_reason why).bind (.pure _))

end Bincode

/-- The standard configuration of the crate. -/
abbrev standardBincode : Bincode where
  encodeCommand := Bincode.putCommand
  decodeCommand := Bincode.command.decode
  encodeEvent := Bincode.putEvent
  decodeEvent := Bincode.event.decode
  decodeCommand_encodeCommand encoded := (Bincode.reads_command encoded).decode
  decodeEvent_encodeEvent encoded := (Bincode.reads_event encoded).decode

end TicTacTussle
