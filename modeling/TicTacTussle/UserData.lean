import TicTacTussle.Utf8
import TicTacTussle.Wire

/-!
# The name in the user data

A client sends its player's name in the block of user data of its connection: a length, the bytes of
the name up to the capacity of the block, and zeros.  The server reads it back from a block that
anyone may have filled.
-/

namespace TicTacTussle

open Wire

def netcodeUserDataBytes : ℕ := 256

/-- `PROTOCOL_ID`, the same on both sides. -/
def protocolId : UInt64 := 0x546963546163

structure UserData where
  bytes : Bytes
  length_bytes : bytes.length = netcodeUserDataBytes

/-- A range of bytes; a range out of bounds panics. -/
def slice (bytes : Bytes) (start stop : ℕ) : Option Bytes :=
  if start ≤ stop ∧ stop ≤ bytes.length then some ((bytes.take stop).drop start) else none

namespace UserData

def zeros : UserData := ⟨List.replicate netcodeUserDataBytes 0, List.length_replicate⟩

/-- Overwrite a range of the block; a range out of bounds or of another length panics. -/
def copyFromSlice (ud : UserData) (start stop : ℕ) (source : Bytes) : Option UserData :=
  if fits : start ≤ stop ∧ stop ≤ netcodeUserDataBytes ∧ source.length = stop - start then
    some ⟨ud.bytes.take start ++ source ++ ud.bytes.drop stop, by
      have length := ud.length_bytes
      rw [List.length_append, List.length_append, List.length_take, List.length_drop]
      omega⟩
  else none

end UserData

def nameFromUserData (ud : UserData) : Option String := do
  let header ← slice ud.bytes 0 8
  let len := ofLittleEndian header
  let len := min len (netcodeUserDataBytes - 8)
  let name ← slice ud.bytes 8 (8 + len)
  return Utf8.fromUtf8Lossy name

/-- `ClientAuthentication::Unsecure`. -/
structure ClientAuthentication (Addr : Type) where
  clientId : UInt64
  protocolId : UInt64
  serverAddr : Addr
  userData : Option UserData

/-- What the client asks of its system: addresses, a socket, and the milliseconds since the
epoch. -/
structure ClientSystem (Addr Socket Error : Type) where
  parseAddr : String → Except Error Addr
  bindSocket : String → Except Error Socket
  sinceEpoch : Except Error ℕ

/-- The user data that `build_transport` fills. -/
def fillUserData (username : String) : Option UserData := do
  let nb := Utf8.asBytes username
  let len := min nb.length (netcodeUserDataBytes - 8)
  let ud ← UserData.zeros.copyFromSlice 0 8 (littleEndian 8 len)
  let name ← slice nb 0 len
  ud.copyFromSlice 8 (8 + len) name

/-- Build what the transport authenticates with; no value is a panic. -/
def buildTransport {Addr Socket Error : Type} (system : ClientSystem Addr Socket Error)
    (username serverAddr : String) : Except Error (Option (ClientAuthentication Addr)) := do
  let addr ← system.parseAddr serverAddr
  let _socket ← system.bindSocket "0.0.0.0:0"
  let now ← system.sinceEpoch
  return (fillUserData username).map fun ud =>
    { clientId := UInt64.ofNat now
      protocolId := protocolId
      serverAddr := addr
      userData := some ud }

theorem slice_eq_some {bytes : Bytes} {start stop : ℕ} (ordered : start ≤ stop)
    (within : stop ≤ bytes.length) :
    slice bytes start stop = some ((bytes.take stop).drop start) := if_pos ⟨ordered, within⟩

/-- The slices of the decoder are within bounds, whatever length the block announces. -/
theorem nameFromUserData_eq_some (ud : UserData) :
    nameFromUserData ud = some (Utf8.fromUtf8Lossy
      ((ud.bytes.drop 8).take
        (min (ofLittleEndian (ud.bytes.take 8)) (netcodeUserDataBytes - 8)))) := by
  have length : ud.bytes.length = 256 := ud.length_bytes
  have capacity : netcodeUserDataBytes - 8 = 248 := rfl
  rw [nameFromUserData, slice_eq_some (by omega) (by omega)]
  simp only [Option.bind_eq_bind, Option.bind_some, List.drop_zero]
  rw [slice_eq_some (by omega) (by omega), Option.bind_some, List.drop_take,
    Nat.add_sub_cancel_left]
  rfl

theorem UserData.copyFromSlice_eq_some {ud : UserData} {start stop : ℕ} {source : Bytes}
    (ordered : start ≤ stop) (within : stop ≤ netcodeUserDataBytes)
    (length : source.length = stop - start) :
    ∃ after, ud.copyFromSlice start stop source = some after ∧
      after.bytes = ud.bytes.take start ++ source ++ ud.bytes.drop stop :=
  ⟨_, dif_pos ⟨ordered, within, length⟩, rfl⟩

/-- How many bytes of a name the block carries. -/
def carried (username : String) : ℕ :=
  min (Utf8.asBytes username).length (netcodeUserDataBytes - 8)

/-- The client fills the block without a panic: the length, the bytes carried, and zeros. -/
theorem fillUserData_layout (username : String) :
    ∃ ud, fillUserData username = some ud ∧
      ud.bytes = littleEndian 8 (carried username) ++
        ((Utf8.asBytes username).take (carried username) ++
          List.replicate (netcodeUserDataBytes - 8 - carried username) 0) := by
  have capacity : netcodeUserDataBytes - 8 = 248 := rfl
  have fits : carried username ≤ 248 := Nat.min_le_right _ _
  have within : carried username ≤ (Utf8.asBytes username).length := Nat.min_le_left _ _
  obtain ⟨headed, writesHeader, headedBytes⟩ :=
    UserData.zeros.copyFromSlice_eq_some (Nat.zero_le 8) (by decide)
      (length_littleEndian 8 (carried username))
  have written : headed.bytes =
      littleEndian 8 (carried username) ++ List.replicate (netcodeUserDataBytes - 8) 0 := by
    rw [headedBytes, List.take_zero, List.nil_append, UserData.zeros, List.drop_replicate]
  obtain ⟨named, writesName, namedBytes⟩ :=
    headed.copyFromSlice_eq_some (Nat.le_add_right 8 (carried username))
      (show 8 + carried username ≤ 256 by omega)
      (show ((Utf8.asBytes username).take (carried username)).length = _ by
        rw [List.length_take, Nat.min_eq_left within, Nat.add_sub_cancel_left])
  refine ⟨named, ?_, ?_⟩
  · simp only [fillUserData, Option.bind_eq_bind]
    rw [← carried, writesHeader, Option.bind_some, slice_eq_some (Nat.zero_le _) within,
      List.drop_zero, Option.bind_some]
    exact writesName
  · have header := length_littleEndian 8 (carried username)
    rw [namedBytes, written, List.take_left' header, ← List.drop_drop, List.drop_left' header,
      List.drop_replicate, List.append_assoc]

/-- The server reads the bytes carried. -/
theorem nameFromUserData_of_fillUserData {username : String} {ud : UserData}
    (filled : fillUserData username = some ud) :
    nameFromUserData ud =
      some (Utf8.fromUtf8Lossy ((Utf8.asBytes username).take (netcodeUserDataBytes - 8))) := by
  have capacity : netcodeUserDataBytes - 8 = 248 := rfl
  have fits : carried username ≤ netcodeUserDataBytes - 8 := Nat.min_le_right _ _
  have header := length_littleEndian 8 (carried username)
  obtain ⟨same, filledAgain, layout⟩ := fillUserData_layout username
  rw [filled] at filledAgain
  rw [← Option.some.inj filledAgain] at layout
  have name : ((Utf8.asBytes username).take (carried username)).length = carried username := by
    rw [List.length_take, carried]
    omega
  rw [nameFromUserData_eq_some, layout, List.take_left' header, List.drop_left' header,
    ofLittleEndian_littleEndian (by omega), Nat.min_eq_left fits, List.take_left' name, carried,
    Nat.min_comm, ← List.take_eq_take_min]

def nameRead {Addr : Type} (built : Option (ClientAuthentication Addr)) : Option String :=
  built.bind fun authentication => authentication.userData.bind nameFromUserData

/-- The server reads a start of the name, and the whole of it where it fits the block. -/
def CarriesName {Addr : Type} (built : Option (ClientAuthentication Addr)) (username : String) :
    Prop :=
  ∃ name, nameRead built = some name ∧ name.toList <+: username.toList ∧
    ((Utf8.asBytes username).length ≤ netcodeUserDataBytes - 8 → name = username)

section Connection

variable {Addr Socket Error : Type} {system : ClientSystem Addr Socket Error}
  {username serverAddr : String} {built : Option (ClientAuthentication Addr)}

theorem nameRead_of_buildTransport
    (succeeds : buildTransport system username serverAddr = .ok built) :
    nameRead built =
      some (Utf8.fromUtf8Lossy ((Utf8.asBytes username).take (netcodeUserDataBytes - 8))) := by
  obtain ⟨ud, filled, -⟩ := fillUserData_layout username
  simp only [buildTransport, filled, bind, Except.bind, pure, Except.pure] at succeeds
  -- Each request of the system that fails leaves nothing built.
  split at succeeds
  · cases succeeds
  split at succeeds
  · cases succeeds
  split at succeeds
  · cases succeeds
  · rw [← Except.ok.inj succeeds]
    exact nameFromUserData_of_fillUserData filled

theorem carriesName_iff (succeeds : buildTransport system username serverAddr = .ok built) :
    CarriesName built username ↔
      Utf8.decodeLossy ((Utf8.encode username.toList).take (netcodeUserDataBytes - 8)) <+:
        username.toList := by
  rw [CarriesName, nameRead_of_buildTransport succeeds, Utf8.asBytes_eq_encode]
  constructor
  · rintro ⟨name, read, start, -⟩
    rw [← Option.some.inj read, Utf8.toList_fromUtf8Lossy] at start
    exact start
  · intro start
    refine ⟨_, rfl, ?_, ?_⟩
    · rw [Utf8.toList_fromUtf8Lossy]
      exact start
    · intro short
      rw [List.take_of_length_le short, ← Utf8.asBytes_eq_encode, Utf8.fromUtf8Lossy_asBytes]

/-- The decoder slices any block within bounds; it reads the name that a client has sent unless the
capacity of the block cuts a character other than the replacement character. -/
theorem nameFromUserData_carriesName_iff
    (succeeds : buildTransport system username serverAddr = .ok built) :
    (∀ ud, (nameFromUserData ud).isSome) ∧
      (CarriesName built username ↔
        ∀ char, Utf8.CutAt (netcodeUserDataBytes - 8) username.toList char →
          char = Utf8.replacement) := by
  constructor
  · intro ud
    rw [nameFromUserData_eq_some, Option.isSome_some]
  · rw [carriesName_iff succeeds, Utf8.decodeLossy_take_prefix_iff]

end Connection

/-- A system that resolves every address. -/
def localSystem : ClientSystem String Unit String where
  parseAddr := .ok
  bindSocket _ := .ok ()
  sinceEpoch := .ok 1700000000000

private theorem local_builds (username serverAddr : String) :
    ∃ built, buildTransport localSystem username serverAddr = .ok built := ⟨_, rfl⟩

theorem nameFromUserData_carriesName_short :
    ∃ built, buildTransport localSystem "Éléonore" "127.0.0.1:5000" = .ok built ∧
      CarriesName built "Éléonore" := by
  have short : (Utf8.encode "Éléonore".toList).length = 10 := by decide +kernel
  obtain ⟨built, succeeds⟩ := local_builds "Éléonore" "127.0.0.1:5000"
  refine ⟨built, succeeds, (nameFromUserData_carriesName_iff succeeds).2.mpr ?_⟩
  intro char cut
  have inside := cut.lt_length
  rw [short] at inside
  exact absurd inside (by decide)

/-- A name whose 248th byte is the first of a two-byte character. -/
def cutName : String := String.ofList (List.replicate 247 'a' ++ ['é'])

private theorem cutName_cut : Utf8.CutAt (netcodeUserDataBytes - 8) cutName.toList 'é' := by
  have before : (Utf8.encode (List.replicate 247 'a')).length = 247 := by decide +kernel
  have width : Char.utf8Size 'é' = 2 := by decide
  refine ⟨List.replicate 247 'a', [], String.toList_ofList, ?_, ?_⟩
  · rw [before]
    decide
  · rw [before, width]
    decide

/-- The server reads a replacement character that the name does not have. -/
theorem cutName_not_carried :
    ∃ built, buildTransport localSystem cutName "127.0.0.1:5000" = .ok built ∧
      ¬ CarriesName built cutName := by
  obtain ⟨built, succeeds⟩ := local_builds cutName "127.0.0.1:5000"
  refine ⟨built, succeeds, ?_⟩
  rw [carriesName_iff succeeds, Utf8.decodeLossy_take_prefix_iff]
  intro clean
  exact absurd (clean 'é' cutName_cut) (by decide)

end TicTacTussle
