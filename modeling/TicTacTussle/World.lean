import TicTacTussle.Attendance
import TicTacTussle.ClientApp
import TicTacTussle.Staleness
import TicTacTussle.UserData

/-!
# Client programs against the server

The whole system: one server, any number of programs, and a reliable connection between each program
and the server.  Programs come up, run frames, connect once and may be gone at any time; the server
ticks.  What a program has sent reaches the server in order and with any delay, and so does what the
server has sent to a program.  The source takes the client id of a program from the clock in
milliseconds; here no two programs come up under the same id.
-/

namespace TicTacTussle

open Wire GameDecider

/-- The connection of a program. -/
inductive Link where
  | offline
  | online
  | gone
  deriving DecidableEq, Repr

/-- A program and its connection. -/
structure Peer where
  username : String
  app : ClientApp
  /-- The frames so far. -/
  inputs : List FrameInput
  link : Link
  /-- How many of its messages have reached the server. -/
  uploaded : ℕ
  /-- What the server has sent to it. -/
  line : List Bytes

/-- The name that the server reads from the user data of a program. -/
def connectionName (username : String) : Option String :=
  (fillUserData username).bind nameFromUserData

namespace Peer

/-- A program that has just come up. -/
def launched (clientId : UInt64) (username : String) : Peer :=
  ⟨username, .start clientId username, [], .offline, 0, []⟩

/-- What has arrived at the program. -/
def arrived (peer : Peer) : List Bytes := peer.inputs.flatMap FrameInput.arrived

/-- Run a frame; what arrives is the next part of what the server has sent. -/
def frame [Bincode] (peer : Peer) (input : FrameInput) : Option Peer := do
  guard (peer.arrived ++ input.arrived <+: peer.line)
  let app ← peer.app.frame input
  some { peer with app, inputs := peer.inputs ++ [input] }

/-- What the network reports of the program. -/
def report (peer : Peer) : NetworkChange → Option Peer
  | .connect _ name => do
      guard (peer.link = .offline ∧ connectionName peer.username = some name)
      some { peer with link := .online }
  | .disconnect _ => do
      guard (peer.link = .online)
      some { peer with link := .gone }
  | .message _ bytes => do
      guard (peer.link = .online ∧ peer.app.sent[peer.uploaded]? = some bytes)
      some { peer with uploaded := peer.uploaded + 1 }

/-- Take over what a server has sent. -/
def hear (peer : Peer) (sent : List Bytes) : Peer :=
  if peer.link = .online then { peer with line := sent } else peer

end Peer

/-- The server with the programs. -/
structure World (E P : Type) where
  loop : GameLoop E P
  /-- The ticks so far. -/
  ticks : List TickInput
  peers : UInt64 → Option Peer

/-- What can happen; a program comes up under an id that no other has. -/
inductive Action where
  | launch (clientId : UInt64) (username : String)
  | frame (clientId : UInt64) (input : FrameInput)
  | tick (input : TickInput)

/-- A client comes or goes. -/
def NetworkChange.moves : NetworkChange → Bool
  | .connect _ _ | .disconnect _ => true
  | .message _ _ => false

/-- The record carries a command that the server itself has published. -/
def BrokerRecord.own : BrokerRecord → Bool
  | .again _ => true
  | .injected _ => false

namespace World

variable {E P : Type}

def start (gameId : GameId) (publisher : P) : World E P :=
  ⟨.start gameId publisher, [], fun _ => none⟩

/-- Let the network report a change of a program that has come up. -/
def reportTo (peers : UInt64 → Option Peer) (change : NetworkChange) :
    Option (UInt64 → Option Peer) := do
  let peer ← peers change.clientId
  let after ← peer.report change
  some (Function.update peers change.clientId (some after))

variable [Anyhow E] [EventPublisher E P] [Bincode]

/-- One step of the system; what cannot happen has no value. -/
def step (fresh clock : ℕ → Stamp) (world : World E P) : Action → Option (World E P)
  | .launch clientId username => do
      guard (world.peers clientId).isNone
      some { world with
        peers := Function.update world.peers clientId (some (.launched clientId username)) }
  | .frame clientId input => do
      let peer ← world.peers clientId
      let after ← peer.frame input
      some { world with peers := Function.update world.peers clientId (some after) }
  | .tick input => do
      guard (input.deliveries.all fun delivery => delivery.record.own)
      let peers ← input.changes.foldlM reportTo world.peers
      let loop := world.loop.tick fresh clock input
      some {
        loop
        ticks := world.ticks ++ [input]
        peers := fun clientId => (peers clientId).map fun peer =>
          peer.hear (loop.server.sent clientId) }

def run (fresh clock : ℕ → Stamp) (gameId : GameId) (publisher : P) (actions : List Action) :
    Option (World E P) :=
  Schedule.runAll (step fresh clock) (start gameId publisher) actions

end World

namespace Peer

/-- The program has asked for the tile, after a click where these events had arrived. -/
structure Asked [Bincode] (peer : Peer) (playerId : PlayerId) (cell : ℕ) (seen : List GameEvent) :
    Prop where
  sent : ∃ bytes ∈ peer.app.sent, Bincode.decodeCommand bytes = .ok (.placeTile playerId cell)
  clicks : ClientApp.ClicksOn playerId.raw peer.inputs seen cell

/-- What a change says about its program is so. -/
def Explains (peer : Peer) : NetworkChange → Prop
  | .connect _ name => connectionName peer.username = some name
  | .disconnect _ => peer.link = .gone
  | .message _ bytes => bytes ∈ peer.app.sent

/-- The program at an earlier and at a later time. -/
structure Ages (earlier later : Peer) : Prop where
  username : later.username = earlier.username
  inputs : earlier.inputs <+: later.inputs
  sent : earlier.app.sent <+: later.app.sent
  gone : earlier.link = .gone → later.link = .gone

theorem Ages.refl (peer : Peer) : peer.Ages peer :=
  ⟨rfl, List.prefix_refl _, List.prefix_refl _, id⟩

theorem Ages.trans {first second third : Peer} (early : first.Ages second)
    (late : second.Ages third) : first.Ages third :=
  ⟨late.username.trans early.username, early.inputs.trans late.inputs, early.sent.trans late.sent,
    fun gone => late.gone (early.gone gone)⟩

theorem Explains.later {earlier later : Peer} {change : NetworkChange}
    (explains : earlier.Explains change) (ages : earlier.Ages later) : later.Explains change := by
  cases change with
  | connect clientId name => exact (congrArg connectionName ages.username).trans explains
  | disconnect clientId => exact ages.gone explains
  | message clientId bytes => exact ages.sent.subset explains

/-- The program is what its frames made of it, with messages that the server has sent. -/
structure Sound [Bincode] (clientId : UInt64) (peer : Peer) : Prop where
  ran : (ClientApp.start clientId peer.username).run peer.inputs = some peer.app
  received : peer.arrived <+: peer.line

theorem Asked.later [Bincode] {earlier later : Peer} {playerId : PlayerId} {cell : ℕ}
    {seen : List GameEvent} (asked : earlier.Asked playerId cell seen)
    (ages : earlier.Ages later) : later.Asked playerId cell seen := by
  obtain ⟨bytes, sent, decoded⟩ := asked.sent
  exact ⟨⟨bytes, ages.sent.subset sent, decoded⟩, asked.clicks.mono ages.inputs⟩

theorem Asked.seen_prefix [Bincode] {clientId : UInt64} {peer : Peer} {playerId : PlayerId}
    {cell : ℕ} {seen : List GameEvent} (asked : peer.Asked playerId cell seen)
    (sound : peer.Sound clientId) : seen <+: peer.app.model.replica.received := by
  rw [(ClientApp.run_underway sound.ran).replica]
  exact asked.clicks.seen_prefix

theorem ages_of_connection {peer : Peer} {link : Link} {uploaded : ℕ}
    (stays : peer.link = .gone → link = .gone) : peer.Ages { peer with link, uploaded } :=
  ⟨rfl, List.prefix_refl _, List.prefix_refl _, stays⟩

/-- A report concerns the connection of the program only. -/
theorem report_spec {peer after : Peer} {change : NetworkChange}
    (reported : peer.report change = some after) :
    (∃ link uploaded, after = { peer with link, uploaded }) ∧ peer.Ages after ∧
      after.Explains change := by
  cases change with
  | connect clientId name =>
      simp only [report, bind, Option.bind_eq_some_iff, Option.guard_eq_some', exists_const,
        Option.some.injEq] at reported
      obtain ⟨⟨offline, named⟩, rfl⟩ := reported
      refine ⟨⟨_, _, rfl⟩, ages_of_connection fun gone => ?_, named⟩
      cases offline.symm.trans gone
  | disconnect clientId =>
      simp only [report, bind, Option.bind_eq_some_iff, Option.guard_eq_some', exists_const,
        Option.some.injEq] at reported
      obtain ⟨online, rfl⟩ := reported
      exact ⟨⟨_, _, rfl⟩, ages_of_connection fun _ => rfl, rfl⟩
  | message clientId bytes =>
      simp only [report, bind, Option.bind_eq_some_iff, Option.guard_eq_some', exists_const,
        Option.some.injEq] at reported
      obtain ⟨⟨online, waiting⟩, rfl⟩ := reported
      exact ⟨⟨_, _, rfl⟩, ages_of_connection id, List.mem_of_getElem? waiting⟩

/-- A frame runs the program on. -/
theorem frame_spec [Bincode] {clientId : UInt64} {peer after : Peer} {input : FrameInput}
    (sound : peer.Sound clientId) (ran : peer.frame input = some after) :
    after.Sound clientId ∧ peer.Ages after ∧ after.link = peer.link ∧ after.line = peer.line := by
  simp only [frame, bind, Option.bind_eq_some_iff, Option.guard_eq_some', exists_const,
    Option.some.injEq] at ran
  obtain ⟨arrives, app, framed, rfl⟩ := ran
  refine ⟨⟨?_, ?_⟩, ⟨rfl, List.prefix_append _ _, ?_, id⟩, rfl, rfl⟩
  · exact Schedule.runAll_append_singleton_eq_some.mpr ⟨peer.app, sound.ran, framed⟩
  · rw [arrived, List.flatMap_append, List.flatMap_singleton]
    exact arrives
  · obtain ⟨middle, updated, rfl⟩ := ClientApp.frame_eq_some.mp framed
    obtain ⟨messages, _, sent⟩ := (ClientApp.update_spec updated).sent
    rw [ClientApp.receiveServerEvents_eq, sent]
    exact List.prefix_append _ _

end Peer

namespace World

/-- The programs at an earlier and at a later time. -/
def Age (earlier later : UInt64 → Option Peer) : Prop :=
  ∀ clientId peer, earlier clientId = some peer →
    ∃ after, later clientId = some after ∧ peer.Ages after

theorem Age.trans {first second third : UInt64 → Option Peer} (early : Age first second)
    (late : Age second third) : Age first third := by
  intro clientId peer found
  obtain ⟨middle, foundMiddle, older⟩ := early clientId peer found
  obtain ⟨after, foundAfter, oldest⟩ := late clientId middle foundMiddle
  exact ⟨after, foundAfter, older.trans oldest⟩

theorem Age.update {peers : UInt64 → Option Peer} {clientId : UInt64} {after : Peer}
    (ages : ∀ peer, peers clientId = some peer → peer.Ages after) :
    Age peers (Function.update peers clientId (some after)) := by
  intro other peer found
  by_cases same : other = clientId
  · subst same
    exact ⟨after, Function.update_self _ _ _, ages peer found⟩
  · exact ⟨peer, by rw [Function.update_of_ne same, found], .refl peer⟩

/-- Every change is explained by the program it is about. -/
def Explained (peers : UInt64 → Option Peer) (changes : List NetworkChange) : Prop :=
  ∀ change ∈ changes, ∃ peer, peers change.clientId = some peer ∧ peer.Explains change

theorem Explained.later {earlier later : UInt64 → Option Peer} {changes : List NetworkChange}
    (explained : Explained earlier changes) (age : Age earlier later) :
    Explained later changes := by
  intro change member
  obtain ⟨peer, found, explains⟩ := explained change member
  obtain ⟨after, foundAfter, ages⟩ := age _ peer found
  exact ⟨after, foundAfter, explains.later ages⟩

/-- A client is connected exactly when its program is online, and the server has sent it what stands
on the program's line. -/
structure Linked (server : RenetServer) (peers : UInt64 → Option Peer) : Prop where
  connected : ∀ clientId, server.IsConnected clientId ↔
    ∃ peer, peers clientId = some peer ∧ peer.link = .online
  fresh : ∀ clientId peer, peers clientId = some peer → peer.link = .offline → peer.line = []
  current : ∀ clientId peer, peers clientId = some peer → peer.link = .online →
    peer.line = server.sent clientId

/-- Every program is what its frames made of it. -/
def AllSound [Bincode] (peers : UInt64 → Option Peer) : Prop :=
  ∀ clientId peer, peers clientId = some peer → peer.Sound clientId

theorem reportTo_eq_some {peers after : UInt64 → Option Peer} {change : NetworkChange} :
    reportTo peers change = some after ↔
      ∃ peer next, peers change.clientId = some peer ∧ peer.report change = some next ∧
        after = Function.update peers change.clientId (some next) := by
  simp only [reportTo, bind, Option.bind_eq_some_iff, Option.some.injEq]
  constructor
  · rintro ⟨peer, found, next, reported, rfl⟩
    exact ⟨peer, next, found, reported, rfl⟩
  · rintro ⟨peer, next, found, reported, rfl⟩
    exact ⟨peer, found, next, reported, rfl⟩

section Reports

variable {E P : Type}

theorem Linked.update {server after : RenetServer} {peers : UInt64 → Option Peer}
    (linked : Linked server peers) {clientId : UInt64} {next : Peer}
    (others : ∀ other, other ≠ clientId → after.connections other = server.connections other)
    (connected : after.IsConnected clientId ↔ next.link = .online)
    (fresh : next.link = .offline → next.line = [])
    (current : next.link = .online → next.line = after.sent clientId) :
    Linked after (Function.update peers clientId (some next)) := by
  refine ⟨fun other => ?_, fun other peer found offline => ?_, fun other peer found online => ?_⟩
  · by_cases same : other = clientId
    · subst same
      simpa using connected
    · rw [RenetServer.IsConnected, others other same, Function.update_of_ne same]
      exact linked.connected other
  · by_cases same : other = clientId
    · subst same
      rw [Function.update_self] at found
      obtain rfl := Option.some.inj found
      exact fresh offline
    · rw [Function.update_of_ne same] at found
      exact linked.fresh other peer found offline
  · by_cases same : other = clientId
    · subst same
      rw [Function.update_self] at found
      obtain rfl := Option.some.inj found
      exact current online
    · rw [Function.update_of_ne same] at found
      rw [RenetServer.sent, others other same]
      exact linked.current other peer found online

/-- A report and what the server makes of it keep connections and links in step. -/
theorem Linked.report {loop : GameLoop E P} {peers after : UInt64 → Option Peer}
    {change : NetworkChange} (linked : Linked loop.server peers)
    (reported : reportTo peers change = some after) :
    Linked (loop.applyChange change).server after := by
  obtain ⟨peer, next, found, reports, rfl⟩ := reportTo_eq_some.mp reported
  have known : loop.server.IsConnected change.clientId ↔ peer.link = .online := by
    rw [linked.connected change.clientId, found]
    simp
  cases change with
  | connect clientId name =>
      simp only [Peer.report, bind, Option.bind_eq_some_iff, Option.guard_eq_some', exists_const,
        Option.some.injEq] at reports
      obtain ⟨⟨offline, _⟩, rfl⟩ := reports
      have unknown : ¬ loop.server.IsConnected clientId := fun connected => by
        cases offline.symm.trans (known.mp connected)
      have joined : (loop.server.addConnection clientId).connections clientId = some .new :=
        RenetServer.connections_addConnection_self unknown
      have there : (loop.server.addConnection clientId).IsConnected clientId := by
        rw [RenetServer.IsConnected, joined]
        rfl
      have nothing : (loop.server.addConnection clientId).sent clientId = [] := by
        rw [RenetServer.sent, joined]
        rfl
      exact linked.update (fun other apart => RenetServer.connections_addConnection_of_ne apart)
        (iff_of_true there rfl) (by simp)
        fun _ => (linked.fresh clientId peer found offline).trans nothing.symm
  | disconnect clientId =>
      simp only [Peer.report, bind, Option.bind_eq_some_iff, Option.guard_eq_some', exists_const,
        Option.some.injEq] at reports
      obtain ⟨online, rfl⟩ := reports
      have left : ¬ (loop.server.removeConnection clientId).IsConnected clientId := by
        rw [RenetServer.IsConnected, RenetServer.connections_removeConnection_self]
        simp
      exact linked.update (fun other apart => RenetServer.connections_removeConnection_of_ne apart)
        (iff_of_false left (by simp)) (by simp) (by simp)
  | message clientId bytes =>
      simp only [Peer.report, bind, Option.bind_eq_some_iff, Option.guard_eq_some', exists_const,
        Option.some.injEq] at reports
      obtain ⟨⟨online, _⟩, rfl⟩ := reports
      have same : (loop.server.processMessage clientId bytes).sent clientId =
          loop.server.sent clientId := by
        cases there : loop.server.connections clientId <;>
          simp [RenetServer.sent, RenetServer.processMessage, there, Connection.deliver]
      exact linked.update (fun other apart => Function.update_of_ne apart _ _)
        ((RenetServer.isConnected_processMessage _ _ _ _).trans known)
        (fun offline => linked.fresh clientId peer found offline)
        fun _ => (linked.current clientId peer found online).trans same.symm

/-- What the reports of a tick do to the programs, next to what the server makes of them. -/
structure Reported (loop : GameLoop E P) (peers after : UInt64 → Option Peer)
    (changes : List NetworkChange) : Prop where
  age : Age peers after
  explained : Explained after changes
  linked : Linked (loop.update changes).server after
  /-- Reports concern the connections only. -/
  kept : ∀ clientId peer, after clientId = some peer →
    ∃ earlier link uploaded, peers clientId = some earlier ∧ peer = { earlier with link, uploaded }

theorem reported_of_foldlM {loop : GameLoop E P} {peers after : UInt64 → Option Peer}
    {changes : List NetworkChange} (linked : Linked loop.server peers)
    (reported : changes.foldlM reportTo peers = some after) :
    Reported loop peers after changes := by
  induction changes generalizing loop peers with
  | nil =>
      obtain rfl := Option.some.inj reported
      exact ⟨fun _ peer found => ⟨peer, found, .refl peer⟩, by simp [Explained], linked,
        fun _ peer found => ⟨peer, peer.link, peer.uploaded, found, rfl⟩⟩
  | cons change changes induction =>
      rw [List.foldlM_cons] at reported
      obtain ⟨middle, first, later⟩ := Option.bind_eq_some_iff.mp reported
      have linkedMiddle := linked.report first
      obtain ⟨peer, next, found, reports, rfl⟩ := reportTo_eq_some.mp first
      obtain ⟨⟨link, uploaded, next_eq⟩, ages, explains⟩ := Peer.report_spec reports
      have ageFirst : Age peers (Function.update peers change.clientId (some next)) := by
        apply Age.update
        intro other same
        obtain rfl := Option.some.inj (found.symm.trans same)
        exact ages
      have rest := induction linkedMiddle later
      refine ⟨ageFirst.trans rest.age, ?_, rest.linked, ?_⟩
      · intro other member
        rcases List.mem_cons.mp member with rfl | member
        · obtain ⟨last, foundLast, older⟩ := rest.age _ next (Function.update_self _ _ _)
          exact ⟨last, foundLast, explains.later older⟩
        · exact rest.explained other member
      · intro clientId last foundLast
        obtain ⟨earlier, lastLink, lastUploaded, foundEarlier, last_eq⟩ :=
          rest.kept clientId last foundLast
        by_cases here : clientId = change.clientId
        · rw [here, Function.update_self] at foundEarlier
          obtain rfl := Option.some.inj foundEarlier
          exact ⟨peer, lastLink, lastUploaded, here ▸ found, by rw [last_eq, next_eq]⟩
        · rw [Function.update_of_ne here] at foundEarlier
          exact ⟨earlier, lastLink, lastUploaded, foundEarlier, last_eq⟩

theorem Reported.sound [Bincode] {loop : GameLoop E P} {peers after : UInt64 → Option Peer}
    {changes : List NetworkChange} (reported : Reported loop peers after changes)
    (sound : AllSound peers) : AllSound after := by
  intro clientId peer found
  obtain ⟨earlier, link, uploaded, foundEarlier, rfl⟩ := reported.kept clientId peer found
  obtain ⟨ran, received⟩ := sound clientId earlier foundEarlier
  exact ⟨ran, received⟩

end Reports

end World

/-! ## Runs of the system -/

/-- Hearing from the server changes the line of the program only. -/
theorem Peer.hear_spec [Bincode] {clientId : UInt64} {peer : Peer} {sent : List Bytes}
    (sound : peer.Sound clientId) (longer : peer.link = .online → peer.line <+: sent) :
    (peer.hear sent).Sound clientId ∧ peer.Ages (peer.hear sent) ∧
      (peer.hear sent).link = peer.link := by
  rw [hear]
  split
  · rename_i online
    exact ⟨⟨sound.ran, sound.received.trans (longer online)⟩,
      ⟨rfl, List.prefix_refl _, List.prefix_refl _, id⟩, rfl⟩
  · exact ⟨sound, .refl peer, rfl⟩

namespace GameLoop

variable {E P : Type} [Anyhow E] [EventPublisher E P] [Bincode]

omit [Anyhow E] [EventPublisher E P] [Bincode] in
theorem sameClients_foldl {α : Type} {step : GameLoop E P → α → GameLoop E P}
    (keeps : ∀ (loop : GameLoop E P) (item : α), loop.server.SameClients (step loop item).server)
    (loop : GameLoop E P)
    (items : List α) : loop.server.SameClients (items.foldl step loop).server := by
  apply List.foldlRecOn (motive := fun moment => loop.server.SameClients moment.server) items step
    (.refl loop.server)
  intro moment same item _
  exact same.trans (keeps moment item)

/-- Once the network's changes are applied, a tick keeps the clients. -/
theorem sameClients_tick (fresh clock : ℕ → Stamp) (loop : GameLoop E P) (input : TickInput) :
    (loop.update input.changes).takeEvents.1.server.SameClients
      (loop.tick fresh clock input).server := by
  have connected : (loop.update input.changes).takeEvents.1.server.SameClients
      (loop.connected fresh clock input).server :=
    sameClients_foldl (sameClients_handleConnection fresh clock) _ _
  have taken := ((loop.connected fresh clock input).takeMessages_connected input.polled).1
  have drained : ((loop.connected fresh clock input).takeMessages input.polled).1.server.SameClients
      (loop.drained fresh clock input).server :=
    sameClients_foldl (sameClients_handleMessage fresh clock) _ _
  have delivered : (loop.drained fresh clock input).server.SameClients
      (loop.tick fresh clock input).server := sameClients_foldl (sameClients_handle fresh) _ _
  exact ((connected.trans taken).trans drained).trans delivered

end GameLoop

namespace World

variable {E P : Type} [Anyhow E] [EventPublisher E P] [Bincode]

/-- What every run keeps. -/
structure Sound (fresh clock : ℕ → Stamp) (gameId : GameId) (publisher : P) (world : World E P) :
    Prop where
  loop : world.loop = (GameLoop.start gameId publisher).run fresh clock world.ticks
  networkFed : NetworkFed world.ticks
  /-- The network reports nothing that its programs have not done. -/
  explained : Explained world.peers (world.ticks.flatMap TickInput.changes)
  linked : Linked world.loop.server world.peers
  peers : AllSound world.peers

section Steps

variable {fresh clock : ℕ → Stamp} {gameId : GameId} {publisher : P} {world after : World E P}

theorem sound_start : (start gameId publisher : World E P).Sound fresh clock gameId publisher := by
  refine ⟨rfl, by simp [NetworkFed, start], by simp [Explained, start], ?_, ?_⟩
  · constructor <;> simp [start, GameLoop.start, GameLoop.server, GameService.build,
      RenetServer.IsConnected, RenetServer.new]
  · intro clientId peer found
    cases found

omit [Anyhow E] [EventPublisher E P] in
theorem allSound_update {peers : UInt64 → Option Peer} (sound : AllSound peers)
    {clientId : UInt64} {next : Peer} (own : next.Sound clientId) :
    AllSound (Function.update peers clientId (some next)) := by
  intro other peer found
  by_cases same : other = clientId
  · subst same
    rw [Function.update_self] at found
    obtain rfl := Option.some.inj found
    exact own
  · rw [Function.update_of_ne same] at found
    exact sound other peer found

theorem Sound.launch (sound : world.Sound fresh clock gameId publisher) {clientId : UInt64}
    {username : String}
    (launched : world.step fresh clock (.launch clientId username) = some after) :
    after.Sound fresh clock gameId publisher ∧ Age world.peers after.peers := by
  simp only [step, bind, Option.bind_eq_some_iff, Option.guard_eq_some', exists_const,
    Option.some.injEq] at launched
  obtain ⟨absent, rfl⟩ := launched
  have free : world.peers clientId = none := Option.isNone_iff_eq_none.mp absent
  have age : Age world.peers
      (Function.update world.peers clientId (some (.launched clientId username))) := by
    apply Age.update
    intro peer found
    cases free.symm.trans found
  refine ⟨⟨sound.loop, sound.networkFed, sound.explained.later age, ?_, ?_⟩, age⟩
  · refine sound.linked.update (fun _ _ => rfl) (iff_of_false ?_ (by simp [Peer.launched]))
      (fun _ => rfl) (by simp [Peer.launched])
    rw [sound.linked.connected, free]
    simp
  · exact allSound_update sound.peers ⟨rfl, List.prefix_refl _⟩

theorem Sound.frame (sound : world.Sound fresh clock gameId publisher) {clientId : UInt64}
    {input : FrameInput} (ran : world.step fresh clock (.frame clientId input) = some after) :
    after.Sound fresh clock gameId publisher ∧ Age world.peers after.peers := by
  simp only [step, bind, Option.bind_eq_some_iff, Option.some.injEq] at ran
  obtain ⟨peer, found, next, framed, rfl⟩ := ran
  obtain ⟨own, ages, link, line⟩ := Peer.frame_spec (sound.peers clientId peer found) framed
  have age : Age world.peers (Function.update world.peers clientId (some next)) := by
    apply Age.update
    intro other same
    obtain rfl := Option.some.inj (found.symm.trans same)
    exact ages
  refine ⟨⟨sound.loop, sound.networkFed, sound.explained.later age, ?_, ?_⟩, age⟩
  · refine sound.linked.update (fun _ _ => rfl) ?_ ?_ ?_
    · rw [sound.linked.connected, found, link]
      simp
    · rw [link, line]
      exact sound.linked.fresh clientId peer found
    · rw [link, line]
      exact sound.linked.current clientId peer found
  · exact allSound_update sound.peers own

theorem Sound.tick (sound : world.Sound fresh clock gameId publisher) {input : TickInput}
    (ticked : world.step fresh clock (.tick input) = some after) :
    after.Sound fresh clock gameId publisher ∧ Age world.peers after.peers := by
  simp only [step, bind, Option.bind_eq_some_iff, Option.guard_eq_some', exists_const,
    Option.some.injEq] at ticked
  obtain ⟨own, peers, reported, rfl⟩ := ticked
  have reports := reported_of_foldlM sound.linked reported
  have same := world.loop.sameClients_tick fresh clock input
  let server := (world.loop.tick fresh clock input).server
  let heard : UInt64 → Option Peer := fun clientId =>
    (peers clientId).map fun peer => peer.hear (server.sent clientId)
  -- What the server has sent to a program before stays in front.
  have hears (clientId : UInt64) (peer : Peer) (found : peers clientId = some peer) :
      (peer.hear (server.sent clientId)).Sound clientId ∧
        peer.Ages (peer.hear (server.sent clientId)) ∧
          (peer.hear (server.sent clientId)).link = peer.link := by
    refine Peer.hear_spec (reports.sound sound.peers clientId peer found) fun online => ?_
    rw [reports.linked.current clientId peer found online]
    exact same.sent clientId
  have found_iff (clientId : UInt64) (last : Peer) : heard clientId = some last ↔
      ∃ peer, peers clientId = some peer ∧ peer.hear (server.sent clientId) = last :=
    Option.map_eq_some_iff
  have age : Age peers heard := fun clientId peer found =>
    ⟨_, (found_iff clientId _).mpr ⟨peer, found, rfl⟩, (hears clientId peer found).2.1⟩
  refine ⟨⟨?_, ?_, ?_, ⟨fun clientId => ?_, ?_, ?_⟩, ?_⟩, reports.age.trans age⟩
  · rw [GameLoop.run, List.foldl_append, sound.loop]
    rfl
  · intro other member
    rcases List.mem_append.mp member with earlier | now
    · exact sound.networkFed other earlier
    · obtain rfl := List.mem_singleton.mp now
      intro delivery listed
      have again := List.all_eq_true.mp own delivery listed
      cases record : delivery.record with
      | again call => exact ⟨call, rfl⟩
      | injected envelope =>
          rw [record] at again
          cases again
  · intro change member
    rw [List.flatMap_append, List.flatMap_singleton] at member
    rcases List.mem_append.mp member with earlier | now
    · exact (sound.explained.later (reports.age.trans age)) change earlier
    · exact reports.explained.later age change now
  · refine (same.connected clientId).trans ((reports.linked.connected clientId).trans ?_)
    constructor
    · rintro ⟨peer, found, online⟩
      exact ⟨_, (found_iff clientId _).mpr ⟨peer, found, rfl⟩,
        (hears clientId peer found).2.2.trans online⟩
    · rintro ⟨last, found, online⟩
      obtain ⟨peer, known, rfl⟩ := (found_iff clientId last).mp found
      exact ⟨peer, known, (hears clientId peer known).2.2.symm.trans online⟩
  · intro clientId last found offline
    obtain ⟨peer, known, rfl⟩ := (found_iff clientId last).mp found
    rw [(hears clientId peer known).2.2] at offline
    rw [Peer.hear, if_neg (by simp [offline])]
    exact reports.linked.fresh clientId peer known offline
  · intro clientId last found online
    obtain ⟨peer, known, rfl⟩ := (found_iff clientId last).mp found
    rw [(hears clientId peer known).2.2] at online
    rw [Peer.hear, if_pos online]
  · intro clientId last found
    obtain ⟨peer, known, rfl⟩ := (found_iff clientId last).mp found
    exact (hears clientId peer known).1

/-- A step keeps the system sound, and its programs grow older. -/
theorem Sound.next (sound : world.Sound fresh clock gameId publisher) {action : Action}
    (stepped : world.step fresh clock action = some after) :
    after.Sound fresh clock gameId publisher ∧ Age world.peers after.peers := by
  cases action with
  | launch => exact sound.launch stepped
  | frame => exact sound.frame stepped
  | tick => exact sound.tick stepped

/-- Every run of the system keeps it sound. -/
theorem run_sound {actions : List Action}
    (ran : (run fresh clock gameId publisher actions : Option (World E P)) = some after) :
    after.Sound fresh clock gameId publisher := by
  refine Schedule.runAll_induction
    (fun world : World E P => world.Sound fresh clock gameId publisher)
    ?_ sound_start ran
  intro world next action _ sound stepped
  exact (sound.next stepped).1

end Steps

/-! ## Where the events come from -/

/-- What a program has sent speaks for its own player: its join, or a tile that it was allowed. -/
theorem speaks_of_sound {clientId : UInt64} {peer : Peer} (sound : peer.Sound clientId)
    {bytes : Bytes} (sent : bytes ∈ peer.app.sent) {command : GameCommand}
    (decoded : Bincode.decodeCommand bytes = .ok command) :
    command = .joinGame ⟨clientId⟩ peer.username ∨
      ∃ cell, command = .placeTile ⟨clientId⟩ cell ∧ ∃ seen, peer.Asked ⟨clientId⟩ cell seen := by
  have started : peer.inputs ≠ [] := by
    intro none
    have ran := sound.ran
    rw [none] at ran
    rw [← Option.some.inj ran] at sent
    cases sent
  obtain ⟨cells, messages, clicked⟩ := ClientApp.run_honest sound.ran started
  have said : Except.ok command ∈ peer.app.sent.map Bincode.decodeCommand :=
    List.mem_map.mpr ⟨bytes, sent, decoded⟩
  rw [messages, List.mem_map_of_injective fun _ _ => Except.ok.inj, List.mem_cons] at said
  rcases said with join | tile
  · exact .inl join
  · obtain ⟨cell, member, rfl⟩ := List.mem_map.mp tile
    obtain ⟨seen, clicks⟩ := clicked.clicks cell member
    exact .inr ⟨cell, rfl, seen, ⟨bytes, sent, decoded⟩, clicks⟩

section Authors

variable {fresh clock : ℕ → Stamp} {gameId : GameId} {publisher : P} {world : World E P}

/-- The messages on the network name their senders. -/
theorem Sound.honest (sound : world.Sound fresh clock gameId publisher) {clientId : UInt64}
    {bytes : Bytes} {command : GameCommand}
    (changed : .message clientId bytes ∈ world.ticks.flatMap TickInput.changes)
    (decoded : Bincode.decodeCommand bytes = .ok command) : command.playerId = ⟨clientId⟩ := by
  obtain ⟨peer, found, sent⟩ := sound.explained _ changed
  rcases speaks_of_sound (sound.peers clientId peer found) sent decoded with rfl | ⟨cell, rfl, _⟩
  · rfl
  · rfl

end Authors

end World

/-! ## In step with the server -/

namespace GameLoop

variable {E P : Type} [Anyhow E] [EventPublisher E P] [Bincode] {fresh clock : ℕ → Stamp}

theorem Visits.append {loop moment : GameLoop E P} {inputs : List TickInput}
    {pending : List ServerEvent} (visits : Visits fresh clock loop inputs moment pending)
    (more : List TickInput) : Visits fresh clock loop (inputs ++ more) moment pending := by
  induction visits with
  | connecting split => exact .connecting split
  | receiving connected_eq split => exact .receiving connected_eq split
  | delivering drained_eq split => exact .delivering drained_eq split
  | later _ induction => exact .later induction

/-- A quiet run leads from idle to idle. -/
theorem Idle.run {loop : GameLoop E P} {inputs : List TickInput} (idle : loop.Idle)
    (quiet : Quiet fresh clock loop inputs) (sends : SendsSucceed fresh clock loop inputs) :
    (loop.run fresh clock inputs).Idle := by
  induction inputs generalizing loop with
  | nil => exact idle
  | cons input inputs induction => exact induction (idle.tick quiet sends) quiet.later sends.later

omit [Anyhow E] [EventPublisher E P] [Bincode] in
/-- Only those who come or go queue an event. -/
theorem update_events_length (loop : GameLoop E P) (changes : List NetworkChange) :
    (loop.update changes).server.events.length ≤
      loop.server.events.length + (changes.filter NetworkChange.moves).length := by
  induction changes generalizing loop with
  | nil => exact Nat.le_refl _
  | cons change changes induction =>
      have later := induction (loop.applyChange change)
      have first : (loop.applyChange change).server.events.length ≤
          loop.server.events.length + ([change].filter NetworkChange.moves).length := by
        cases change with
        | connect clientId name =>
            by_cases known : loop.server.IsConnected clientId
            · have same : (loop.server.addConnection clientId).events = loop.server.events :=
                congrArg RenetServer.events (RenetServer.addConnection_of_isConnected known)
              exact (congrArg List.length same).le.trans (Nat.le_add_right _ _)
            · have grown := congrArg List.length (RenetServer.events_addConnection known)
              rw [List.length_append] at grown
              exact grown.le
        | disconnect clientId =>
            by_cases known : loop.server.IsConnected clientId
            · have grown := congrArg List.length (RenetServer.events_removeConnection known)
              rw [List.length_append] at grown
              exact grown.le
            · have same : (loop.server.removeConnection clientId).events = loop.server.events :=
                congrArg RenetServer.events (RenetServer.removeConnection_of_not_isConnected known)
              exact (congrArg List.length same).le.trans (Nat.le_add_right _ _)
        | message clientId bytes => exact Nat.le_refl _
      have split : (change :: changes).filter NetworkChange.moves =
          [change].filter NetworkChange.moves ++ changes.filter NetworkChange.moves :=
        List.filter_append [change] changes
      rw [split, List.length_append]
      refine later.trans ?_
      omega

/-- A run is quiet in which at most one client comes or goes in a tick. -/
theorem quiet_of_single {loop : GameLoop E P} {inputs : List TickInput}
    (empty : loop.server.events = [])
    (single : ∀ input ∈ inputs, (input.changes.filter NetworkChange.moves).length ≤ 1) :
    Quiet fresh clock loop inputs := by
  intro moment event pending visit accepted
  have nothing : pending = [] := by
    clear accepted
    generalize queue_eq : event :: pending = queue at visit
    induction visit with
    | receiving => cases queue_eq
    | delivering => cases queue_eq
    | @connecting loop input rest done queue split =>
        subst queue_eq
        have bound := (loop.update_events_length input.changes).trans
          (Nat.add_le_add_left (single input List.mem_cons_self) _)
        have lengths := congrArg List.length split
        rw [empty, List.length_nil] at bound
        rw [List.length_append, List.length_cons] at lengths
        have taken : (loop.update input.changes).takeEvents.2.length =
            (loop.update input.changes).server.events.length := rfl
        exact List.eq_nil_of_length_eq_zero (by omega)
    | @later loop moment input rest queue _ induction =>
        refine induction (sameClients_tick fresh clock loop input).events ?_ queue_eq
        exact fun other member => single other (List.mem_cons_of_mem _ member)
  intro clientId _ waits
  rw [nothing] at waits
  cases waits

end GameLoop

theorem ClientApp.heardEvents_prefix [Bincode] {shorter longer : List Bytes}
    (front : shorter <+: longer) : heardEvents shorter <+: heardEvents longer := by
  obtain ⟨rest, rfl⟩ := front
  rw [heardEvents_append]
  exact List.prefix_append _ _

namespace World

section Convergence

variable {E P : Type} [Anyhow E] [EventPublisher E P] [Bincode]

/-- Every event could be sent, and no catch-up was overtaken by one. -/
structure Calm (fresh clock : ℕ → Stamp) (gameId : GameId) (publisher : P) (world : World E P) :
    Prop where
  quiet : GameLoop.Quiet fresh clock (GameLoop.start gameId publisher : GameLoop E P) world.ticks
  sendable : ∀ event ∈ world.loop.log, Sendable event

/-- Everything on the line of a program stands in the log. -/
def Follows (world : World E P) : Prop :=
  ∀ clientId peer, world.peers clientId = some peer →
    ClientApp.heardEvents peer.line <+: world.loop.log

section Calm

variable {fresh clock : ℕ → Stamp} {gameId : GameId} {publisher : P} {world after : World E P}
  {action : Action}

/-- Between the ticks of a calm run whoever is online was sent exactly the log. -/
theorem Calm.idle (calm : world.Calm fresh clock gameId publisher)
    (sound : world.Sound fresh clock gameId publisher) : world.loop.Idle := by
  have sends : GameLoop.SendsSucceed fresh clock (GameLoop.start gameId publisher : GameLoop E P)
      world.ticks := by
    intro moment pending visit event member
    apply calm.sendable
    rw [sound.loop]
    exact visit.log_prefix.subset member
  rw [sound.loop]
  exact (GameLoop.idle_start gameId publisher).run calm.quiet sends

/-- The server moves in its ticks only. -/
theorem step_loop (stepped : world.step fresh clock action = some after) :
    (after.loop = world.loop ∧ after.ticks = world.ticks) ∨
      ∃ input, action = .tick input ∧ after.loop = world.loop.tick fresh clock input ∧
        after.ticks = world.ticks ++ [input] := by
  cases action with
  | launch clientId username =>
      simp only [step, bind, Option.bind_eq_some_iff, Option.some.injEq] at stepped
      obtain ⟨_, _, rfl⟩ := stepped
      exact .inl ⟨rfl, rfl⟩
  | frame clientId input =>
      simp only [step, bind, Option.bind_eq_some_iff, Option.some.injEq] at stepped
      obtain ⟨_, _, _, _, rfl⟩ := stepped
      exact .inl ⟨rfl, rfl⟩
  | tick input =>
      simp only [step, bind, Option.bind_eq_some_iff, Option.some.injEq] at stepped
      obtain ⟨_, _, _, _, rfl⟩ := stepped
      exact .inr ⟨input, rfl, rfl, rfl⟩

theorem step_log (stepped : world.step fresh clock action = some after) :
    world.loop.log <+: after.loop.log := by
  rcases step_loop stepped with ⟨same, _⟩ | ⟨input, _, ticked, _⟩
  · rw [same]
  · rw [ticked]
    exact world.loop.log_prefix_tick fresh clock input

theorem Calm.earlier (calm : after.Calm fresh clock gameId publisher)
    (stepped : world.step fresh clock action = some after) :
    world.Calm fresh clock gameId publisher := by
  refine ⟨?_, fun event member => calm.sendable event ((step_log stepped).subset member)⟩
  rcases step_loop stepped with ⟨_, same⟩ | ⟨input, _, _, ticked⟩
  · exact same ▸ calm.quiet
  · intro moment event pending visit
    apply calm.quiet moment event pending
    rw [ticked]
    exact visit.append [input]

/-- The line of a program that is not online is an earlier one. -/
theorem Sound.step_line (sound : world.Sound fresh clock gameId publisher)
    (stepped : world.step fresh clock action = some after) {clientId : UInt64} {peer : Peer}
    (found : after.peers clientId = some peer) (apart : peer.link ≠ .online) :
    peer.line = [] ∨ ∃ earlier, world.peers clientId = some earlier ∧ peer.line = earlier.line := by
  cases action with
  | launch joiner username =>
      simp only [step, bind, Option.bind_eq_some_iff, Option.some.injEq] at stepped
      obtain ⟨_, _, rfl⟩ := stepped
      by_cases same : clientId = joiner
      · simp only [same, Function.update_self, Option.some.injEq] at found
        exact .inl (found ▸ rfl)
      · simp only [Function.update_of_ne same] at found
        exact .inr ⟨peer, found, rfl⟩
  | frame runner input =>
      simp only [step, bind, Option.bind_eq_some_iff, Option.some.injEq] at stepped
      obtain ⟨before, known, next, framed, rfl⟩ := stepped
      by_cases same : clientId = runner
      · simp only [same, Function.update_self, Option.some.injEq] at found
        subst found
        simp only [Peer.frame, bind, Option.bind_eq_some_iff, Option.some.injEq] at framed
        obtain ⟨_, _, app, _, rfl⟩ := framed
        exact .inr ⟨before, same ▸ known, rfl⟩
      · simp only [Function.update_of_ne same] at found
        exact .inr ⟨peer, found, rfl⟩
  | tick input =>
      simp only [step, bind, Option.bind_eq_some_iff, Option.some.injEq] at stepped
      obtain ⟨_, _, peers, reported, rfl⟩ := stepped
      obtain ⟨reports, known, rfl⟩ := Option.map_eq_some_iff.mp found
      obtain ⟨earlier, link, uploaded, before, reports_eq⟩ :=
        (reported_of_foldlM sound.linked reported).kept clientId reports known
      have offline : reports.link ≠ .online := by
        intro online
        rw [Peer.hear, if_pos online] at apart
        exact apart online
      rw [Peer.hear, if_neg offline, reports_eq]
      exact .inr ⟨earlier, before, rfl⟩

/-- In a calm run every program is sent a front part of the log. -/
theorem run_follows {actions : List Action}
    (ran : (run fresh clock gameId publisher actions : Option (World E P)) = some after)
    (calm : after.Calm fresh clock gameId publisher) : after.Follows := by
  induction actions using List.reverseRecOn generalizing after with
  | nil =>
      obtain rfl := Option.some.inj ran
      intro clientId peer found
      cases found
  | append_singleton actions action induction =>
      obtain ⟨before, early, stepped⟩ := Schedule.runAll_append_singleton_eq_some.mp ran
      have follows := induction early (calm.earlier stepped)
      have sound : after.Sound fresh clock gameId publisher := run_sound ran
      intro clientId peer found
      by_cases online : peer.link = .online
      · -- Whoever is online was sent the whole log.
        have connected := (sound.linked.connected clientId).mpr ⟨peer, found, online⟩
        have heard := ((calm.idle sound).synced clientId connected).1 List.not_mem_nil
        rw [sound.linked.current clientId peer found online, ClientApp.heardEvents_of_decoded heard]
      · rcases (run_sound early).step_line stepped found online with
          nothing | ⟨earlier, known, same⟩
        · rw [nothing]
          exact List.nil_prefix
        · rw [same]
          exact (follows clientId earlier known).trans (step_log stepped)

/-- What a program has received stands in the log. -/
theorem Follows.received (follows : world.Follows)
    (sound : world.Sound fresh clock gameId publisher) {clientId : UInt64} {peer : Peer}
    (found : world.peers clientId = some peer) :
    peer.app.model.replica.received <+: world.loop.log := by
  have own := sound.peers clientId peer found
  rw [(ClientApp.run_underway own.ran).replica]
  exact (ClientApp.heardEvents_prefix own.received).trans (follows clientId peer found)

/-- In a calm run of the system every program holds the state of a front part of the server's log,
and of the whole log once everything that was sent to it has arrived. -/
theorem run_converges {actions : List Action}
    (ran : (run fresh clock gameId publisher actions : Option (World E P)) = some world)
    (calm : world.Calm fresh clock gameId publisher) :
    ∀ clientId peer, world.peers clientId = some peer →
      let replica := peer.app.model.replica
      replica.received <+: world.loop.log ∧ replica.state = hydrate replica.received ∧
        (peer.link = .online → peer.arrived = peer.line → replica.received = world.loop.log) := by
  intro clientId peer found replica
  have sound : world.Sound fresh clock gameId publisher := run_sound ran
  have underway := ClientApp.run_underway (sound.peers clientId peer found).ran
  refine ⟨(run_follows ran calm).received sound found, ?_, fun online all => ?_⟩
  · simp only [replica, underway.replica]
  · have connected := (sound.linked.connected clientId).mpr ⟨peer, found, online⟩
    have heard := ((calm.idle sound).synced clientId connected).1 List.not_mem_nil
    have current := sound.linked.current clientId peer found online
    have arrivals_eq : ClientApp.arrivals peer.inputs = ClientApp.heardEvents peer.arrived := rfl
    simp only [replica, underway.replica]
    rw [arrivals_eq, all, current, ClientApp.heardEvents_of_decoded heard]

/-- Behind every tile that the server was asked for stands a click of its player, where a front part
of the log that the server found had arrived. -/
def Informed (peers : UInt64 → Option Peer) (loop : GameLoop E P) : Prop :=
  ∀ front call back, loop.calls = front ++ call :: back →
    ∀ playerId cell, call.envelope.command = .placeTile playerId cell →
      ∃ peer seen, peers playerId.raw = some peer ∧ peer.Asked playerId cell seen ∧
        seen <+: callLog loop.gameId front

omit [Anyhow E] [EventPublisher E P] in
theorem Informed.later {earlier later : UInt64 → Option Peer} {loop : GameLoop E P}
    (informed : Informed earlier loop) (age : Age earlier later) : Informed later loop := by
  intro front call back split playerId cell command
  obtain ⟨peer, seen, found, asked, arrived⟩ := informed front call back split playerId cell command
  obtain ⟨after, foundAfter, ages⟩ := age _ peer found
  exact ⟨after, seen, foundAfter, asked.later ages, arrived⟩

theorem tick_ticks {input : TickInput}
    (ticked : world.step fresh clock (.tick input) = some after) :
    after.ticks = world.ticks ++ [input] := by
  simp only [step, bind, Option.bind_eq_some_iff, Option.some.injEq] at ticked
  obtain ⟨_, _, _, _, rfl⟩ := ticked
  rfl

/-- A tick leaves the programs themselves alone. -/
theorem Sound.tick_app (sound : world.Sound fresh clock gameId publisher) {input : TickInput}
    (ticked : world.step fresh clock (.tick input) = some after) {clientId : UInt64} {peer : Peer}
    (found : after.peers clientId = some peer) :
    ∃ earlier, world.peers clientId = some earlier ∧ peer.app = earlier.app := by
  simp only [step, bind, Option.bind_eq_some_iff, Option.some.injEq] at ticked
  obtain ⟨_, _, peers, reported, rfl⟩ := ticked
  obtain ⟨reports, known, rfl⟩ := Option.map_eq_some_iff.mp found
  obtain ⟨earlier, link, uploaded, before, rfl⟩ :=
    (reported_of_foldlM sound.linked reported).kept clientId reports known
  refine ⟨earlier, before, ?_⟩
  rw [Peer.hear]
  split <;> rfl

/-- A message that a tick takes asks for tiles only that their player clicked on where a front part
of the log had arrived. -/
theorem Sound.informed_message (sound : world.Sound fresh clock gameId publisher)
    (follows : world.Follows) {input : TickInput}
    (ticked : world.step fresh clock (.tick input) = some after) {message : UInt64 × Bytes}
    (taken : message ∈ ((world.loop.connected fresh clock input).takeMessages input.polled).2)
    {playerId : PlayerId} {cell : ℕ}
    (decoded : Bincode.decodeCommand message.2 = .ok (.placeTile playerId cell)) :
    ∃ peer seen, world.peers playerId.raw = some peer ∧ peer.Asked playerId cell seen ∧
      seen <+: world.loop.log := by
  have ticks := tick_ticks ticked
  have changed := GameLoop.run_taken (E := E) fresh clock gameId publisher sound.networkFed input
    message (by rwa [← sound.loop])
  rw [← ticks] at changed
  obtain ⟨peer, found, sent⟩ := (sound.tick ticked).1.explained _ changed
  obtain ⟨earlier, before, same⟩ := sound.tick_app ticked found
  have said : message.2 ∈ earlier.app.sent := same ▸ sent
  have own := sound.peers _ earlier before
  rcases speaks_of_sound own said decoded with joined | ⟨_, placed, seen, asked⟩
  · cases joined
  · cases placed
    exact ⟨earlier, seen, before, asked,
      (asked.seen_prefix own).trans (follows.received sound before)⟩

/-- A tick handles the clicks of programs that have received a front part of the log. -/
theorem Informed.tick (informed : Informed world.peers world.loop) (follows : world.Follows)
    (sound : world.Sound fresh clock gameId publisher) {input : TickInput}
    (ticked : world.step fresh clock (.tick input) = some after) :
    Informed world.peers (world.loop.tick fresh clock input) := by
  have sameGame : (world.loop.tick fresh clock input).gameId = world.loop.gameId :=
    (world.loop.delivering_keeps fresh clock input _).1
  have earlier := world.loop.calls_prefix_tick fresh clock input
  rw [Informed, sameGame]
  intro front
  -- A redelivered command goes back to its first call, which stands further in front.
  induction size : front.length using Nat.strong_induction_on generalizing front with
  | _ count induction =>
      subst size
      intro call back split playerId cell command
      rcases Nat.lt_or_ge front.length world.loop.calls.length with before | now
      · rw [split] at earlier
        obtain ⟨rest, whole⟩ := Schedule.exists_split_of_prefix earlier before
        exact informed front call rest whole playerId cell command
      obtain ⟨moment, handles, calls_eq⟩ := GameLoop.exists_handles_tick split now
      cases handles with
      | connection event queued => cases event <;> cases command
      | message message asked taken decoded =>
          obtain rfl : asked = .placeTile playerId cell := command
          obtain ⟨peer, seen, found, asked, start⟩ := sound.informed_message follows ticked
            (by rw [taken]; simp) decoded
          refine ⟨peer, seen, found, asked, start.trans ?_⟩
          have extends_calls : world.loop.calls <+: front := by
            refine List.prefix_of_prefix_length_le earlier ?_ now
            rw [split]
            exact List.prefix_append _ _
          obtain ⟨rest, rfl⟩ := extends_calls
          have logged : world.loop.log = callLog world.loop.gameId world.loop.calls :=
            world.loop.logged
          rw [logged]
          exact callLog_grows _ _ rest
      | delivery _ delivers =>
          have networkFed :=
            (sound.tick ticked).1.networkFed input (by rw [tick_ticks ticked]; simp)
          have again := GameLoop.mem_calls_delivering networkFed delivers
          rw [calls_eq] at again
          obtain ⟨shorter, between, rfl⟩ := List.append_of_mem again
          obtain ⟨peer, seen, found, asked, start⟩ := induction shorter.length (by simp) shorter rfl
            call (between ++ call :: back) (by rw [split]; simp) playerId cell command
          exact ⟨peer, seen, found, asked, start.trans (callLog_grows _ _ _)⟩

theorem run_informed {actions : List Action}
    (ran : (run fresh clock gameId publisher actions : Option (World E P)) = some after)
    (calm : after.Calm fresh clock gameId publisher) : Informed after.peers after.loop := by
  induction actions using List.reverseRecOn generalizing after with
  | nil =>
      obtain rfl := Option.some.inj ran
      intro front call back split
      exact absurd split.symm (by simp [start, GameLoop.start])
  | append_singleton actions action induction =>
      obtain ⟨before, early, stepped⟩ := Schedule.runAll_append_singleton_eq_some.mp ran
      have calmBefore := calm.earlier stepped
      have informed := induction early calmBefore
      have sound : before.Sound fresh clock gameId publisher := run_sound early
      have age := (sound.next stepped).2
      rcases step_loop stepped with ⟨same, _⟩ | ⟨input, rfl, ticked, _⟩
      · rw [same]
        exact informed.later age
      · rw [ticked]
        exact (informed.tick (run_follows early calmBefore) sound stepped).later age

/-- In a calm run of the system no click is refused without a reason: whenever the server handles a
tile, the player has clicked on it where a front part of the log had arrived, and the server accepts
it, or the player's turn has ended since, by a tile of this very player or with the game. -/
theorem run_clicks_honest {actions : List Action}
    (ran : (run fresh clock gameId publisher actions : Option (World E P)) = some world)
    (calm : world.Calm fresh clock gameId publisher) :
    ∀ front call back, world.loop.calls = front ++ call :: back →
      ∀ playerId cell, call.envelope.command = .placeTile playerId cell →
        ∃ peer seen rest, world.peers playerId.raw = some peer ∧ peer.Asked playerId cell seen ∧
          callLog world.loop.gameId front = seen ++ rest ∧
            (¬ decider.Refuses (callLog world.loop.gameId front) (.placeTile playerId cell) ∨
              ∃ event ∈ rest, EndsTurn playerId event) := by
  intro front call back split playerId cell command
  obtain ⟨peer, seen, found, asked, rest, whole⟩ :=
    run_informed ran calm front call back split playerId cell command
  refine ⟨peer, seen, rest, found, asked, whole.symm, ?_⟩
  have allowed := asked.clicks.allows
  obtain ⟨session, history⟩ :=
    sessions.exists_history (callCommands world.loop.gameId front)
  rw [← callLog] at history
  rcases endsTurn_of_onTurn history whole.symm ⟨allowed.1, allowed.2.1⟩ with rfl | ends
  · rw [List.append_nil] at whole
    subst whole
    refine .inl fun refused => ?_
    exact (refuses_iff_not_admits _ _).mp refused allowed.admits
  · exact .inr ends

end Calm

end Convergence

attribute [local instance] standardBincode

private def still : ℕ → Stamp := fun _ => ⟨⟨0⟩, ⟨0⟩⟩

private def encoded (events : List GameEvent) : List Bytes :=
  events.filterMap fun event => (Bincode.encodeEvent event).toOption

private def opened : List GameEvent :=
  [.playerJoined ⟨1⟩ "Ann", .playerJoined ⟨2⟩ "Bob", .gameStarted ⟨1⟩]

/-- A frame that runs the systems as listed. -/
private def asListed (cursor : Option (ℤ × ℤ)) (pressed : Bool) (arrived : List Bytes) :
    FrameInput where
  order := UpdateSystem.all
  everyOnce := .refl _
  cursor := cursor
  pressed := pressed
  arrived := arrived

private def centreGame : List Action :=
  [.launch 1 "Ann", .frame 1 (asListed none false []), .launch 2 "Bob",
    .tick ⟨[.connect 1 "Ann"], [], []⟩,
    .tick ⟨[.connect 2 "Bob", .message 1 [0, 1, 3, 65, 110, 110]], [1, 2], []⟩,
    .frame 1 (asListed none false (encoded opened)), .frame 1 (asListed (some (1, 1)) true []),
    .tick ⟨[.message 1 [1, 1, 4]], [2, 1], []⟩]

private def afterCentre : Option (World ErrorChain NoopPublisher) :=
  run still still ⟨⟨0⟩⟩ NoopPublisher.mk centreGame

private theorem exists_afterCentre : ∃ world, afterCentre = some world ∧
    world.Calm still still ⟨⟨0⟩⟩ NoopPublisher.mk := by
  have runs : afterCentre.isSome := by decide +kernel
  have logged : (afterCentre.map fun world => world.loop.log) =
      some (opened ++ [.tilePlaced ⟨1⟩ 4]) := by
    decide +kernel
  have arrivals : (afterCentre.map fun world => world.ticks.map fun input =>
      (input.changes.filter NetworkChange.moves).length) = some [1, 1, 0] := by
    decide +kernel
  obtain ⟨world, ran⟩ := Option.isSome_iff_exists.mp runs
  rw [ran, Option.map_some, Option.some.injEq] at logged arrivals
  refine ⟨world, ran, GameLoop.quiet_of_single rfl ?_, ?_⟩
  · intro input member
    have listed := List.mem_map_of_mem (f := fun input : TickInput =>
      (input.changes.filter NetworkChange.moves).length) member
    rw [arrivals] at listed
    simp only [List.mem_cons, List.not_mem_nil, or_false] at listed
    omega
  · intro event member
    rw [logged] at member
    simp only [opened, List.cons_append, List.nil_append, List.mem_cons, List.not_mem_nil,
      or_false] at member
    rcases member with rfl | rfl | rfl | rfl <;> exact ⟨_, rfl⟩

/-- Ann has received the start of the game. -/
theorem run_converges_centre : ∃ world, afterCentre = some world ∧
    ∀ clientId peer, world.peers clientId = some peer →
      let replica := peer.app.model.replica
      replica.received <+: world.loop.log ∧ replica.state = hydrate replica.received ∧
        (peer.link = .online → peer.arrived = peer.line → replica.received = world.loop.log) := by
  obtain ⟨world, ran, calm⟩ := exists_afterCentre
  exact ⟨world, ran, run_converges ran calm⟩

/-- Ann's click was allowed. -/
theorem run_clicks_honest_centre : ∃ world, afterCentre = some world ∧
    ∀ front call back, world.loop.calls = front ++ call :: back →
      ∀ playerId cell, call.envelope.command = .placeTile playerId cell →
        ∃ peer seen rest, world.peers playerId.raw = some peer ∧ peer.Asked playerId cell seen ∧
          callLog world.loop.gameId front = seen ++ rest ∧
            (¬ decider.Refuses (callLog world.loop.gameId front) (.placeTile playerId cell) ∨
              ∃ event ∈ rest, EndsTurn playerId event) := by
  obtain ⟨world, ran, calm⟩ := exists_afterCentre
  exact ⟨world, ran, run_clicks_honest ran calm⟩

end World

end TicTacTussle
