import Mathlib.Algebra.Group.Nat.Defs
import Mathlib.Logic.Function.Basic
import TicTacTussle.Ledger

/-!
# The shared event store

An event store is a handle to a log behind a mutex, and cloning the handle shares the log.  Both
append paths count the log while they hold the lock, so that over any interleaving of calls through
any clones the log is gapless, and its order can be restored from the sequence numbers alone.
-/

namespace TicTacTussle

namespace EventStore

def append (fresh : ℕ → Stamp) (store : EventStore) (event : GameEvent)
    (commandId : Option Uuid) : EventStore × GameEventEnvelope :=
  let sequence := store.log.length.toUInt64
  let envelope :=
    GameEventEnvelope.new (fresh store.log.length) store.gameId sequence event commandId
  ({ store with log := store.log ++ [envelope] }, envelope)

/-- A call that writes to a store. -/
inductive Call where
  | append (event : GameEvent) (commandId : Option Uuid)
  | appendBatch (events : List GameEvent) (commandId : Option Uuid)
  deriving DecidableEq, Repr

def Call.events : Call → List GameEvent
  | .append event _ => [event]
  | .appendBatch events _ => events

def Call.commandId : Call → Option Uuid
  | .append _ commandId | .appendBatch _ commandId => commandId

/-- Carry out a call under the lock. -/
def perform (fresh : ℕ → Stamp) (store : EventStore) :
    Call → EventStore × List GameEventEnvelope
  | .append event commandId =>
      let (store, envelope) := store.append fresh event commandId
      (store, [envelope])
  | .appendBatch events commandId => store.appendBatch fresh events commandId

/-- A call returns exactly what it adds to the log it finds. -/
structure Appends (before : List GameEventEnvelope) (call : Call)
    (returned after : List GameEventEnvelope) : Prop where
  grown : after = before ++ returned
  events : returned.map GameEventEnvelope.event = call.events
  caused : ∀ envelope ∈ returned, envelope.commandId = call.commandId
  contiguous : ∀ (offset : ℕ) (envelope : GameEventEnvelope), returned[offset]? = some envelope →
    envelope.sequence = (before.length + offset).toUInt64

/-- A log whose positions can be read off its entries. -/
structure Gapless (gameId : GameId) (log : List GameEventEnvelope) : Prop where
  owned : ∀ envelope ∈ log, envelope.gameId = gameId
  numbered : log.length ≤ 2 ^ 64 → ∀ (index : ℕ) (envelope : GameEventEnvelope),
    log[index]? = some envelope → envelope.sequence.toNat = index
  /-- Any of its entries, ordered by sequence, are in log order. -/
  ordered : log.length ≤ 2 ^ 64 → ∀ entries : List GameEventEnvelope, entries.Subperm log →
    (entries.Pairwise fun earlier later => earlier.sequence ≤ later.sequence) →
      entries.Sublist log

theorem perform_gameId (fresh : ℕ → Stamp) (store : EventStore) (call : Call) :
    (store.perform fresh call).1.gameId = store.gameId := by
  cases call with
  | append => rfl
  | appendBatch events commandId => rw [perform, appendBatch_store]

theorem perform_snapshot (fresh : ℕ → Stamp) (store : EventStore) (call : Call) :
    (store.perform fresh call).1.snapshot =
      store.snapshot ++ (store.perform fresh call).2 := by
  cases call with
  | append => rfl
  | appendBatch events commandId =>
      rw [perform, appendBatch_store]
      rfl

theorem Placed.perform {store : EventStore} (placed : store.Placed) (fresh : ℕ → Stamp)
    (call : Call) : (store.perform fresh call).1.Placed := by
  cases call with
  | append event commandId => exact placed.append_singleton (fresh store.log.length) event commandId
  | appendBatch events commandId => exact placed.appendBatch fresh events commandId

theorem Placed.appends {store : EventStore} (placed : store.Placed) (fresh : ℕ → Stamp)
    (call : Call) :
    Appends store.snapshot call (store.perform fresh call).2
      (store.perform fresh call).1.snapshot where
  grown := perform_snapshot fresh store call
  events := by
    cases call with
    | append => rfl
    | appendBatch events commandId => exact appendBatch_events fresh store events commandId
  caused := by
    cases call with
    | append event commandId =>
        intro envelope member
        obtain rfl := List.mem_singleton.mp member
        rfl
    | appendBatch events commandId =>
        intro envelope member
        exact appendBatch_commandId fresh store events commandId member
  contiguous := by
    intro offset envelope found
    apply (placed.perform fresh call (store.snapshot.length + offset) envelope _).2
    rw [perform_snapshot, List.getElem?_append_right (Nat.le_add_right _ _),
      Nat.add_sub_cancel_left]
    exact found

/-- Placed entries are numbered apart. -/
theorem Placed.gapless {store : EventStore} (placed : store.Placed) :
    Gapless store.gameId store.snapshot := by
  have numbered : store.snapshot.length ≤ 2 ^ 64 → ∀ (index : ℕ) (envelope : GameEventEnvelope),
      store.snapshot[index]? = some envelope → envelope.sequence.toNat = index := by
    intro short index envelope found
    obtain ⟨inRange, _⟩ := List.getElem?_eq_some_iff.mp found
    rw [(placed index envelope found).2]
    exact UInt64.toNat_ofNat_of_lt' (inRange.trans_le short)
  constructor
  · intro envelope member
    obtain ⟨index, found⟩ := List.getElem?_of_mem member
    exact (placed index envelope found).1
  · exact numbered
  · intro short entries drawn byKey
    have increasing : store.snapshot.Pairwise fun earlier later =>
        earlier.sequence.toNat < later.sequence.toNat := by
      rw [List.pairwise_iff_getElem]
      intro left right leftRange rightRange smaller
      rw [numbered short left _ (List.getElem?_eq_getElem leftRange),
        numbered short right _ (List.getElem?_eq_getElem rightRange)]
      exact smaller
    have byNumber := byKey.imp UInt64.le_iff_toNat_le.mp
    exact EventSourcing.sublist_of_ordered increasing drawn byNumber

end EventStore

/-- Stores in memory and the pointers of the handles that were made so far. -/
structure Handles (A : Type) where
  heap : A → EventStore
  arcs : List A

/-- What the holders of handles can do. -/
inductive HandleAction where
  | clone (handle : ℕ)
  | call (handle : ℕ) (call : EventStore.Call)
  deriving DecidableEq, Repr

namespace Handles

variable {A : Type}

/-- What any handle reads as the log. -/
def snapshot (handles : Handles A) (handle : ℕ) : Option (List GameEventEnvelope) :=
  handles.arcs[handle]?.map fun arc => (handles.heap arc).snapshot

/-- Every handle reads this log, and there is a handle. -/
structure Reads (handles : Handles A) (log : List GameEventEnvelope) : Prop where
  nonempty : handles.arcs ≠ []
  same : ∀ handle < handles.arcs.length, handles.snapshot handle = some log

/-- Every handle points to one store, whose entries are placed. -/
structure Shares (handles : Handles A) (origin : A) (gameId : GameId) : Prop where
  nonempty : handles.arcs ≠ []
  arcs : ∀ arc ∈ handles.arcs, arc = origin
  own : (handles.heap origin).gameId = gameId
  placed : (handles.heap origin).Placed

theorem Shares.getElem? {handles : Handles A} {origin : A} {gameId : GameId}
    (shares : handles.Shares origin gameId) {handle : ℕ} (held : handle < handles.arcs.length) :
    handles.arcs[handle]? = some origin := by
  rw [List.getElem?_eq_getElem held, shares.arcs _ (List.getElem_mem held)]

theorem Shares.reads {handles : Handles A} {origin : A} {gameId : GameId}
    (shares : handles.Shares origin gameId) :
    handles.Reads (handles.heap origin).snapshot where
  nonempty := shares.nonempty
  same handle held := by
    rw [snapshot, shares.getElem? held]
    rfl

variable [DecidableEq A]

/-- A new store, at an address of its own, with one handle. -/
def new (heap : A → EventStore) (origin : A) (gameId : GameId) : Handles A where
  heap := Function.update heap origin (.new gameId)
  arcs := [origin]

/-- Clone a handle, or write through one. -/
def step (fresh : ℕ → Stamp) (handles : Handles A) :
    HandleAction → Handles A × List GameEventEnvelope
  | .clone handle =>
      match handles.arcs[handle]? with
      | some arc => ({ handles with arcs := handles.arcs ++ [arc] }, [])
      | none => (handles, [])
  | .call handle call =>
      match handles.arcs[handle]? with
      | some arc =>
          let (store, returned) := (handles.heap arc).perform fresh call
          ({ handles with heap := Function.update handles.heap arc store }, returned)
      | none => (handles, [])

/-- Any interleaving of actions, with what each of them returned. -/
def run (fresh : ℕ → Stamp) (handles : Handles A) :
    List HandleAction → Handles A × List (List GameEventEnvelope)
  | [] => (handles, [])
  | action :: actions =>
      let (handles, returned) := handles.step fresh action
      let (handles, others) := handles.run fresh actions
      (handles, returned :: others)

theorem shares_new (heap : A → EventStore) (origin : A) (gameId : GameId) :
    (new heap origin gameId).Shares origin gameId := by
  have fromEmpty : (new heap origin gameId).heap origin = .new gameId :=
    Function.update_self origin _ heap
  constructor
  · exact List.cons_ne_nil origin []
  · exact fun arc member => List.mem_singleton.mp member
  · rw [fromEmpty]
    rfl
  · rw [fromEmpty]
    intro index envelope found
    cases found

namespace Shares

variable {handles : Handles A} {origin : A} {gameId : GameId}
  (shares : handles.Shares origin gameId)

include shares

/-- A call through any handle is carried out on the one store. -/
theorem step_call (fresh : ℕ → Stamp) {handle : ℕ} (held : handle < handles.arcs.length)
    (call : EventStore.Call) :
    (handles.step fresh (.call handle call)).1.arcs = handles.arcs ∧
      (handles.step fresh (.call handle call)).1.heap origin =
        ((handles.heap origin).perform fresh call).1 ∧
      (handles.step fresh (.call handle call)).2 =
        ((handles.heap origin).perform fresh call).2 := by
  rw [Handles.step, shares.getElem? held]
  exact ⟨rfl, Function.update_self _ _ _, rfl⟩

/-- One action keeps the handles on their store, whose log grows by what the action returns. -/
theorem step (fresh : ℕ → Stamp) (action : HandleAction) :
    (handles.step fresh action).1.Shares origin gameId ∧
      ((handles.step fresh action).1.heap origin).snapshot =
        (handles.heap origin).snapshot ++ (handles.step fresh action).2 := by
  cases action with
  | clone handle =>
      rw [Handles.step]
      split
      · rename_i arc found
        refine ⟨⟨by simp, ?_, shares.own, shares.placed⟩, (List.append_nil _).symm⟩
        intro other member
        rcases List.mem_append.mp member with before | cloned
        · exact shares.arcs other before
        · obtain rfl := List.mem_singleton.mp cloned
          exact shares.arcs other (List.mem_of_getElem? found)
      · exact ⟨shares, (List.append_nil _).symm⟩
  | call handle call =>
      rcases Nat.lt_or_ge handle handles.arcs.length with held | beyond
      · obtain ⟨arcs, store, returned⟩ := shares.step_call fresh held call
        refine ⟨⟨?_, ?_, ?_, ?_⟩, ?_⟩
        · rw [arcs]
          exact shares.nonempty
        · rw [arcs]
          exact shares.arcs
        · rw [store, EventStore.perform_gameId]
          exact shares.own
        · rw [store]
          exact shares.placed.perform fresh call
        · rw [store, returned, EventStore.perform_snapshot]
      · have missing : handles.arcs[handle]? = none := List.getElem?_eq_none beyond
        rw [Handles.step, missing]
        exact ⟨shares, (List.append_nil _).symm⟩

theorem run (fresh : ℕ → Stamp) (actions : List HandleAction) :
    (handles.run fresh actions).1.Shares origin gameId ∧
      ((handles.run fresh actions).1.heap origin).snapshot =
        (handles.heap origin).snapshot ++ (handles.run fresh actions).2.flatten := by
  induction actions generalizing handles with
  | nil => exact ⟨shares, (List.append_nil _).symm⟩
  | cons action actions induction =>
      obtain ⟨stepped, now⟩ := shares.step fresh action
      obtain ⟨final, later⟩ := induction stepped
      refine ⟨final, ?_⟩
      rw [Handles.run]
      dsimp only
      rw [later, now, List.flatten_cons, List.append_assoc]

end Shares

/-- After any interleaving of calls through any clones of a new store, the log is gapless and
consists of all that was returned, and the next call only appends to it. -/
theorem gapless_run (fresh : ℕ → Stamp) (heap : A → EventStore) (origin : A) (gameId : GameId)
    (actions : List HandleAction) :
    let reached := (new heap origin gameId).run fresh actions
    ∃ log, reached.1.Reads log ∧ EventStore.Gapless gameId log ∧ reached.2.flatten = log ∧
      ∀ handle < reached.1.arcs.length, ∀ call,
        let next := reached.1.step fresh (.call handle call)
        ∃ after, next.1.Reads after ∧ EventStore.Appends log call next.2 after := by
  intro reached
  obtain ⟨shares, grown⟩ := (shares_new heap origin gameId).run fresh actions
  refine ⟨(reached.1.heap origin).snapshot, shares.reads, ?_, ?_, ?_⟩
  · have gapless := shares.placed.gapless
    rwa [shares.own] at gapless
  · have fromEmpty : (new heap origin gameId).heap origin = .new gameId :=
      Function.update_self origin _ heap
    rw [fromEmpty] at grown
    exact grown.symm
  · intro handle held call next
    refine ⟨_, (shares.step fresh (.call handle call)).1.reads, ?_⟩
    obtain ⟨_, store, returned⟩ := shares.step_call fresh held call
    rw [store, returned]
    exact shares.placed.appends fresh call

end Handles

end TicTacTussle
