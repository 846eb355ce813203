import Mathlib.Algebra.BigOperators.Group.Finset.Piecewise
import TicTacTussle.Pipeline
import TicTacTussle.Progress

/-!
# Every group brings every command

The consumer groups read the same topic into one game loop, which handles each record once for every
group.  A join or a tile is refused when it comes again, a departure is recorded again.
-/

namespace TicTacTussle

open GameDecider EventSourcing Wire

/-- The player whom a command makes leave. -/
def GameCommand.leaver : GameCommand → Option PlayerId
  | .leaveGame playerId => some playerId
  | .joinGame _ _ | .placeTile _ _ => none

@[simp]
theorem leavers_append (left right : List GameEvent) :
    leavers (left ++ right) = leavers left ++ leavers right := by
  simp [leavers]

theorem leavers_of_decide {state : GameState} {command : GameCommand} {events : List GameEvent}
    (accepted : GameDecider.decide state command = .ok events) :
    leavers events = command.leaver.toList := by
  cases command with
  | joinGame playerId name =>
      obtain ⟨_, _, _, rfl⟩ := (decide_joinGame_eq_ok_iff _ _ _ _).mp accepted
      split <;> simp [leavers, GameCommand.leaver]
  | placeTile playerId cell =>
      obtain ⟨_, _, _, rfl⟩ := (decide_placeTile_eq_ok_iff _ _ _ _).mp accepted
      split
      · simp [leavers, GameCommand.leaver]
      · split <;> simp [leavers, GameCommand.leaver]
  | leaveGame playerId =>
      rw [decide_leaveGame, Except.ok.injEq] at accepted
      subst accepted
      split <;> simp [leavers, GameCommand.leaver]

/-- A departure is never refused. -/
theorem leavers_next (log : List GameEvent) (command : GameCommand) :
    leavers (decider.next log command) = leavers log ++ command.leaver.toList := by
  cases decision : decider.decide (decider.hydrate log) command with
  | ok events =>
      rw [decider.next_of_ok decision, leavers_append, leavers_of_decide decision]
  | error error =>
      have refused : decider.Refuses log command := ⟨error, decision⟩
      rw [decider.next_of_refuses refused]
      cases command with
      | leaveGame playerId => exact (not_refuses_leaveGame log playerId refused).elim
      | joinGame | placeTile => simp [GameCommand.leaver]

/-- A run records every departure it is asked for. -/
theorem leavers_run (log : List GameEvent) (commands : List GameCommand) :
    leavers (decider.run log commands) = leavers log ++ commands.filterMap GameCommand.leaver := by
  induction commands generalizing log with
  | nil => simp
  | cons command commands induction =>
      rw [decider.run_cons, induction, leavers_next, List.append_assoc, List.filterMap_cons]
      cases command.leaver <;> rfl

/-- The command asks for the departure of a player from a game. -/
def Asks (gameId : GameId) (leaver : PlayerId) (cmdEnv : CommandEnvelope) : Bool :=
  cmdEnv.gameId = gameId ∧ cmdEnv.command = .leaveGame leaver

theorem count_leavers_addressed (gameId : GameId) (leaver : PlayerId)
    (envelopes : List CommandEnvelope) :
    ((GameService.addressed gameId envelopes).filterMap GameCommand.leaver).count leaver =
      envelopes.countP (Asks gameId leaver) := by
  rw [List.count_filterMap, GameService.addressed, List.countP_map, List.countP_filter]
  apply List.countP_congr
  intro cmdEnv _
  cases command : cmdEnv.command <;> simp [Asks, GameCommand.leaver, command, and_comm]

/-- What a list holds, counted group by group. -/
theorem countP_eq_sum {ι Item : Type} [Fintype ι] [DecidableEq ι] (group : Item → ι)
    (holds : Item → Bool) (items : List Item) :
    items.countP holds =
      ∑ here, (items.filter fun item => group item = here).countP holds := by
  induction items with
  | nil => simp
  | cons item items induction =>
      have grown (here : ι) :
          ((item :: items).filter fun item => group item = here).countP holds =
            (items.filter fun item => group item = here).countP holds +
              if group item = here then (if holds item then 1 else 0) else 0 := by
        by_cases same : group item = here <;> simp [same, List.countP_cons]
      simp only [grown, Finset.sum_add_distrib, Finset.sum_ite_eq, Finset.mem_univ, if_true]
      rw [List.countP_cons, induction]

namespace Pipeline

variable {ι E P B : Type} [DecidableEq ι] [Anyhow E] [EventPublisher E P] [NetworkBroadcaster E B]
  [CommandFromSlice] {partition : Partition} {fresh : ℕ → Stamp} {after : Pipeline ι P B}

/-- The game loop does nothing else than handle commands of the topic. -/
def TopicOnly (inputs : List (PipelineInput ι P B)) : Prop :=
  ∀ service, .work service ∉ inputs

/-- Fed by the topic alone, the log is the run of the commands that were handled. -/
theorem run_events {gameId : GameId} {publisher : P} {broadcaster : B} {committed : ι → ℕ}
    {inputs : List (PipelineInput ι P B)}
    (ran : run partition fresh (.build gameId publisher broadcaster) committed inputs = some after)
    (topicOnly : TopicOnly inputs) :
    after.service.store.events =
      decider.run [] (GameService.addressed gameId (after.handled.map Prod.snd)) := by
  refine (Schedule.runAll_induction
    (fun pipeline : Pipeline ι P B => pipeline.service.store.gameId = gameId ∧
      pipeline.service.store.events =
        decider.run [] (GameService.addressed gameId (pipeline.handled.map Prod.snd)))
    ?_ ⟨rfl, rfl⟩ ran).2
  rintro before after input member ⟨own, logged⟩ stepped
  cases step_spec stepped with
  | skipped | sent | noticed | expired => exact ⟨own, logged⟩
  | worked service => exact (topicOnly service member).elim
  | took queued =>
      refine ⟨(GameService.handle_gameId fresh _ _).trans own, ?_⟩
      have extended := GameService.handle_extends_run fresh own logged
      simpa [handle] using extended _

/-- The commands on the topic that a group had not committed at the start. -/
def pending (partition : Partition) (committed : ℕ) : List CommandEnvelope :=
  (partition.messages.filter fun message => committed ≤ message.offset).filterMap Message.command

/-- Once every group has read the whole topic and the channel is empty, each command on it has been
handled once for every group, and the log has each departure as often as that. -/
theorem run_departures_perGroup [Fintype ι] {gameId : GameId} {publisher : P} {broadcaster : B}
    {committed : ι → ℕ} {inputs : List (PipelineInput ι P B)}
    (ran : run partition fresh (.build gameId publisher broadcaster) committed inputs = some after)
    (topicOnly : TopicOnly inputs) (drained : after.queue = [])
    (caughtUp : ∀ group, ∀ message ∈ partition.messages,
      message.offset < (after.groups group).consumer.position) :
    (∀ holds : CommandEnvelope → Bool, (after.handled.map Prod.snd).countP holds =
        ∑ group, (pending partition (committed group)).countP holds) ∧
      ∀ leaver, (leavers after.service.store.events).count leaver =
        ∑ group, (pending partition (committed group)).countP (Asks gameId leaver) := by
  obtain ⟨channelled, serving⟩ := run_serving ran
  have handled : ∀ holds : CommandEnvelope → Bool, (after.handled.map Prod.snd).countP holds =
      ∑ group, (pending partition (committed group)).countP holds := by
    intro holds
    have order := channelled.order
    rw [drained, List.map_nil, List.append_nil] at order
    rw [order, List.countP_map, countP_eq_sum Dispatch.group]
    apply Finset.sum_congr rfl
    intro group _
    have read : partition.between (committed group) (after.groups group).consumer.position =
        partition.messages.filter fun message => committed group ≤ message.offset := by
      apply List.filter_congr
      intro message member
      simp [caughtUp group message member]
    have sent := serving.sent group
    rw [read] at sent
    rw [← List.countP_map, sent, pending]
  refine ⟨handled, fun leaver => ?_⟩
  rw [run_events ran topicOnly, leavers_run, ← handled, ← count_leavers_addressed]
  simp [leavers]

end Pipeline

namespace Pipeline

private def leaveText : Bytes :=
  ("\x7b\"id\":\"00000000-0000-0000-0000-000000000000\"," ++
    "\"game_id\":\"00000000-0000-0000-0000-000000000000\"," ++
    "\"occurred_at\":\"1970-01-01T00:00:00Z\"," ++
    "\"command\":\x7b\"LeaveGame\":\x7b\"player_id\":1\x7d\x7d\x7d").toUTF8.toList

/-- JSON decoding as far as the record below needs it. -/
private local instance leaveDecoder : CommandFromSlice where
  fromSlice slice :=
    if slice = leaveText then .ok ⟨⟨0⟩, ⟨⟨0⟩⟩, ⟨0⟩, .leaveGame ⟨1⟩⟩ else .error "expected value"

private def oneLeave : Partition where
  messages := [⟨0, some leaveText⟩]
  increasing := by simp

/-- Each group sends the departure, and the loop takes both. -/
private def leftTwice : List (PipelineInput (Fin consumerGroups.length) NoopPublisher
    NoopBroadcaster) :=
  [.receive firstGroup, .receive secondGroup, .take, .take]

private def afterLeaving : Option (Pipeline (Fin consumerGroups.length) NoopPublisher
    NoopBroadcaster) :=
  run oneLeave (fun _ => ⟨⟨0⟩, ⟨0⟩⟩) (.build ⟨⟨0⟩⟩ .mk .mk) (fun _ => 0) leftTwice

theorem run_departures_perGroup_twice : ∃ after, afterLeaving = some after ∧
    (∀ holds : CommandEnvelope → Bool, (after.handled.map Prod.snd).countP holds =
        ∑ _ : Fin consumerGroups.length, (pending oneLeave 0).countP holds) ∧
      ∀ leaver, (leavers after.service.store.events).count leaver =
        ∑ _ : Fin consumerGroups.length, (pending oneLeave 0).countP (Asks ⟨⟨0⟩⟩ leaver) := by
  have runs : afterLeaving.isSome := by decide +kernel
  obtain ⟨after, ran⟩ := Option.isSome_iff_exists.mp runs
  have drained : afterLeaving.map (fun pipeline => pipeline.queue) = some [] := by decide +kernel
  have passed : afterLeaving.map (fun pipeline => Decidable.decide
      (∀ group, 0 < (pipeline.groups group).consumer.position)) = some true := by decide +kernel
  rw [ran] at drained passed
  have topicOnly : TopicOnly leftTwice := by simp [TopicOnly, leftTwice]
  refine ⟨after, ran, run_departures_perGroup ran topicOnly (by simpa using drained) ?_⟩
  intro group message member
  obtain rfl := List.mem_singleton.mp member
  exact of_decide_eq_true (Option.some.inj passed) group

end Pipeline

end TicTacTussle
