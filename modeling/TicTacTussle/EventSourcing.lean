import Mathlib.Logic.Relation
import Mathlib.Data.List.Induction
import Mathlib.Data.List.Nodup
import Mathlib.Order.Basic

/-!
# Event-sourced deciders

A decider answers a command with events or a refusal, and folds events into a state.  Its history is
the log of the events it produced, and every decision sees only the fold of that log.  An
`Abstraction` explains a decider by a labelled transition relation over a smaller state space; the
history of a run is then the trace of an abstract execution.
-/

namespace EventSourcing

/-- A command validator together with the fold that rebuilds its state from its events. -/
structure Decider (Command Event State Error : Type*) where
  /-- State of the empty history. -/
  initial : State
  /-- Answer a command with the events it causes, or refuse it. -/
  decide : State → Command → Except Error (List Event)
  /-- Apply one event. -/
  evolve : State → Event → State

/-- An event of a concatenation lies in one of its halves. -/
theorem split_append {α : Type*} {log events before after : List α} {event : α}
    (split : log ++ events = before ++ event :: after) :
    (∃ middle, log = before ++ event :: middle ∧ after = middle ++ events) ∨
      ∃ left, before = log ++ left ∧ events = left ++ event :: after := by
  rcases List.append_eq_append_iff.mp split with
    ⟨left, before_eq, events_eq⟩ | ⟨middle, log_eq, tail_eq⟩
  · exact .inr ⟨left, before_eq, events_eq⟩
  · cases middle with
    | nil => exact .inr ⟨[], by simpa using log_eq.symm, by simpa using tail_eq.symm⟩
    | cons head middle =>
        obtain ⟨rfl, rfl⟩ := List.cons.inj tail_eq
        exact .inl ⟨middle, log_eq, rfl⟩

theorem singleton_eq_append_cons {α : Type*} {only event : α} {left right : List α} :
    [only] = left ++ event :: right ↔ left = [] ∧ only = event ∧ right = [] := by
  cases left <;> simp [eq_comm]

theorem pair_eq_append_cons {α : Type*} {first second event : α} {left right : List α} :
    [first, second] = left ++ event :: right ↔
      (left = [] ∧ first = event ∧ right = [second]) ∨
        (left = [first] ∧ second = event ∧ right = []) := by
  cases left with
  | nil => simp [eq_comm]
  | cons head left =>
      rw [List.cons_append, List.cons.injEq, singleton_eq_append_cons]
      constructor
      · rintro ⟨rfl, rfl, rfl, rfl⟩
        exact .inr ⟨rfl, rfl, rfl⟩
      · rintro (⟨impossible, _⟩ | ⟨same, rfl, rfl⟩)
        · cases impossible
        · obtain ⟨rfl, rfl⟩ := List.cons.inj same
          exact ⟨rfl, rfl, rfl, rfl⟩

/-- Whatever is drawn from a list along which a key increases, and ordered by that key, stands in
the order of the list. -/
theorem sublist_of_ordered {α κ : Type*} [PartialOrder κ] {key : α → κ} {log ordered : List α}
    (increasing : log.Pairwise fun earlier later => key earlier < key later)
    (drawn : ordered.Subperm log)
    (byKey : ordered.Pairwise fun earlier later => key earlier ≤ key later) :
    ordered.Sublist log := by
  obtain ⟨kept, same, inLog⟩ := drawn
  have keptIncreasing := increasing.sublist inLog
  have keys : (kept.map key).Nodup :=
    List.pairwise_map.mpr (keptIncreasing.imp fun smaller => smaller.ne)
  have unique : ∀ left right, left ∈ kept → right ∈ ordered → key left ≤ key right →
      key right ≤ key left → left = right := fun left right leftKept rightOrdered below above =>
    List.inj_on_of_nodup_map keys leftKept (same.mem_iff.mpr rightOrdered)
      (le_antisymm below above)
  have keptByKey := keptIncreasing.imp fun smaller => smaller.le
  obtain rfl := List.Perm.eq_of_pairwise unique keptByKey byKey same
  exact inLog

/-! ## Runs of a decider -/

namespace Decider

variable {Command Event State Error : Type*} (decider : Decider Command Event State Error)

/-- Fold events into a state. -/
def replay (state : State) (events : List Event) : State :=
  events.foldl decider.evolve state

/-- The state a log describes. -/
def hydrate (log : List Event) : State :=
  decider.replay decider.initial log

/-- Append the decided events to the log, or leave it alone on a refusal. -/
def next (log : List Event) (command : Command) : List Event :=
  match decider.decide (decider.hydrate log) command with
  | .ok events => log ++ events
  | .error _ => log

/-- Submit commands one after the other. -/
def run (log : List Event) (commands : List Command) : List Event :=
  commands.foldl decider.next log

/-- Submit commands to a state, skipping refused ones and collecting the emitted events. -/
def play (state : State) : List Command → State × List Event
  | [] => (state, [])
  | command :: commands =>
      match decider.decide state command with
      | .ok events =>
          let later := play (decider.replay state events) commands
          (later.1, events ++ later.2)
      | .error _ => play state commands

/-- The commands of a run that are accepted. -/
def accepted (log : List Event) : List Command → List Command
  | [] => []
  | command :: commands =>
      match decider.decide (decider.hydrate log) command with
      | .ok events => command :: accepted (log ++ events) commands
      | .error _ => accepted log commands

/-- Every command is accepted in its turn. -/
def AcceptsAll (state : State) : List Command → Prop
  | [] => True
  | command :: commands =>
      ∃ events, decider.decide state command = .ok events ∧
        AcceptsAll (decider.replay state events) commands

/-- The command is refused on this log. -/
def Refuses (log : List Event) (command : Command) : Prop :=
  ∃ error, decider.decide (decider.hydrate log) command = .error error

@[simp]
theorem replay_nil (state : State) : decider.replay state [] = state := rfl

@[simp]
theorem replay_cons (state : State) (event : Event) (events : List Event) :
    decider.replay state (event :: events) = decider.replay (decider.evolve state event) events :=
  rfl

@[simp]
theorem replay_append (state : State) (left right : List Event) :
    decider.replay state (left ++ right) = decider.replay (decider.replay state left) right := by
  simp [replay]

theorem hydrate_append (left right : List Event) :
    decider.hydrate (left ++ right) = decider.replay (decider.hydrate left) right := by
  simp [hydrate]

@[simp]
theorem run_nil (log : List Event) : decider.run log [] = log := rfl

@[simp]
theorem run_cons (log : List Event) (command : Command) (commands : List Command) :
    decider.run log (command :: commands) = decider.run (decider.next log command) commands := rfl

@[simp]
theorem run_append (log : List Event) (left right : List Command) :
    decider.run log (left ++ right) = decider.run (decider.run log left) right := by
  simp [run]

theorem next_of_ok {log : List Event} {command : Command} {events : List Event}
    (accepted : decider.decide (decider.hydrate log) command = .ok events) :
    decider.next log command = log ++ events := by
  simp [next, accepted]

theorem next_of_refuses {log : List Event} {command : Command}
    (refused : decider.Refuses log command) : decider.next log command = log := by
  obtain ⟨error, decision⟩ := refused
  simp [next, decision]

/-- A command is refused exactly when it is not accepted with any events. -/
theorem refuses_iff (log : List Event) (command : Command) :
    decider.Refuses log command ↔
      ∀ events, decider.decide (decider.hydrate log) command ≠ .ok events := by
  rw [Refuses]
  cases decider.decide (decider.hydrate log) command with
  | ok events => simp
  | error error => simp

theorem log_prefix_next (log : List Event) (command : Command) :
    log <+: decider.next log command := by
  unfold next
  split
  · exact List.prefix_append _ _
  · exact List.prefix_refl log

/-- A log only ever grows at its end. -/
theorem log_prefix_run (log : List Event) (commands : List Command) :
    log <+: decider.run log commands := by
  induction commands generalizing log with
  | nil => exact List.prefix_refl log
  | cons command commands induction =>
      exact (decider.log_prefix_next log command).trans (induction (decider.next log command))

/-- The log-based and the state-based run of commands emit the same events. -/
theorem run_eq_play (log : List Event) (commands : List Command) :
    decider.run log commands = log ++ (decider.play (decider.hydrate log) commands).2 := by
  induction commands generalizing log with
  | nil => simp [play]
  | cons command commands induction =>
      rw [run_cons, induction]
      cases decision : decider.decide (decider.hydrate log) command with
      | ok events => simp [play, decision, decider.next_of_ok decision, hydrate_append]
      | error error => simp [play, decision, decider.next_of_refuses ⟨error, decision⟩]

/-- Refused commands can be left out of a run. -/
theorem run_accepted (log : List Event) (commands : List Command) :
    decider.run log (decider.accepted log commands) = decider.run log commands := by
  induction commands generalizing log with
  | nil => rfl
  | cons command commands induction =>
      cases decision : decider.decide (decider.hydrate log) command with
      | ok events => simp [accepted, decision, decider.next_of_ok decision, induction]
      | error error =>
          simp [accepted, decision, decider.next_of_refuses ⟨error, decision⟩, induction]

theorem acceptsAll_accepted (log : List Event) (commands : List Command) :
    decider.AcceptsAll (decider.hydrate log) (decider.accepted log commands) := by
  induction commands generalizing log with
  | nil => trivial
  | cons command commands induction =>
      cases decision : decider.decide (decider.hydrate log) command with
      | ok events =>
          have later := induction (log ++ events)
          rw [hydrate_append] at later
          simp [accepted, decision, AcceptsAll, later]
      | error error => simpa [accepted, decision] using induction log

/-- Where the events of a decision show its command, the log shows the accepted commands. -/
theorem filterMap_run {request : Event → Option Command}
    (shows : ∀ {state command events}, decider.decide state command = .ok events →
      events.filterMap request = [command]) (log : List Event) (commands : List Command) :
    (decider.run log commands).filterMap request =
      log.filterMap request ++ decider.accepted log commands := by
  induction commands generalizing log with
  | nil => simp [accepted]
  | cons command commands induction =>
      cases decision : decider.decide (decider.hydrate log) command with
      | ok events =>
          simp [accepted, decision, decider.next_of_ok decision, induction, shows decision]
      | error error =>
          simp [accepted, decision, decider.next_of_refuses ⟨error, decision⟩, induction]

theorem acceptsAll_append {state : State} {left right : List Command} :
    decider.AcceptsAll state (left ++ right) ↔
      decider.AcceptsAll state left ∧ decider.AcceptsAll (decider.play state left).1 right := by
  induction left generalizing state with
  | nil => simp [AcceptsAll, play]
  | cons command commands induction =>
      cases decision : decider.decide state command with
      | ok events => simp [AcceptsAll, play, decision, induction]
      | error error => simp [AcceptsAll, decision]

theorem play_append (state : State) (left right : List Command) :
    decider.play state (left ++ right) =
      ((decider.play (decider.play state left).1 right).1,
        (decider.play state left).2 ++ (decider.play (decider.play state left).1 right).2) := by
  induction left generalizing state with
  | nil => simp [play]
  | cons command commands induction =>
      cases decision : decider.decide state command with
      | ok events => simp [play, decision, induction, List.append_assoc]
      | error error => simp [play, decision, induction]

/-- Every event of a run was emitted by one accepted command of it. -/
theorem run_split {commands : List Command} {before after : List Event} {event : Event}
    (split : decider.run [] commands = before ++ event :: after) :
    ∃ front command back left right rest,
      commands = front ++ command :: back ∧
        before = decider.run [] front ++ left ∧
        decider.decide (decider.hydrate (decider.run [] front)) command =
          .ok (left ++ event :: right) ∧
        after = right ++ rest ∧
        decider.run (decider.run [] (front ++ [command])) back =
          decider.run [] (front ++ [command]) ++ rest := by
  induction commands using List.reverseRecOn generalizing after with
  | nil => simp at split
  | append_singleton commands last induction =>
      have run_last : decider.run [] (commands ++ [last]) =
          decider.next (decider.run [] commands) last := by simp
      cases decision : decider.decide (decider.hydrate (decider.run [] commands)) last with
      | error error =>
          have refused : decider.Refuses (decider.run [] commands) last := ⟨error, decision⟩
          rw [run_last, decider.next_of_refuses refused] at split
          obtain ⟨front, command, back, left, right, rest, rfl, before_eq, accepted, after_eq,
            later⟩ := induction split
          refine ⟨front, command, back ++ [last], left, right, rest, by simp, before_eq, accepted,
            after_eq, ?_⟩
          have whole : decider.run (decider.run [] (front ++ [command])) back =
              decider.run [] (front ++ command :: back) := by simp
          rw [decider.run_append, whole, run_cons, run_nil, decider.next_of_refuses refused,
            ← whole, later]
      | ok events =>
          rw [run_last, decider.next_of_ok decision] at split
          rcases split_append split with ⟨middle, earlier, rfl⟩ | ⟨left, rfl, rfl⟩
          · obtain ⟨front, command, back, left, right, rest, rfl, before_eq, accepted, rfl,
              later⟩ := induction earlier
            refine ⟨front, command, back ++ [last], left, right, rest ++ events, by simp,
              before_eq, accepted, by simp, ?_⟩
            have whole : decider.run (decider.run [] (front ++ [command])) back =
                decider.run [] (front ++ command :: back) := by simp
            rw [decider.run_append, whole, run_cons, run_nil, decider.next_of_ok decision,
              ← whole, later, List.append_assoc]
          · exact ⟨commands, last, [], left, after, [], rfl, rfl, decision, by simp, by simp⟩

end Decider

/-- A labelled transition system whose accepted commands are exactly those of a decider, and whose
emitted events replay to the represented state of the successor. -/
structure Abstraction {Command Event State Error : Type*}
    (decider : Decider Command Event State Error) (Spec : Type*) where
  /-- Abstract state of the empty history. -/
  start : Spec
  /-- One accepted command and the events it emits. -/
  Step : Spec → Command → List Event → Spec → Prop
  /-- The decider's state representing an abstract state. -/
  represent : Spec → State
  /-- The empty history is represented by the initial state. -/
  represent_start : represent start = decider.initial
  /-- The decider accepts a command exactly when some transition carries it. -/
  decide_iff : ∀ spec command events,
    decider.decide (represent spec) command = .ok events ↔ ∃ after, Step spec command events after
  /-- The emitted events carry the represented state along. -/
  replay_step : ∀ {spec command events after}, Step spec command events after →
    decider.replay (represent spec) events = represent after

namespace Abstraction

variable {Command Event State Error Spec : Type*} {decider : Decider Command Event State Error}
  (abstraction : Abstraction decider Spec)

/-- The logs of abstract executions from the start, with the state they end in. -/
inductive History : List Event → Spec → Prop
  | start : History [] abstraction.start
  | step {log : List Event} {spec after : Spec} {command : Command} {events : List Event} :
      History log spec → abstraction.Step spec command events after → History (log ++ events) after

/-- One transition, whatever its label. -/
def Moves (before after : Spec) : Prop :=
  ∃ command events, abstraction.Step before command events after

variable {abstraction}

theorem History.hydrate {log : List Event} {spec : Spec}
    (history : abstraction.History log spec) :
    decider.hydrate log = abstraction.represent spec := by
  induction history with
  | start => exact abstraction.represent_start.symm
  | step _ step induction =>
      rw [decider.hydrate_append, induction, abstraction.replay_step step]

/-- Along a history the decider accepts exactly the abstract transitions. -/
theorem History.decide_iff {log : List Event} {spec : Spec}
    (history : abstraction.History log spec) (command : Command) (events : List Event) :
    decider.decide (decider.hydrate log) command = .ok events ↔
      ∃ after, abstraction.Step spec command events after := by
  rw [history.hydrate, abstraction.decide_iff]

theorem History.refuses_iff {log : List Event} {spec : Spec}
    (history : abstraction.History log spec) (command : Command) :
    decider.Refuses log command ↔ ∀ events after, ¬ abstraction.Step spec command events after := by
  rw [decider.refuses_iff]
  constructor
  · intro never events after step
    exact never events ((history.decide_iff command events).mpr ⟨after, step⟩)
  · intro stuck events accepted
    obtain ⟨after, step⟩ := (history.decide_iff command events).mp accepted
    exact stuck events after step

/-- One command moves a history along at most one transition. -/
theorem History.next {log : List Event} {spec : Spec}
    (history : abstraction.History log spec) (command : Command) :
    (decider.Refuses log command ∧ decider.next log command = log) ∨
      ∃ events after, abstraction.Step spec command events after ∧
        decider.next log command = log ++ events ∧
          abstraction.History (log ++ events) after := by
  cases decision : decider.decide (decider.hydrate log) command with
  | error error =>
      have refused : decider.Refuses log command := ⟨error, decision⟩
      exact .inl ⟨refused, decider.next_of_refuses refused⟩
  | ok events =>
      obtain ⟨after, step⟩ := (history.decide_iff command events).mp decision
      exact .inr ⟨events, after, step, decider.next_of_ok decision, history.step step⟩

/-- Every continuation of a history is a history of a state reachable from its own. -/
theorem History.run {log : List Event} {spec : Spec}
    (history : abstraction.History log spec) (commands : List Command) :
    ∃ after, abstraction.History (decider.run log commands) after ∧
      Relation.ReflTransGen abstraction.Moves spec after := by
  induction commands generalizing log spec with
  | nil => exact ⟨spec, history, .refl⟩
  | cons command commands induction =>
      rw [decider.run_cons]
      rcases history.next command with ⟨_, unchanged⟩ | ⟨events, middle, step, grown, later⟩
      · rw [unchanged]
        exact induction history
      · rw [grown]
        obtain ⟨after, final, reach⟩ := induction later
        exact ⟨after, final, .head ⟨command, events, step⟩ reach⟩

/-- Every state reachable from a history's own is that of some continuation. -/
theorem History.exists_run {log : List Event} {spec after : Spec}
    (history : abstraction.History log spec)
    (reach : Relation.ReflTransGen abstraction.Moves spec after) :
    ∃ commands, abstraction.History (decider.run log commands) after := by
  induction reach with
  | refl => exact ⟨[], history⟩
  | @tail middle after _ move induction =>
      obtain ⟨commands, later⟩ := induction
      obtain ⟨command, events, step⟩ := move
      have accepted := (later.decide_iff command events).mpr ⟨after, step⟩
      have grown : decider.run log (commands ++ [command]) =
          decider.run log commands ++ events := by
        simp [decider.next_of_ok accepted]
      refine ⟨commands ++ [command], ?_⟩
      rw [grown]
      exact later.step step

/-- A command is refused for good exactly when no reachable state takes it. -/
theorem History.refuses_run_iff {log : List Event} {spec : Spec}
    (history : abstraction.History log spec) (command : Command) :
    (∀ commands, decider.Refuses (decider.run log commands) command) ↔
      ∀ after, Relation.ReflTransGen abstraction.Moves spec after →
        ∀ events next, ¬ abstraction.Step after command events next := by
  constructor
  · intro forever after reach
    obtain ⟨commands, later⟩ := history.exists_run reach
    exact (later.refuses_iff command).mp (forever commands)
  · intro stuck commands
    obtain ⟨after, later, reach⟩ := history.run commands
    exact (later.refuses_iff command).mpr (stuck after reach)

/-- The events a continuation appends satisfy whatever every transition from its states grants. -/
theorem History.run_emits {log : List Event} {spec : Spec}
    (history : abstraction.History log spec) (holds : Spec → Prop) (allowed : Event → Prop)
    (closed : ∀ {spec command events after}, holds spec →
      abstraction.Step spec command events after →
        holds after ∧ ∀ event ∈ events, allowed event)
    (held : holds spec) (commands : List Command) :
    ∃ rest, decider.run log commands = log ++ rest ∧ ∀ event ∈ rest, allowed event := by
  induction commands generalizing log spec with
  | nil => exact ⟨[], by simp, by simp⟩
  | cons command commands induction =>
      rw [decider.run_cons]
      rcases history.next command with ⟨_, unchanged⟩ | ⟨events, after, step, grown, grownHistory⟩
      · rw [unchanged]
        exact induction history held
      · obtain ⟨heldAfter, emitted⟩ := closed held step
        obtain ⟨rest, final, laterAllowed⟩ := induction grownHistory heldAfter
        refine ⟨events ++ rest, by rw [grown, final, List.append_assoc], ?_⟩
        intro event member
        rcases List.mem_append.mp member with now | later
        · exact emitted event now
        · exact laterAllowed event later

/-- Abstract executions of a list of commands, all of them accepted. -/
inductive Execution (abstraction : Abstraction decider Spec) (initial : Spec) :
    List Command → List Event → Spec → Prop
  | nil : Execution abstraction initial [] [] initial
  | snoc {commands : List Command} {log : List Event} {spec after : Spec} {command : Command}
      {events : List Event} :
      Execution abstraction initial commands log spec →
      abstraction.Step spec command events after →
      Execution abstraction initial (commands ++ [command]) (log ++ events) after

/-- The decider plays an abstract execution without refusing a command. -/
theorem Execution.play {initial spec : Spec} {commands : List Command} {log : List Event}
    (execution : abstraction.Execution initial commands log spec) :
    decider.AcceptsAll (abstraction.represent initial) commands ∧
      decider.play (abstraction.represent initial) commands =
        (abstraction.represent spec, log) := by
  induction execution with
  | nil => exact ⟨trivial, rfl⟩
  | @snoc commands log spec after command events _ step induction =>
      obtain ⟨accepted, played⟩ := induction
      have decision := (abstraction.decide_iff spec command events).mpr ⟨after, step⟩
      have replayed := abstraction.replay_step step
      constructor
      · rw [decider.acceptsAll_append, played]
        exact ⟨accepted, events, decision, trivial⟩
      · rw [decider.play_append, played]
        simp [Decider.play, decision, replayed]

variable (abstraction)

/-- Every run from the empty log is a history. -/
theorem exists_history (commands : List Command) :
    ∃ spec, abstraction.History (decider.run [] commands) spec := by
  have atStart : abstraction.History [] abstraction.start := .start
  obtain ⟨spec, history, _⟩ := atStart.run commands
  exact ⟨spec, history⟩

/-- The accepted command of a run that emitted one event of its log, with what the log held before
and gained after it. -/
structure Emission (commands : List Command) (before : List Event) (event : Event)
    (after : List Event) where
  front : List Command
  command : Command
  back : List Command
  spec : Spec
  next : Spec
  events : List Event
  left : List Event
  right : List Event
  rest : List Event
  commands_eq : commands = front ++ command :: back
  history : abstraction.History (decider.run [] front) spec
  step : abstraction.Step spec command events next
  events_eq : events = left ++ event :: right
  before_eq : before = decider.run [] front ++ left
  after_eq : after = right ++ rest
  later : decider.run (decider.run [] front ++ events) back =
    decider.run [] front ++ events ++ rest

theorem exists_emission {commands : List Command} {before after : List Event} {event : Event}
    (split : decider.run [] commands = before ++ event :: after) :
    Nonempty (abstraction.Emission commands before event after) := by
  obtain ⟨front, command, back, left, right, rest, commands_eq, before_eq, accepted, after_eq,
    later⟩ := decider.run_split split
  obtain ⟨spec, history⟩ := abstraction.exists_history front
  obtain ⟨next, step⟩ := (history.decide_iff command _).mp accepted
  have grown : decider.run [] (front ++ [command]) =
      decider.run [] front ++ (left ++ event :: right) := by
    simp [decider.next_of_ok accepted]
  rw [grown] at later
  exact ⟨⟨front, command, back, spec, next, _, left, right, rest, commands_eq, history, step, rfl,
    before_eq, after_eq, later⟩⟩

end Abstraction

/-! ## Partial evolution -/

/-- A fold that may fail agrees with a total one as long as an invariant keeps its steps from
failing. -/
theorem foldlM_eq_some {State Item : Type*} {step : State → Item → State}
    {tryStep : State → Item → Option State} {holds : State → Prop} {items : List Item}
    (agrees : ∀ state, ∀ item ∈ items, holds state →
      tryStep state item = some (step state item) ∧ holds (step state item))
    {state : State} (held : holds state) :
    items.foldlM tryStep state = some (items.foldl step state) ∧
      holds (items.foldl step state) := by
  induction items generalizing state with
  | nil => exact ⟨rfl, held⟩
  | cons item items induction =>
      obtain ⟨stepped, after⟩ := agrees state item List.mem_cons_self held
      have later := induction
        (fun state item member => agrees state item (List.mem_cons_of_mem _ member)) after
      rw [List.foldlM_cons, stepped, List.foldl_cons]
      exact later

/-- An evolution that fails outside a domain of events, which every decision stays inside. -/
structure GuardedEvolution {Command Event State Error : Type*}
    (decider : Decider Command Event State Error) where
  tryEvolve : State → Event → Option State
  Valid : Event → Prop
  tryEvolve_of_valid : ∀ {event}, Valid event → ∀ state,
    tryEvolve state event = some (decider.evolve state event)
  decide_valid : ∀ {state command events}, decider.decide state command = .ok events →
    ∀ event ∈ events, Valid event

namespace GuardedEvolution

variable {Command Event State Error : Type*} {decider : Decider Command Event State Error}
  (guarded : GuardedEvolution decider)

/-- Fold events into a state, failing with the first that fails. -/
def tryReplay (state : State) (events : List Event) : Option State :=
  events.foldlM guarded.tryEvolve state

/-- The state a log describes, if its events can be folded. -/
def tryHydrate (log : List Event) : Option State :=
  guarded.tryReplay decider.initial log

theorem tryReplay_eq_some {events : List Event} (valid : ∀ event ∈ events, guarded.Valid event)
    (state : State) : guarded.tryReplay state events = some (decider.replay state events) := by
  have agrees : ∀ state, ∀ event ∈ events, True →
      guarded.tryEvolve state event = some (decider.evolve state event) ∧ True :=
    fun state event member _ => ⟨guarded.tryEvolve_of_valid (valid event member) state, trivial⟩
  exact (foldlM_eq_some agrees trivial).1

theorem tryHydrate_eq_some {log : List Event} (valid : ∀ event ∈ log, guarded.Valid event) :
    guarded.tryHydrate log = some (decider.hydrate log) :=
  guarded.tryReplay_eq_some valid decider.initial

theorem next_valid {log : List Event} (valid : ∀ event ∈ log, guarded.Valid event)
    (command : Command) : ∀ event ∈ decider.next log command, guarded.Valid event := by
  cases decision : decider.decide (decider.hydrate log) command with
  | error error =>
      rw [decider.next_of_refuses ⟨error, decision⟩]
      exact valid
  | ok events =>
      rw [decider.next_of_ok decision]
      exact List.forall_mem_append.mpr ⟨valid, guarded.decide_valid decision⟩

/-- Runs stay inside the domain. -/
theorem run_valid {log : List Event} (valid : ∀ event ∈ log, guarded.Valid event)
    (commands : List Command) : ∀ event ∈ decider.run log commands, guarded.Valid event := by
  induction commands generalizing log with
  | nil => exact valid
  | cons command commands induction => exact induction (guarded.next_valid valid command)

end GuardedEvolution

namespace Decider

section Answers

variable {Command Event State Error : Type*} (decider : Decider Command Event State Error)

/-- The answers to commands submitted one after the other. -/
def answers (log : List Event) : List Command → List (Except Error (List Event))
  | [] => []
  | command :: commands =>
      decider.decide (decider.hydrate log) command :: answers (decider.next log command) commands

end Answers

/-- Translate an answer. -/
def mapAnswer {Event Event' Error Error' : Type*} (onEvent : Event → Event')
    (onError : Error → Error') : Except Error (List Event) → Except Error' (List Event')
  | .ok events => .ok (events.map onEvent)
  | .error error => .error (onError error)

/-- Maps that translate the decisions of one decider into those of another. -/
structure Morphism {Command Event State Error Command' Event' State' Error' : Type*}
    (decider : Decider Command Event State Error)
    (decider' : Decider Command' Event' State' Error') where
  onCommand : Command → Command'
  onEvent : Event → Event'
  onState : State → State'
  onError : Error → Error'
  initial : onState decider.initial = decider'.initial
  evolve : ∀ state event,
    onState (decider.evolve state event) = decider'.evolve (onState state) (onEvent event)
  decide : ∀ state command, decider'.decide (onState state) (onCommand command) =
    mapAnswer onEvent onError (decider.decide state command)

namespace Morphism

variable {Command Event State Error Command' Event' State' Error' : Type*}
  {decider : Decider Command Event State Error} {decider' : Decider Command' Event' State' Error'}
  (morphism : Morphism decider decider')

theorem replay (state : State) (events : List Event) :
    morphism.onState (decider.replay state events) =
      decider'.replay (morphism.onState state) (events.map morphism.onEvent) := by
  induction events generalizing state with
  | nil => rfl
  | cons event events induction =>
      rw [replay_cons, induction, morphism.evolve, List.map_cons, replay_cons]

theorem hydrate (log : List Event) :
    morphism.onState (decider.hydrate log) = decider'.hydrate (log.map morphism.onEvent) := by
  rw [Decider.hydrate, Decider.hydrate, morphism.replay, morphism.initial]

theorem decide_hydrate (log : List Event) (command : Command) :
    decider'.decide (decider'.hydrate (log.map morphism.onEvent)) (morphism.onCommand command) =
      mapAnswer morphism.onEvent morphism.onError
        (decider.decide (decider.hydrate log) command) := by
  rw [← morphism.hydrate, morphism.decide]

theorem next (log : List Event) (command : Command) :
    decider'.next (log.map morphism.onEvent) (morphism.onCommand command) =
      (decider.next log command).map morphism.onEvent := by
  rw [Decider.next, Decider.next, morphism.decide_hydrate]
  cases decider.decide (decider.hydrate log) command with
  | ok events => exact (List.map_append).symm
  | error error => rfl

/-- Translated commands run to the translated log. -/
theorem run (log : List Event) (commands : List Command) :
    decider'.run (log.map morphism.onEvent) (commands.map morphism.onCommand) =
      (decider.run log commands).map morphism.onEvent := by
  induction commands generalizing log with
  | nil => rfl
  | cons command commands induction =>
      rw [List.map_cons, run_cons, run_cons, morphism.next, induction]

/-- Translated commands are answered with the translated answers. -/
theorem answers (log : List Event) (commands : List Command) :
    decider'.answers (log.map morphism.onEvent) (commands.map morphism.onCommand) =
      (decider.answers log commands).map (mapAnswer morphism.onEvent morphism.onError) := by
  induction commands generalizing log with
  | nil => rfl
  | cons command commands induction =>
      rw [List.map_cons, Decider.answers, Decider.answers, List.map_cons, morphism.decide_hydrate,
        morphism.next, induction]

end Morphism

end Decider

end EventSourcing
