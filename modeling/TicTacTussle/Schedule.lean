import Mathlib.Data.List.Basic
import Mathlib.Data.List.Nodup
import Mathlib.Tactic.SplitIfs
import Mathlib.Tactic.Tauto

/-!
# Systems that share a state

A program is a set of systems that run one after the other on one state, in an order that may be
left open; a system may stop the program.  Whatever a system leaves alone survives its turn, so that
a part of the state that only one system writes is settled by the turn of that system.
-/

namespace Schedule

variable {State System View : Type*} {run : State → System → Option State}

/-- Run systems one after the other; `none` is a program that stopped. -/
def runAll (run : State → System → Option State) (state : State) (order : List System) :
    Option State :=
  order.foldlM run state

/-- The system leaves this view of the state alone. -/
def Keeps (run : State → System → Option State) (view : State → View) (system : System) : Prop :=
  ∀ before after, run before system = some after → view after = view before

@[simp]
theorem runAll_nil (state : State) : runAll run state [] = some state := rfl

theorem runAll_cons_eq_some {state final : State} {system : System} {order : List System} :
    runAll run state (system :: order) = some final ↔
      ∃ middle, run state system = some middle ∧ runAll run middle order = some final := by
  rw [runAll, List.foldlM_cons]
  exact Option.bind_eq_some_iff

theorem runAll_append_eq_some {state final : State} {front back : List System} :
    runAll run state (front ++ back) = some final ↔
      ∃ middle, runAll run state front = some middle ∧ runAll run middle back = some final := by
  rw [runAll, List.foldlM_append]
  exact Option.bind_eq_some_iff

theorem runAll_append_singleton_eq_some {state final : State} {front : List System}
    {last : System} :
    runAll run state (front ++ [last]) = some final ↔
      ∃ middle, runAll run state front = some middle ∧ run middle last = some final := by
  simp only [runAll_append_eq_some, runAll_cons_eq_some, runAll_nil, Option.some.injEq,
    exists_eq_right]

/-- What every step keeps holds at the end of a run. -/
theorem runAll_induction (holds : State → Prop) {state final : State} {order : List System}
    (keeps : ∀ before after, ∀ system ∈ order, holds before → run before system = some after →
      holds after)
    (held : holds state) (ran : runAll run state order = some final) : holds final := by
  induction order generalizing state with
  | nil =>
      cases ran
      exact held
  | cons system order induction =>
      obtain ⟨middle, stepped, later⟩ := runAll_cons_eq_some.mp ran
      have after := keeps state middle system List.mem_cons_self held stepped
      exact induction
        (fun before after other member => keeps before after other (List.mem_cons_of_mem _ member))
        after later

/-- A view that every system leaves alone is the same at the end. -/
theorem runAll_keeps (view : State → View) {state final : State} {order : List System}
    (keeps : ∀ system ∈ order, Keeps run view system)
    (ran : runAll run state order = some final) : view final = view state := by
  apply runAll_induction (fun moment => view moment = view state) _ rfl ran
  intro before after system member same stepped
  exact (keeps system member before after stepped).trans same

section Folds

variable {Item Entry : Type*} {step : State → Item → State}

/-- A record that every step appends to is at the end what it was, and more. -/
theorem prefix_foldl {record : State → List Entry}
    (grows : ∀ state item, record state <+: record (step state item)) (state : State)
    (items : List Item) : record state <+: record (items.foldl step state) := by
  induction items generalizing state with
  | nil => exact List.prefix_refl _
  | cons item items induction => exact (grows state item).trans (induction (step state item))

theorem foldl_keeps (view : State → View)
    (keeps : ∀ state item, view (step state item) = view state) (state : State)
    (items : List Item) : view (items.foldl step state) = view state := by
  induction items generalizing state with
  | nil => rfl
  | cons item items induction => exact (induction (step state item)).trans (keeps state item)

/-- An entry of the record that a run leaves was appended by one of its steps, at the moment when
the record was what stands before the entry. -/
theorem exists_recorded {record : State → List Entry} {entry : State → Item → Option Entry}
    (records : ∀ state item, record (step state item) = record state ++ (entry state item).toList)
    {state : State} {items : List Item} {front back : List Entry} {last : Entry}
    (recent : (record state).length ≤ front.length)
    (split : record (items.foldl step state) = front ++ last :: back) :
    ∃ done item left, items = done ++ item :: left ∧ record (done.foldl step state) = front ∧
      entry (done.foldl step state) item = some last := by
  induction items generalizing state with
  | nil =>
      have lengths := congrArg List.length split
      rw [List.foldl_nil, List.length_append, List.length_cons] at lengths
      omega
  | cons item items induction =>
      rcases Nat.lt_or_ge front.length (record (step state item)).length with now | later
      · have grows (state : State) (item : Item) : record state <+: record (step state item) := by
          rw [records]
          exact List.prefix_append _ _
        obtain ⟨rest, whole⟩ := prefix_foldl grows (step state item) items
        rw [List.foldl_cons, ← whole] at split
        rw [records, List.length_append] at now
        rw [records, List.append_assoc] at split
        cases appended : entry state item with
        | none =>
            rw [appended, Option.toList_none, List.length_nil] at now
            omega
        | some new =>
            rw [appended, Option.toList_some, List.length_singleton] at now
            rw [appended, Option.toList_some, List.singleton_append] at split
            obtain ⟨record_eq, tails⟩ := List.append_inj split (by omega)
            obtain ⟨rfl, _⟩ := List.cons.inj tails
            exact ⟨[], item, items, rfl, record_eq, appended⟩
      · obtain ⟨done, next, left, rfl, record_eq, appended⟩ := induction later split
        exact ⟨item :: done, next, left, rfl, record_eq, appended⟩

theorem exists_split_of_prefix {record front back : List Entry} {last : Entry}
    (earlier : record <+: front ++ last :: back) (above : front.length < record.length) :
    ∃ rest, record = front ++ last :: rest := by
  obtain ⟨more, same⟩ := earlier
  have shorter : front <+: record :=
    List.prefix_of_prefix_length_le (List.prefix_append front _) ⟨more, same⟩ (Nat.le_of_lt above)
  obtain ⟨tail, rfl⟩ := shorter
  rw [List.append_assoc, List.append_cancel_left_eq] at same
  cases tail with
  | nil => simp at above
  | cons head tail =>
      obtain ⟨rfl, _⟩ := List.cons.inj same
      exact ⟨tail, rfl⟩

end Folds

/-- The turn of a system in a run: what runs before and after it, and the states around it. -/
structure Turn (run : State → System → Option State) (order : List System) (state final : State)
    (system : System) where
  early : List System
  late : List System
  before : State
  after : State
  split : order = early ++ system :: late
  arrives : runAll run state early = some before
  step : run before system = some after
  leaves : runAll run after late = some final

/-- Every system of an order has a turn. -/
theorem exists_turn {order : List System} {state final : State} {system : System}
    (member : system ∈ order) (ran : runAll run state order = some final) :
    Nonempty (Turn run order state final system) := by
  obtain ⟨early, late, rfl⟩ := List.append_of_mem member
  obtain ⟨before, arrives, rest⟩ := runAll_append_eq_some.mp ran
  obtain ⟨after, step, leaves⟩ := runAll_cons_eq_some.mp rest
  exact ⟨⟨early, late, before, after, rfl, arrives, step, leaves⟩⟩

namespace Turn

variable {order : List System} {state final : State} {system : System}
  (turn : Turn run order state final system) (nodup : order.Nodup)

include nodup

theorem notMem : system ∉ turn.early ∧ system ∉ turn.late := by
  have apart := nodup
  rw [turn.split, List.nodup_middle, List.nodup_cons, List.mem_append, not_or] at apart
  exact apart.1

/-- What only this system writes is, when its turn comes, as it was at the start. -/
theorem view_before {view : State → View} (keeps : ∀ other, other ≠ system → Keeps run view other) :
    view turn.before = view state := by
  refine runAll_keeps view (fun other member => keeps other ?_) turn.arrives
  rintro rfl
  exact (turn.notMem nodup).1 member

/-- What only this system writes is, at the end, as its turn leaves it. -/
theorem view_final {view : State → View} (keeps : ∀ other, other ≠ system → Keeps run view other) :
    view final = view turn.after := by
  refine runAll_keeps view (fun other member => keeps other ?_) turn.leaves
  rintro rfl
  exact (turn.notMem nodup).2 member

variable [DecidableEq System]

theorem mem_early_iff (other : System) :
    other ∈ turn.early ↔ order.idxOf other < order.idxOf system := by
  have absent := (turn.notMem nodup).1
  obtain ⟨early, late, _, _, rfl, _, _, _⟩ := turn
  rw [List.idxOf_append_of_notMem absent, List.idxOf_cons_self, Nat.add_zero]
  constructor
  · intro earlier
    rw [List.idxOf_append_of_mem earlier]
    exact List.idxOf_lt_length_of_mem earlier
  · intro earlier
    by_contra notEarly
    rw [List.idxOf_append_of_notMem notEarly] at earlier
    omega

/-- What another system writes is, at a turn, as that system leaves it if its turn comes earlier,
and as it was at the start otherwise. -/
theorem view_other {writer : System} (distinct : writer ≠ system) {view : State → View}
    (keeps : ∀ other, other ≠ writer → Keeps run view other) :
    view turn.before =
      if order.idxOf writer < order.idxOf system then view final else view state := by
  split_ifs with comesFirst
  · have earlier := (turn.mem_early_iff nodup writer).mpr comesFirst
    have absent : writer ∉ turn.late := by
      intro later
      have apart := nodup
      rw [turn.split] at apart
      exact (List.nodup_append.mp apart).2.2 writer earlier writer
        (List.mem_cons_of_mem _ later) rfl
    have unchanged : view final = view turn.after := by
      refine runAll_keeps view (fun other member => keeps other ?_) turn.leaves
      rintro rfl
      exact absent member
    exact (unchanged.trans (keeps system distinct.symm _ _ turn.step)).symm
  · refine runAll_keeps view (fun other member => keeps other ?_) turn.arrives
    rintro rfl
    exact comesFirst ((turn.mem_early_iff nodup _).mp member)

/-- Of two turns the later one begins where the earlier one and what lies between them end. -/
theorem between {other : System} (second : Turn run order state final other)
    (comesFirst : order.idxOf system < order.idxOf other) :
    ∃ middle, second.early = turn.early ++ system :: middle ∧
      runAll run turn.after middle = some second.before := by
  have member := (second.mem_early_iff nodup system).mpr comesFirst
  obtain ⟨early, middle, split⟩ := List.append_of_mem member
  have whole := second.split
  rw [split, List.append_assoc, List.cons_append] at whole
  have absent := turn.notMem nodup
  obtain ⟨early_eq, _, _⟩ := (List.append_cons_inj_of_notMem absent.1 absent.2).mp
    (turn.split.symm.trans whole)
  have arrives := second.arrives
  rw [split, runAll_append_eq_some] at arrives
  obtain ⟨before, arrived, rest⟩ := arrives
  rw [← early_eq, turn.arrives] at arrived
  obtain rfl := Option.some.inj arrived
  obtain ⟨after, stepped, leaves⟩ := runAll_cons_eq_some.mp rest
  rw [turn.step] at stepped
  obtain rfl := Option.some.inj stepped
  exact ⟨middle, by rw [split, early_eq], leaves⟩

/-- What only two systems write changes in their two turns. -/
theorem view_pair {other : System} (second : Turn run order state final other)
    (comesFirst : order.idxOf system < order.idxOf other) {view : State → View}
    (keeps : ∀ third, third ≠ system → third ≠ other → Keeps run view third) :
    view turn.before = view state ∧ view second.before = view turn.after ∧
      view final = view second.after := by
  obtain ⟨middle, early_eq, between⟩ := turn.between nodup second comesFirst
  have whole := nodup
  rw [second.split, early_eq, List.append_assoc, List.cons_append, List.nodup_middle,
    List.nodup_cons, List.mem_append, List.mem_append, List.mem_cons] at whole
  have absent := second.notMem nodup
  rw [early_eq, List.mem_append, List.mem_cons] at absent
  have keepsAll {front : List System} (noFirst : system ∉ front) (noSecond : other ∉ front)
      {before after : State} (ran : runAll run before front = some after) :
      view after = view before := by
    refine runAll_keeps view (fun third member => keeps third ?_ ?_) ran
    · rintro rfl
      exact noFirst member
    · rintro rfl
      exact noSecond member
  refine ⟨keepsAll ?_ ?_ turn.arrives, keepsAll ?_ ?_ between, keepsAll ?_ ?_ second.leaves⟩ <;>
    tauto

end Turn

end Schedule
