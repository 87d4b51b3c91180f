import Mathlib.Data.List.Forall2
import SqlUnits.Database.Run
import SqlUnits.Database.Scope
import SqlUnits.Proofs.Check.Passing
/-!
How a resolution succeeds, every part of it one after the other; and where the items of a run come
from.
-/

namespace SqlUnits

/-- A resolution that succeeds, with the aggregates collected before and after it. -/
def Plans (p : Planner α) (before : List AggregateCall) (a : α) (after : List AggregateCall) :
    Prop :=
  p.run before = .ok (a, after)

variable {s t : List AggregateCall}

theorem plans_bind {p : Planner α} {k : α → Planner β} {b : β} :
    Plans (p >>= k) s b t ↔ ∃ a u, Plans p s a u ∧ Plans (k a) u b t := by
  unfold Plans
  rw [StateT.run_bind]
  cases p.run s with
  | error e => simp [bind, Except.bind]
  | ok pair =>
      obtain ⟨a, u⟩ := pair
      constructor
      · intro found
        exact ⟨a, u, rfl, found⟩
      · intro found
        obtain ⟨_, _, same, found⟩ := found
        cases same
        exact found

theorem plans_pure {a b : α} : Plans (pure b) s a t ↔ a = b ∧ t = s := by
  unfold Plans
  rw [StateT.run_pure]
  simp [pure, Except.pure, eq_comm]

theorem not_plans_refuse {message : String} {offset : Option Nat} {a : α} :
    ¬Plans (Planner.refuse message offset) s a t := by
  intro found
  cases found

theorem plans_separately {p : Planner α} {a : α} {calls : List AggregateCall} :
    Plans (Planner.separately p) s (a, calls) t ↔ Plans p [] a calls ∧ t = s := by
  unfold Planner.separately Plans
  cases p.run [] with
  | error e =>
      constructor
      · intro found
        cases found
      · intro found
        cases found.1
  | ok pair =>
      change Plans (pure pair : Planner _) s (a, calls) t ↔ _
      rw [plans_pure, Except.ok.injEq, eq_comm]

theorem plans_mapM {f : α → Planner β} {as : List α} {bs : List β}
    (found : Plans (as.mapM f) s bs t) :
    List.Forall₂ (fun a b => ∃ before after, Plans (f a) before b after) as bs := by
  induction as generalizing s t bs with
  | nil =>
      obtain ⟨rfl, _⟩ := plans_pure.1 found
      exact .nil
  | cons a as ih =>
      rw [List.mapM_cons] at found
      obtain ⟨b, u, first, found⟩ := plans_bind.1 found
      obtain ⟨rest, w, others, last⟩ := plans_bind.1 found
      obtain ⟨rfl, _⟩ := plans_pure.1 last
      exact .cons ⟨s, u, first⟩ (ih others)

namespace Run

variable {run : Run α} {a : α} {b : β}

@[simp] theorem items_ofList (as : List α) : (ofList as).items = as := by
  induction as with
  | nil => rfl
  | cons a as ih => exact congrArg (a :: ·) ih

theorem mem_append {first second : Run α} (member : a ∈ (first.append second).items) :
    a ∈ first.items ∨ a ∈ second.items := by
  unfold append at member
  split at member
  · exact .inl member
  · simp only [items, List.filterMap_append, List.mem_append] at member
    exact member

theorem mem_bind {f : α → Run β} (member : b ∈ (run.bind f).items) :
    ∃ a ∈ run.items, b ∈ (f a).items := by
  obtain ⟨events, failure⟩ := run
  change b ∈ (bindEvents f failure events).items at member
  induction events with
  | nil => cases member
  | cons event events ih =>
      cases event with
      | called call =>
          rcases mem_append member with here | later
          · cases here
          · exact ih later
      | item a =>
          rcases mem_append member with here | later
          · exact ⟨a, .head _, here⟩
          · obtain ⟨x, inside, found⟩ := ih later
            exact ⟨x, .tail a inside, found⟩

theorem mem_ofEval {e : Eval α} (member : a ∈ (ofEval e).items) : ∃ calls, Runs e [] a calls := by
  have none (calls : List FunctionCall) :
      (calls.map (Event.called (α := α))).filterMap Event.item? = [] := by
    induction calls with
    | nil => rfl
    | cons call calls ih => exact ih
  unfold ofEval at member
  cases outcome : e.outcome with
  | mk result calls =>
      rw [outcome] at member
      cases result with
      | error m =>
          simp only [items, none] at member
          cases member
      | ok found =>
          simp only [items, List.filterMap_append, none, List.nil_append] at member
          obtain rfl := List.mem_singleton.1 member
          exact ⟨calls, outcome⟩

theorem mem_mapEval {f : α → Eval β} (member : b ∈ (run.mapEval f).items) :
    ∃ a ∈ run.items, ∃ calls, Runs (f a) [] b calls := by
  obtain ⟨a, inside, found⟩ := mem_bind member
  exact ⟨a, inside, mem_ofEval found⟩

theorem items_mapEval_pure (run : Run α) (f : α → β) :
    (run.mapEval fun a => pure (f a)).items = run.items.map f := by
  obtain ⟨events, failure⟩ := run
  induction events with
  | nil => rfl
  | cons event events ih =>
      cases event with
      | called call => exact ih
      | item a => exact congrArg (f a :: ·) ih

theorem mem_filterEval {test : α → Eval Bool} (member : a ∈ (run.filterEval test).items) :
    a ∈ run.items := by
  obtain ⟨x, inside, found⟩ := mem_bind member
  obtain ⟨keep, _, found⟩ := mem_bind found
  cases keep with
  | false => cases found
  | true =>
      obtain rfl := List.mem_singleton.1 found
      exact inside

theorem all_eq {as : List α} {before calls : List FunctionCall}
    (found : Runs run.all before as calls) : as = run.items := by
  unfold all at found
  obtain ⟨_, _, _, rest⟩ := runs_bind.1 found
  split at rest
  · exact (not_runs_throw rest).elim
  · exact (runs_pure.1 rest).1

theorem mem_gather {f : List α → Run β} (member : b ∈ (run.gather f).items) :
    b ∈ (f run.items).items := by
  obtain ⟨as, gathered, found⟩ := mem_bind member
  obtain ⟨calls, gathered⟩ := mem_ofEval gathered
  rw [← all_eq gathered]
  exact found

theorem mem_dropItems (n : Nat) (events : List (Event α))
    (member : a ∈ (dropItems n events).filterMap Event.item?) :
    a ∈ events.filterMap Event.item? := by
  fun_induction dropItems n events with
  | case1 => exact member
  | case2 => cases member
  | case3 n call rest ih => exact ih member
  | case4 n x rest ih => exact .tail x (ih member)

theorem mem_takeItems (n : Nat) (events : List (Event α))
    (member : a ∈ (takeItems n events).1.filterMap Event.item?) :
    a ∈ events.filterMap Event.item? := by
  induction events generalizing n with
  | nil => cases n <;> cases member
  | cons event events ih =>
      cases n with
      | zero => cases member
      | succ n =>
          cases event with
          | called call => exact ih (n + 1) member
          | item x =>
              rcases List.mem_cons.1 member with rfl | later
              · exact .head _
              · exact .tail x (ih n later)

theorem mem_drop {n : Nat} (member : a ∈ (run.drop n).items) : a ∈ run.items :=
  mem_dropItems n run.events member

theorem mem_take {n : Nat} (member : a ∈ (run.take n).items) : a ∈ run.items :=
  mem_takeItems n run.events member

end Run

end SqlUnits
