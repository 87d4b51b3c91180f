import SqlUnits.Database.Query
import SqlUnits.Proofs.Check.Binding
import SqlUnits.Proofs.Database.Run
/-!
The rows of a query. Every row shows one row of the sources, or stands for a group of none; and it
has a value for every result.
-/

namespace SqlUnits

theorem runs_mapM {f : α → Eval β} {as : List α} {bs : List β} {s t : List FunctionCall}
    (found : Runs (as.mapM f) s bs t) :
    List.Forall₂ (fun a b => ∃ before after, Runs (f a) before b after) as bs := by
  induction as generalizing s t bs with
  | nil =>
      obtain ⟨rfl, _⟩ := runs_pure.1 found
      exact .nil
  | cons a as ih =>
      rw [List.mapM_cons] at found
      obtain ⟨b, u, first, found⟩ := runs_bind.1 found
      obtain ⟨rest, w, others, last⟩ := runs_bind.1 found
      obtain ⟨rfl, _⟩ := runs_pure.1 last
      exact .cons ⟨s, u, first⟩ (ih others)

/-- Every row of a query has a value for every column. -/
def QueryPlan.Fills (plan : QueryPlan) : Prop :=
  ∀ env, ∀ row ∈ (plan.run env).items, row.length = plan.columns.length

namespace Query

open Sql (Expr Core ResultColumn OrderTerm SetOp)

/-! Sorting, distinct rows and groups. -/

variable {row : List Stored × List Stored} {run : Run (List Stored × List Stored)}

theorem mem_distinctEvents {collations : List Collation} {seen : List (List Stored)}
    {events : List (Event (List Stored × List Stored))}
    (member : row ∈ (distinctEvents collations seen events).filterMap Run.Event.item?) :
    row ∈ events.filterMap Run.Event.item? := by
  induction events generalizing seen with
  | nil => exact member
  | cons event events ih =>
      cases event with
      | called call => exact ih member
      | item other =>
          unfold distinctEvents at member
          split at member
          · exact .tail other (ih member)
          · rcases List.mem_cons.1 member with rfl | later
            · exact .head _
            · exact .tail other (ih later)

theorem mem_sortedRun {orders : List KeyOrder} (member : row ∈ (sortedRun orders run).items) :
    row ∈ run.items := by
  unfold sortedRun at member
  split at member
  · exact member
  · have sorted := Run.mem_gather member
    rw [Run.items_ofList] at sorted
    exact List.mem_mergeSort.1 sorted

/-- Groups are never empty, and hold the rows that they are made of. -/
theorem mem_partition {collations : List Collation} {rows : List (List Stored × List Stored)}
    {group : List (List Stored)} (member : group ∈ partition collations rows) :
    group ≠ [] ∧ ∀ row ∈ group, ∃ key, (row, key) ∈ rows := by
  unfold partition at member
  obtain ⟨g, inside, rfl⟩ := List.mem_map.1 (List.mem_reverse.1 member)
  obtain ⟨some_, known⟩ : g.2 ≠ [] ∧ ∀ row ∈ g.2, ∃ key, (row, key) ∈ rows := by
    refine List.foldlRecOn (motive := fun groups => ∀ g ∈ groups, g.2 ≠ [] ∧
      ∀ row ∈ g.2, ∃ key, (row, key) ∈ rows) _ _ (by simp) ?_ g inside
    intro groups all pair among
    obtain ⟨row, key⟩ := pair
    have here : ∀ x ∈ [row], ∃ key, (x, key) ∈ rows := by
      intro x single
      obtain rfl := List.mem_singleton.1 single
      exact ⟨key, List.mem_mergeSort.1 among⟩
    cases groups with
    | nil => exact List.forall_mem_singleton.2 ⟨by simp, here⟩
    | cons first groups =>
        obtain ⟨k, members⟩ := first
        dsimp only
        split
        · refine List.forall_mem_cons.2 ⟨⟨by simp, ?_⟩, (List.forall_mem_cons.1 all).2⟩
          exact List.forall_mem_cons.2 ⟨here row (.head []), (List.forall_mem_cons.1 all).1.2⟩
        · exact List.forall_mem_cons.2 ⟨⟨by simp, here⟩, all⟩
  constructor
  · simpa using some_
  · intro row among
    exact known row (List.mem_reverse.1 among)

/-! The row that a group shows. -/

theorem best_lt {collation : Collation} {wanted : Ordering} {values : List Stored} {i : Nat}
    {v : Stored} (found : AggregateKind.best collation wanted values = some (i, v)) :
    i < values.length := by
  have inside : ∀ p ∈ values.zipIdx, p.2 < values.length := by
    intro p member
    simpa using (List.mem_zipIdx member).2.1
  have chosen : ∀ p, AggregateKind.best collation wanted values = some p →
      p.1 < values.length := by
    unfold AggregateKind.best
    refine List.foldlRecOn (motive := fun start : Option (Nat × Stored) =>
      ∀ p, start = some p → p.1 < values.length) _ _ (by simp) ?_
    intro start before pair member p chosen
    have here := inside pair member
    cases start with
    | none =>
        dsimp only at chosen
        split at chosen
        · cases chosen
        · cases chosen
          exact here
    | some old =>
        dsimp only at chosen
        split at chosen
        · cases chosen
          exact here
        · cases chosen
          exact before _ rfl
  exact chosen (i, v) found

theorem plainRow_mem {calls : List (AggregateCall × List (List Stored))}
    {rows : List (List Stored)} (some_ : rows ≠ [])
    (each : ∀ c ∈ calls, c.2.length = rows.length) :
    ∃ row ∈ rows, plainRow calls rows = some row := by
  unfold plainRow
  dsimp only
  split
  · cases rows with
    | nil => exact absurd rfl some_
    | cons row rows => exact ⟨row, .head rows, rfl⟩
  · rename_i call args found
    have length := each _ (List.mem_reverse.1 (List.mem_of_find?_eq_some found))
    split
    · rename_i i v best
      have inside := best_lt best
      rw [List.length_map, length] at inside
      exact ⟨rows[i], List.getElem_mem inside, List.getElem?_eq_getElem inside⟩
    · exact ⟨rows.getLast some_, List.getLast_mem some_, List.getLast?_eq_some_getLast some_⟩

theorem groupFrame_shows {env : Env} {width : Nat} {calls : List AggregateCall}
    {rows : List (List Stored)} {frame : RowFrame} {s t : List FunctionCall}
    (found : Runs (groupFrame env width calls rows) s frame t) (some_ : rows ≠ []) :
    frame.values ∈ rows := by
  unfold groupFrame at found
  obtain ⟨results, u, evaluated, last⟩ := runs_bind.1 found
  obtain ⟨rfl, _⟩ := runs_pure.1 last
  have lengths : ∀ c ∈ calls.zip (results.map (·.2)), c.2.length = rows.length := by
    intro c member
    obtain ⟨result, inside, same⟩ := List.mem_map.1 (List.of_mem_zip member).2
    obtain ⟨call, _, before, after, one⟩ := (forall₂_mem (runs_mapM evaluated)).2 result inside
    rw [← same]
    unfold aggregateValue at one
    obtain ⟨args, _, read, one⟩ := runs_bind.1 one
    dsimp only at one
    generalize call.kind.result call.collation (if call.distinct = true then _ else _) = value
      at one
    cases value with
    | ok v =>
        obtain ⟨rfl, _⟩ := runs_pure.1 one
        rw [List.length_map, (runs_mapM read).length_eq]
    | error m => exact (not_runs_throw one).elim
  obtain ⟨row, member, plain⟩ := plainRow_mem some_ lengths
  rw [plain]
  exact member

namespace CorePlan

variable {p : CorePlan} {env : Env}

/-- A frame that shows a row of the sources, or stands for a group of none. -/
def Shows (p : CorePlan) (env : Env) (frame : RowFrame) : Prop :=
  frame.values ∈ (p.filtered env).items ∨
    (p.aggregated = true ∧ p.groups = [] ∧ (p.filtered env).items = [])

theorem filtered_mem {row : List Stored} (member : row ∈ (p.filtered env).items) :
    row ∈ (p.rows env).items := by
  unfold filtered at member
  split at member
  · exact member
  · exact Run.mem_filterEval member

theorem frames_shows (aggregated : p.aggregated = true) {frame : RowFrame}
    (member : frame ∈ (p.frames env).items) : p.Shows env frame := by
  unfold frames at member
  have member := Run.mem_gather member
  obtain ⟨group, inside, calls, made⟩ := Run.mem_mapEval member
  rw [Run.items_ofList] at inside
  have keyed : ∀ row key, (row, key) ∈ ((p.filtered env).mapEval fun row => do
      let key ← p.groups.mapM fun t => t.eval (env.push ⟨row, []⟩)
      pure (row, key)).items → row ∈ (p.filtered env).items := by
    intro row key read
    obtain ⟨x, known, _, made⟩ := Run.mem_mapEval read
    obtain ⟨_, _, _, last⟩ := runs_bind.1 made
    obtain ⟨same, _⟩ := runs_pure.1 last
    cases same
    exact known
  split at inside
  · rename_i none
    obtain rfl := List.mem_singleton.1 inside
    cases rows : ((p.filtered env).mapEval fun row => do
        let key ← p.groups.mapM fun t => t.eval (env.push ⟨row, []⟩)
        pure (row, key)).items with
    | nil =>
        right
        have none := List.isEmpty_iff.1 none
        simp only [none, List.mapM_nil, pure_bind] at rows
        rw [Run.items_mapEval_pure] at rows
        exact ⟨aggregated, none, List.map_eq_nil_iff.1 rows⟩
    | cons pair rest =>
        rw [rows] at made
        left
        have shown := groupFrame_shows made (by simp)
        obtain ⟨pair, among, same⟩ := List.mem_map.1 shown
        rw [← rows] at among
        rw [← same]
        exact keyed pair.1 pair.2 among
  · obtain ⟨some_, known⟩ := mem_partition inside
    left
    obtain ⟨key, among⟩ := known _ (groupFrame_shows made some_)
    exact keyed _ key among

/-- Every row of a core has the values of its results, in a frame that shows a row. -/
theorem mem_run {values : List Stored} (member : values ∈ (p.run env).items) :
    ∃ frame, p.Shows env frame ∧ List.Forall₂
      (fun r v => ∃ before after, Runs (r.term.eval (env.push frame)) before v after)
      p.results values := by
  unfold run at member
  obtain ⟨row, inside, same⟩ := Run.mem_bind member
  obtain rfl := List.mem_singleton.1 same
  have inside := mem_sortedRun inside
  have projected : row ∈ ((p.resultFrames env).mapEval (p.project env)).items := by
    split at inside
    · exact mem_distinctEvents inside
    · exact inside
  obtain ⟨frame, shown, calls, made⟩ := Run.mem_mapEval projected
  refine ⟨frame, ?_, ?_⟩
  · unfold resultFrames at shown
    split at shown
    · rename_i aggregated
      exact frames_shows aggregated (Run.mem_filterEval shown)
    · obtain ⟨values, known, single⟩ := Run.mem_bind shown
      obtain rfl := List.mem_singleton.1 single
      exact .inl known
  · unfold project at made
    obtain ⟨values, _, read, made⟩ := runs_bind.1 made
    obtain ⟨keys, _, _, last⟩ := runs_bind.1 made
    obtain ⟨rfl, _⟩ := runs_pure.1 last
    exact runs_mapM read

end CorePlan

/-! A value for every column. -/

variable {r : Resolver} {scope : Scope} {s t : List AggregateCall} {plan : QueryPlan}

theorem CorePlan.plan_fills (p : CorePlan) : p.plan.Fills := by
  intro env row member
  obtain ⟨_, _, values⟩ := CorePlan.mem_run member
  exact values.length_eq.symm.trans (List.length_map Result.info).symm

theorem valuesPlan_fills {rows : List (List Expr)}
    (found : Plans (valuesPlan r scope rows) s plan t) : plan.Fills := by
  unfold valuesPlan at found
  dsimp only at found
  split at found
  · exact (not_plans_refuse found).elim
  · rename_i even
    obtain ⟨terms, u, resolved, last⟩ := plans_bind.1 found
    obtain ⟨rfl, _⟩ := plans_pure.1 last
    intro env row member
    obtain ⟨ts, among, _, values⟩ := Run.mem_mapEval member
    rw [Run.items_ofList] at among
    obtain ⟨es, written, _, _, each⟩ := (forall₂_mem (plans_mapM resolved)).2 ts among
    have length : es.length = (rows.head?.map List.length).getD 0 := by
      by_contra differs
      exact even (List.any_eq_true.2 ⟨es, written, by simpa using differs⟩)
    rw [← (runs_mapM values).length_eq, ← (plans_mapM each).length_eq, length]
    simp

theorem corePlan_fills {order : List OrderTerm} {core : Core}
    (found : Plans (corePlan r scope order core) s plan t) : plan.Fills := by
  cases core with
  | values rows => exact valuesPlan_fills found
  | select distinct columns sources condition groups having =>
      obtain ⟨⟨p, calls⟩, u, _, last⟩ := plans_bind.1 found
      obtain ⟨rfl, _⟩ := plans_pure.1 last
      exact p.plan_fills

theorem mem_setOf {collations : List Collation} {rows : List (List Stored)} {row : List Stored}
    (member : row ∈ setOf collations rows) : row ∈ rows := by
  have inside : ∀ x ∈ (sortRows (ascending collations) (rows.map fun row => (row, row))).map (·.1),
      x ∈ rows := by
    intro x sorted
    obtain ⟨pair, among, rfl⟩ := List.mem_map.1 sorted
    obtain ⟨y, known, rfl⟩ := List.mem_map.1 (List.mem_mergeSort.1 among)
    exact known
  have kept : ∀ x ∈ setOf collations rows, x ∈ rows := by
    intro x member
    unfold setOf at member
    refine List.foldlRecOn (motive := fun kept => ∀ x ∈ kept, x ∈ rows) _ _ (by simp) ?_ x
      (List.mem_reverse.1 member)
    intro kept all row among
    have here := inside row among
    cases kept with
    | nil => exact List.forall_mem_singleton.2 here
    | cons last more =>
        dsimp only
        split
        · exact List.forall_mem_cons.2 ⟨here, (List.forall_mem_cons.1 all).2⟩
        · exact List.forall_mem_cons.2 ⟨here, all⟩
  exact kept row member

theorem mem_combineRows {collations : List Collation} {op : SetOp} {a b : List (List Stored)}
    {row : List Stored} (member : row ∈ combineRows collations op a b) : row ∈ a ∨ row ∈ b := by
  cases op with
  | union => exact List.mem_append.1 (mem_setOf member)
  | unionAll => exact List.mem_append.1 member
  | intersect => exact .inl (List.mem_filter.1 (mem_setOf member)).1
  | except => exact .inl (List.mem_filter.1 (mem_setOf member)).1

theorem combine_fills {op : SetOp} {a b : QueryPlan} (first : a.Fills) (second : b.Fills)
    (same : b.columns.length = a.columns.length) :
    (combine op a b).Fills ∧ (combine op a b).columns.length = a.columns.length := by
  have width : (combine op a b).columns.length = a.columns.length := by
    simp [combine, same]
  refine ⟨?_, width⟩
  intro env row member
  rw [width]
  simp only [combine] at member
  split at member
  · rcases Run.mem_append member with left | right
    · exact first env row left
    · exact (second env row right).trans same
  · have member := Run.mem_gather (Run.mem_gather member)
    rw [Run.items_ofList] at member
    rcases mem_combineRows member with left | right
    · exact first env row left
    · exact (second env row right).trans same

theorem combineAll_fills {others : List (SetOp × QueryPlan)} (fills : plan.Fills)
    (all : ∀ p ∈ others, p.2.Fills ∧ p.2.columns.length = plan.columns.length) :
    (combineAll plan others).Fills := by
  induction others generalizing plan with
  | nil => exact fills
  | cons other others ih =>
      obtain ⟨op, next⟩ := other
      obtain ⟨⟨nextFills, same⟩, later⟩ := List.forall_mem_cons.1 all
      obtain ⟨combined, width⟩ := @combine_fills op _ _ fills nextFills same
      apply ih combined
      intro p member
      rw [width]
      exact later p member

theorem compoundPlans_fills {core : Core} {rest : List (SetOp × Core)}
    {others : List (SetOp × QueryPlan)}
    (found : Plans (compoundPlans r scope core rest) s (plan, others) t) :
    plan.Fills ∧ ∀ p ∈ others, p.2.Fills ∧ p.2.columns.length = plan.columns.length := by
  induction rest generalizing core s t plan others with
  | nil =>
      obtain ⟨_, _, first, last⟩ := plans_bind.1 found
      obtain ⟨same, _⟩ := plans_pure.1 last
      cases same
      exact ⟨corePlan_fills first, nofun⟩
  | cons pair rest ih =>
      obtain ⟨op, next⟩ := pair
      obtain ⟨⟨second, more⟩, _, later, found⟩ := plans_bind.1 found
      obtain ⟨first, _, here, found⟩ := plans_bind.1 found
      obtain ⟨_, _, even, last⟩ := plans_bind.1 found
      obtain ⟨same, _⟩ := plans_pure.1 last
      cases same
      obtain ⟨fills, all⟩ := ih later
      have width : second.columns.length = plan.columns.length := by
        unfold sameWidth at even
        split at even
        · exact (not_plans_refuse even).elim
        · rename_i same
          exact (not_not.1 same).symm
      refine ⟨corePlan_fills here, List.forall_mem_cons.2 ⟨⟨fills, width⟩, ?_⟩⟩
      intro p member
      rw [← width]
      exact all p member

theorem mem_cut {limit offset : Option Int} {run : Run (List Stored)} {row : List Stored}
    (member : row ∈ (cut limit offset run).items) : row ∈ run.items := by
  unfold cut at member
  dsimp only at member
  split at member
  · split at member
    · exact Run.mem_drop member
    · exact Run.mem_drop (Run.mem_take member)
  · exact Run.mem_drop member

theorem mem_limited {limit offset : Option Term} {env : Env} {row : List Stored}
    (member : row ∈ ((limited limit offset plan).run env).items) : row ∈ (plan.run env).items := by
  unfold limited at member
  split at member
  · exact member
  · obtain ⟨_, _, member⟩ := Run.mem_bind member
    exact mem_cut member

theorem limited_columns (limit offset : Option Term) (plan : QueryPlan) :
    (limited limit offset plan).columns = plan.columns := by
  unfold limited
  split <;> rfl

theorem sortCompound_fills (keys : List SortKey) (fills : plan.Fills) :
    (sortCompound keys plan).Fills := by
  intro env row member
  obtain ⟨pair, sorted, single⟩ := Run.mem_bind member
  obtain rfl := List.mem_singleton.1 single
  obtain ⟨values, known, single⟩ := Run.mem_bind (mem_sortedRun sorted)
  obtain rfl := List.mem_singleton.1 single
  exact fills env values known

/-- Every row of a query has a value for every column. -/
theorem resolve_fills {q : Sql.Select} (found : Plans (resolve r scope q) s plan t) :
    plan.Fills := by
  obtain ⟨common, first, others, order, limit, offset⟩ := q
  obtain ⟨limit, _, _, found⟩ := plans_bind.1 found
  obtain ⟨offset, _, _, found⟩ := plans_bind.1 found
  have whole : ∀ {inner : QueryPlan}, inner.Fills → (limited limit offset inner).Fills := by
    intro inner fills env row member
    rw [limited_columns]
    exact fills env row (mem_limited member)
  cases others with
  | nil =>
      obtain ⟨inner, _, core, last⟩ := plans_bind.1 found
      obtain ⟨rfl, _⟩ := plans_pure.1 last
      exact whole (corePlan_fills core)
  | cons other others =>
      obtain ⟨⟨start, rest⟩, _, cores, found⟩ := plans_bind.1 found
      obtain ⟨keys, _, _, last⟩ := plans_bind.1 found
      obtain ⟨rfl, _⟩ := plans_pure.1 last
      obtain ⟨fills, all⟩ := compoundPlans_fills cores
      have combined := combineAll_fills fills all
      apply whole
      split
      · exact combined
      · exact sortCompound_fills keys combined

/-! A query of one core. -/

theorem joinStep_eq {part : Source.JoinPart} {step : Source.JoinStep}
    (found : Plans (Source.joinStep r scope part) s step t) :
    step.kind = part.kind ∧ step.plan = part.plan := by
  obtain ⟨_, _, _, last⟩ := plans_bind.1 found
  obtain ⟨rfl, _⟩ := plans_pure.1 last
  exact ⟨rfl, rfl⟩

def Clauses.core (c : Clauses) : Sql.Core :=
  .select c.distinct c.columns c.sources c.condition c.groups c.having

/-- The results of a core are those of its items, and its rows those of its joined sources. -/
theorem selectCore_eq {clauses : Clauses} {order : List OrderTerm} {p : CorePlan}
    (found : Plans (selectCore r scope clauses order) s p t) :
    ∃ infos parts expanded steps u v w,
      Plans (Source.arranged r scope clauses.sources) s (infos, parts) u ∧
      Plans (clauses.columns.mapM (expand r
        { scope with levels := ⟨infos, []⟩ :: scope.levels, aggregates := .collected } infos))
        v expanded w ∧
      p.results = expanded.flatten ∧ p.rows = Source.joinedRows steps ∧
      steps.map (fun s => (s.kind, s.plan)) = parts.map fun s => (s.kind, s.plan) := by
  obtain ⟨⟨infos, parts⟩, u, arranged, found⟩ := plans_bind.1 found
  obtain ⟨expanded, w, items, found⟩ := plans_bind.1 found
  obtain ⟨_, _, _, found⟩ := plans_bind.1 found
  dsimp only at found
  split at found
  · obtain ⟨_, _, refused, _⟩ := plans_bind.1 found
    exact (not_plans_refuse refused).elim
  · obtain ⟨_, _, _, found⟩ := plans_bind.1 found
    obtain ⟨_, _, _, found⟩ := plans_bind.1 found
    obtain ⟨steps, _, joined, found⟩ := plans_bind.1 found
    obtain ⟨_, _, _, found⟩ := plans_bind.1 found
    obtain ⟨_, _, _, found⟩ := plans_bind.1 found
    obtain ⟨_, _, _, last⟩ := plans_bind.1 found
    obtain ⟨rfl, _⟩ := plans_pure.1 last
    refine ⟨infos, parts, expanded, steps, _, _, _, arranged, items, rfl, rfl, ?_⟩
    apply Eq.symm
    rw [← List.forall₂_eq_eq_eq, List.forall₂_map_left_iff, List.forall₂_map_right_iff]
    apply (plans_mapM joined).imp
    intro part step made
    obtain ⟨_, _, made⟩ := made
    obtain ⟨kind, plan⟩ := joinStep_eq made
    rw [kind, plan]

/-- A query of one core has its rows, or some of them. -/
theorem resolve_core {clauses : Clauses} {order : List OrderTerm} {limit offset : Option Expr}
    {plan : QueryPlan}
    (found : Plans (resolve r scope (.mk [] clauses.core [] order limit offset)) s plan
      t) :
    ∃ p calls limit offset,
      Plans (selectCore r { scope with aggregates := .misused "misuse of aggregate function " }
        clauses order) [] p calls ∧
      plan = limited limit offset p.plan := by
  obtain ⟨limit, _, _, found⟩ := plans_bind.1 found
  obtain ⟨offset, _, _, found⟩ := plans_bind.1 found
  obtain ⟨_, _, core, last⟩ := plans_bind.1 found
  obtain ⟨rfl, _⟩ := plans_pure.1 last
  obtain ⟨⟨p, calls⟩, _, separate, last⟩ := plans_bind.1 core
  obtain ⟨rfl, _⟩ := plans_pure.1 last
  exact ⟨p, calls, limit, offset, (plans_separately.1 separate).1, rfl⟩

end Query

end SqlUnits
