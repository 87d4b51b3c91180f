import Mathlib.Order.Basic
import SqlUnits.Project.State
import SqlUnits.Proofs.Json.Record
/-!
The state that is kept between runs. Its entries stay in order of their paths, so each path has one
entry, and the state that is read from a file is the one that was written.
-/

namespace SqlUnits.RunState

variable {path p text typed : String} {entry : UnitState} {entries : List (String × UnitState)}
  {state : RunState}

theorem lookup_insertByPath (path p : String) (entry : UnitState)
    (entries : List (String × UnitState)) :
    (insertByPath path entry entries).lookup p =
      if p == path then some entry else entries.lookup p := by
  induction entries with
  | nil => rw [insertByPath, List.lookup_cons]; cases p == path <;> rfl
  | cons e rest ih =>
      obtain ⟨first, known⟩ := e
      unfold insertByPath
      split
      · next same =>
        obtain rfl := beq_iff_eq.1 same
        rw [List.lookup_cons, List.lookup_cons]
        cases p == first <;> rfl
      · next other =>
        split
        · rw [List.lookup_cons]
          cases p == path <;> rfl
        · rw [List.lookup_cons, List.lookup_cons, ih]
          by_cases here : p = first
          · subst here
            have apart : (p == path) = false := by simpa using other
            simp only [beq_self_eq_true, apart, Bool.false_eq_true, if_false]
          · have there : (p == first) = false := beq_eq_false_iff_ne.2 here
            simp only [there]

theorem mem_insertByPath {e : String × UnitState} (member : e ∈ insertByPath path entry entries) :
    e = (path, entry) ∨ e ∈ entries := by
  induction entries with
  | nil => exact .inl (List.mem_singleton.1 member)
  | cons first rest ih =>
      unfold insertByPath at member
      split at member
      · exact (List.mem_cons.1 member).imp_right (List.mem_cons_of_mem _)
      · split at member
        · exact List.mem_cons.1 member
        · rcases List.mem_cons.1 member with rfl | member
          · exact .inr List.mem_cons_self
          · exact (ih member).imp_right (List.mem_cons_of_mem _)

/-- Entries stand in order of their paths, each path once. -/
def Sorted (entries : List (String × UnitState)) : Prop :=
  entries.Pairwise fun a b => a.1 < b.1

theorem Sorted.insertByPath (sorted : Sorted entries) (path : String) (entry : UnitState) :
    Sorted (insertByPath path entry entries) := by
  induction entries with
  | nil => exact List.pairwise_singleton _ _
  | cons e rest ih =>
      obtain ⟨low, sorted'⟩ := List.pairwise_cons.1 sorted
      unfold RunState.insertByPath
      split
      · next same =>
        obtain rfl := beq_iff_eq.1 same
        exact List.pairwise_cons.2 ⟨low, sorted'⟩
      · next other =>
        split
        · next less =>
          refine List.pairwise_cons.2 ⟨fun a member => ?_, sorted⟩
          rcases List.mem_cons.1 member with rfl | later
          · exact less
          · exact String.lt_trans less (low a later)
        · next notLess =>
          refine List.pairwise_cons.2 ⟨fun a member => ?_, ih sorted'⟩
          rcases mem_insertByPath member with rfl | later
          · exact Std.lt_of_le_of_ne notLess fun same => other (beq_iff_eq.2 same)
          · exact low a later

/-- An entry behind all others is added at the end. -/
theorem insertByPath_last (last : ∀ e ∈ entries, e.1 < path) (entry : UnitState) :
    insertByPath path entry entries = entries ++ [(path, entry)] := by
  induction entries with
  | nil => rfl
  | cons e rest ih =>
      obtain ⟨first, others⟩ := List.forall_mem_cons.1 last
      have other : ¬(e.1 == path) = true := by
        intro same
        rw [beq_iff_eq.1 same] at first
        exact String.lt_irrefl _ first
      have notLess : ¬path < e.1 := String.lt_asymm first
      rw [RunState.insertByPath, if_neg other, if_neg notLess, ih others, List.cons_append]

theorem ofEntries_sorted (entries : List (String × UnitState)) :
    Sorted (ofEntries entries).units :=
  List.foldlRecOn entries _ List.Pairwise.nil fun _ sorted e _ =>
    Sorted.insertByPath sorted e.1 e.2

theorem ofEntries_of_sorted (sorted : Sorted entries) : ofEntries entries = ⟨entries⟩ := by
  have appended (before : List (String × UnitState)) (sorted : Sorted (before ++ entries)) :
      entries.foldl (fun units e => insertByPath e.1 e.2 units) before = before ++ entries := by
    induction entries generalizing before with
    | nil => simp
    | cons e rest ih =>
        obtain ⟨_, behind, low⟩ := List.pairwise_append.1 sorted
        have last : ∀ a ∈ before, a.1 < e.1 := fun a member => low a member e List.mem_cons_self
        have whole : before ++ [e] ++ rest = before ++ e :: rest := by simp
        have next := insertByPath_last last e.2
        rw [List.foldl_cons, ← whole, ← ih behind.of_cons _ (whole ▸ sorted), ← next]
  exact congrArg RunState.mk (appended [] sorted)

theorem record_sorted (sorted : Sorted state.units) (path text typed : String) :
    Sorted (state.record path text typed).units :=
  sorted.insertByPath path _

theorem forget_sorted (sorted : Sorted state.units) (path : String) :
    Sorted (state.forget path).units :=
  List.Pairwise.filter _ sorted

theorem lookup_record (state : RunState) (path text typed p : String) :
    (state.record path text typed).units.lookup p =
      if p == path then some ⟨Digest.ofText text, typed⟩ else state.units.lookup p :=
  lookup_insertByPath path p _ state.units

theorem lookup_forget (state : RunState) (path p : String) :
    (state.forget path).units.lookup p =
      if p == path then none else state.units.lookup p := by
  unfold forget
  dsimp only
  induction state.units with
  | nil => cases p == path <;> rfl
  | cons e rest ih =>
      obtain ⟨first, known⟩ := e
      by_cases same : first = path
      · subst same
        rw [List.filter_cons_of_neg (by simp), ih, List.lookup_cons]
        cases p == first <;> rfl
      · rw [List.filter_cons_of_pos (by simpa using same), List.lookup_cons, List.lookup_cons, ih]
        by_cases here : p = first
        · subst here
          have apart : (p == path) = false := beq_eq_false_iff_ne.2 same
          simp [apart]
        · have there : (p == first) = false := beq_eq_false_iff_ne.2 here
          simp only [there]

theorem toJson_readable (state : RunState) : state.toJson.Readable (Json.maxDepth - 1) := by
  have text (s : String) (n : Nat) : (Json.str s).Readable n := .plain rfl
  have fields (entry : UnitState) : (Json.obj [("hash", .str entry.digest),
      ("typed", .str entry.typed)]).Readable 1 := by
    refine .obj fun m member => ?_
    simp only [List.mem_cons, List.not_mem_nil, or_false] at member
    rcases member with rfl | rfl <;> exact text _ _
  have whole : state.toJson.Readable 3 := by
    refine .obj fun m member => ?_
    obtain rfl := List.mem_singleton.1 member
    refine .obj fun m member => ?_
    obtain ⟨e, _, rfl⟩ := List.mem_map.1 member
    exact fields e.2
  exact whole.mono (by decide)

/-- A state is read back from the file that it was written to. -/
theorem load_toJson (sorted : Sorted state.units) : load state.toJson.pretty = state := by
  have entryOf (entry : UnitState) (t : JsonTree) (spells : t.Spells (.obj
      [("hash", .str entry.digest), ("typed", .str entry.typed)])) :
      entryOfTree t = .ok entry := by
    refine spells.record (by simp) fun m holds => ?_
    have hash : m.required "hash" JsonTree.string = .ok entry.digest :=
      holds.required rfl fun t spells => spells.string
    have typed : m.required "typed" JsonTree.string = .ok entry.typed :=
      holds.required rfl fun t spells => spells.string
    rw [hash, typed]
    rfl
  have whole (t : JsonTree) (spells : t.Spells state.toJson) : ofTree t = .ok state := by
    refine spells.record (by simp) fun m holds => ?_
    refine holds.orElse rfl fun t spells => ?_
    have entries : t.dictionary entryOfTree = .ok state.units := by
      refine spells.dictionary ?_
      rw [List.forall₂_map_left_iff]
      exact List.forall₂_same.2 fun e _ => ⟨rfl, fun t spells => entryOf e.2 t spells⟩
    rw [entries]
    exact congrArg Except.ok (ofEntries_of_sorted sorted)
  unfold load
  rw [JsonTree.read_pretty state.toJson_readable whole]

/-- Whatever a file holds, the state that is read from it is in order. -/
theorem load_sorted (text : String) : Sorted (load text).units := by
  have read {t : JsonTree} {state : RunState} (whole : ofTree t = .ok state) :
      Sorted state.units := by
    obtain ⟨m, found⟩ := JsonTree.record_eq_ok whole
    unfold JsonTree.Members.orElse at found
    split at found
    · next t _ =>
      dsimp only at found
      cases entries : t.dictionary entryOfTree with
      | error e =>
          rw [entries] at found
          cases found
      | ok entries' =>
          rw [entries] at found
          cases found
          exact ofEntries_sorted entries'
    · cases found
      exact List.Pairwise.nil
  unfold load JsonTree.read
  dsimp only
  cases whole : ofTree (JsonTree.ofText text.toList).1 with
  | error e => exact List.Pairwise.nil
  | ok state =>
      cases JsonTree.ending (JsonTree.ofText text.toList) with
      | error e => exact List.Pairwise.nil
      | ok _ => exact read whole

end SqlUnits.RunState
