import Mathlib.Data.List.Dedup
import SqlUnits.Access.RowFactory
/-!
Requests for factories, one after the other. What a cache has answered it answers again, without
building; what it could not build it builds again. So it has begun one build for each request that
failed and one for each row type and mode that it has a factory of.
-/

namespace SqlUnits

/-- A row type, of rows of any kind, and the mode in which its factory is asked for. -/
structure FactoryRequest where
  {Row : Type}
  row : RowType Row
  isMeta : Bool

def FactoryRequest.key (r : FactoryRequest) : Nat × Bool :=
  (r.row.id, r.isMeta)

/-- What was asked for, and the answer. -/
abbrev FactoryAnswer := (Nat × Bool) × Except AccessError RowFactory

namespace FactoryAnswer

def failures (log : List FactoryAnswer) : Nat :=
  log.countP fun answer => !answer.2.isOk

/-- The row types and modes for which a factory was given. -/
def given (log : List FactoryAnswer) : List (Nat × Bool) :=
  (log.filter (·.2.isOk)).map (·.1)

variable {log : List FactoryAnswer} {key : Nat × Bool}

theorem mem_given : key ∈ given log ↔ ∃ factory, (key, .ok factory) ∈ log := by
  unfold given
  rw [List.mem_map]
  constructor
  · rintro ⟨⟨_, result⟩, member, rfl⟩
    obtain ⟨inside, isOk⟩ := List.mem_filter.1 member
    cases result with
    | error e => cases isOk
    | ok factory => exact ⟨factory, inside⟩
  · rintro ⟨factory, member⟩
    exact ⟨_, List.mem_filter.2 ⟨member, rfl⟩, rfl⟩

theorem failures_ok (log : List FactoryAnswer) (key : Nat × Bool) (factory : RowFactory) :
    failures (log ++ [(key, .ok factory)]) = failures log := by
  simp [failures, Except.isOk, Except.toBool]

theorem failures_error (log : List FactoryAnswer) (key : Nat × Bool) (e : AccessError) :
    failures (log ++ [(key, .error e)]) = failures log + 1 := by
  simp [failures, Except.isOk, Except.toBool]

end FactoryAnswer

namespace RowFactory

variable {registry : Registry} {row : RowType α} {isMeta : Bool} {factory : RowFactory}

theorem build_isMeta (built : build registry row isMeta = .ok factory) :
    factory.isMeta = isMeta := by
  unfold build at built
  split at built
  · cases built
  · cases planned : row.fields.mapM (planField registry row.name isMeta) with
    | error e =>
        rw [planned] at built
        cases built
    | ok plan =>
        rw [planned] at built
        cases built
        rfl

end RowFactory

namespace FactoryCache

/-- Answers requests in their order, from a cache that they leave to one another. -/
def serve (registry : Registry) (cache : FactoryCache) :
    List FactoryRequest → List FactoryAnswer × FactoryCache
  | [] => ([], cache)
  | r :: rest =>
      let (answer, next) := cache.request registry r.row r.isMeta
      let (log, last) := next.serve registry rest
      ((r.key, answer) :: log, last)

/-- A cache that has answered what a log has. -/
structure Recalls (cache : FactoryCache) (log : List FactoryAnswer) : Prop where
  lookup : ∀ key factory,
    cache.factories.lookup key = some factory ↔ (key, .ok factory) ∈ log
  keys : (cache.factories.map (·.1)).Nodup
  builds : cache.builds = FactoryAnswer.failures log + cache.size
  mode : ∀ key factory, cache.factories.lookup key = some factory → factory.isMeta = key.2

section

variable {registry : Registry} {cache : FactoryCache} {log : List FactoryAnswer}
  {row : RowType α} {isMeta : Bool} {factory : RowFactory}

theorem request_hit (known : cache.factories.lookup (row.id, isMeta) = some factory) :
    cache.request registry row isMeta = (.ok factory, cache) := by
  unfold request
  rw [known]

theorem request_failed {e : AccessError}
    (absent : cache.factories.lookup (row.id, isMeta) = none)
    (failed : RowFactory.build registry row isMeta = .error e) :
    cache.request registry row isMeta =
      (.error e, { cache with builds := cache.builds + 1 }) := by
  unfold request
  rw [absent]
  dsimp only
  rw [failed]

theorem request_built (absent : cache.factories.lookup (row.id, isMeta) = none)
    (built : RowFactory.build registry row isMeta = .ok factory) :
    cache.request registry row isMeta =
      (.ok factory, ⟨((row.id, isMeta), factory) :: cache.factories, cache.builds + 1⟩) := by
  unfold request
  rw [absent]
  dsimp only
  rw [built]

theorem Recalls.empty : Recalls {} [] where
  lookup _ _ := by simp
  keys := .nil
  builds := rfl
  mode := nofun

/-- Whatever comes of a request, the cache recalls it with all before. -/
theorem Recalls.request (recalls : cache.Recalls log) (registry : Registry) (row : RowType α)
    (isMeta : Bool) :
    (cache.request registry row isMeta).2.Recalls
      (log ++ [((row.id, isMeta), (cache.request registry row isMeta).1)]) := by
  cases known : cache.factories.lookup (row.id, isMeta) with
  | some factory =>
      rw [request_hit known]
      refine ⟨fun key other => ?_, recalls.keys, ?_, recalls.mode⟩
      · have there := (recalls.lookup _ _).1 known
        rw [recalls.lookup, List.mem_append, List.mem_singleton]
        refine ⟨.inl, fun either => either.elim id fun same => ?_⟩
        cases same
        exact there
      · rw [FactoryAnswer.failures_ok]
        exact recalls.builds
  | none =>
      cases made : RowFactory.build registry row isMeta with
      | error e =>
          rw [request_failed known made]
          refine ⟨fun key other => ?_, recalls.keys, ?_, recalls.mode⟩
          · rw [recalls.lookup, List.mem_append, List.mem_singleton]
            exact ⟨.inl, fun either => either.elim id fun same => by cases same⟩
          · rw [FactoryAnswer.failures_error]
            show cache.builds + 1 = _ + 1 + cache.size
            rw [recalls.builds, Nat.add_right_comm]
      | ok factory =>
          rw [request_built known made]
          have fresh : (row.id, isMeta) ∉ cache.factories.map (·.1) := by
            intro member
            obtain ⟨pair, inside, same⟩ := List.mem_map.1 member
            have other := List.lookup_eq_none_iff.1 known pair inside
            rw [same] at other
            simp at other
          refine ⟨fun key other => ?_, List.nodup_cons.2 ⟨fresh, recalls.keys⟩, ?_, ?_⟩
          · rw [List.lookup_cons, List.mem_append, List.mem_singleton]
            by_cases same : key = (row.id, isMeta)
            · subst same
              have absent : ((row.id, isMeta), .ok other) ∉ log := by
                rw [← recalls.lookup, known]
                nofun
              simp [absent, eq_comm]
            · have apart : (key == (row.id, isMeta)) = false := beq_eq_false_iff_ne.2 same
              simp [apart, same, recalls.lookup]
          · rw [FactoryAnswer.failures_ok]
            show cache.builds + 1 = _ + (cache.size + 1)
            rw [recalls.builds, Nat.add_assoc]
          · intro key other found
            rw [List.lookup_cons] at found
            split at found
            · next same =>
              cases found
              rw [eq_of_beq same]
              exact RowFactory.build_isMeta made
            · exact recalls.mode key other found

/-- The cache has factories for what it gave them for, one each. -/
theorem Recalls.size (recalls : cache.Recalls log) :
    cache.size = (FactoryAnswer.given log).dedup.length := by
  have members (key : Nat × Bool) :
      key ∈ cache.factories.map (·.1) ↔ key ∈ (FactoryAnswer.given log).dedup := by
    have there : (cache.factories.lookup key).isSome = true ↔ key ∈ cache.factories.map (·.1) := by
      rw [List.lookup_isSome_iff, List.mem_map]
      exact ⟨fun ⟨pair, inside, same⟩ => ⟨pair, inside, (eq_of_beq same).symm⟩,
        fun ⟨pair, inside, same⟩ => ⟨pair, inside, beq_iff_eq.2 same.symm⟩⟩
    rw [← there, Option.isSome_iff_exists, List.mem_dedup, FactoryAnswer.mem_given]
    simp only [recalls.lookup]
  have same := (List.perm_ext_iff_of_nodup recalls.keys (List.nodup_dedup _)).2 members
  have length := same.length_eq
  rwa [List.length_map] at length

end

variable {registry : Registry} {cache : FactoryCache} {log : List FactoryAnswer}

theorem serve_cons (registry : Registry) (cache : FactoryCache) (r : FactoryRequest)
    (rest : List FactoryRequest) :
    cache.serve registry (r :: rest) =
      ((r.key, (cache.request registry r.row r.isMeta).1) ::
          ((cache.request registry r.row r.isMeta).2.serve registry rest).1,
        ((cache.request registry r.row r.isMeta).2.serve registry rest).2) :=
  rfl

theorem serve_append (registry : Registry) (cache : FactoryCache)
    (requests more : List FactoryRequest) :
    cache.serve registry (requests ++ more) =
      ((cache.serve registry requests).1 ++
          ((cache.serve registry requests).2.serve registry more).1,
        ((cache.serve registry requests).2.serve registry more).2) := by
  induction requests generalizing cache with
  | nil => rfl
  | cons r requests ih =>
      rw [List.cons_append, serve_cons, serve_cons, ih, List.cons_append]

theorem serve_keys (registry : Registry) (cache : FactoryCache) (requests : List FactoryRequest) :
    (cache.serve registry requests).1.map (·.1) = requests.map (·.key) := by
  induction requests generalizing cache with
  | nil => rfl
  | cons r requests ih =>
      rw [serve_cons, List.map_cons, List.map_cons, ih]

/-- After any requests a cache recalls the answers to them, and those that it began with. -/
theorem Recalls.serve (recalls : cache.Recalls log) (registry : Registry)
    (requests : List FactoryRequest) :
    (cache.serve registry requests).2.Recalls (log ++ (cache.serve registry requests).1) := by
  induction requests generalizing cache log with
  | nil =>
      show cache.Recalls (log ++ [])
      rwa [List.append_nil]
  | cons r requests ih =>
      have next := ih (recalls.request registry r.row r.isMeta)
      rw [List.append_assoc] at next
      exact next

end FactoryCache

end SqlUnits
