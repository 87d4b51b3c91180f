import SqlUnits.Proofs.Check.Passing
import SqlUnits.Proofs.Shape.Covering
import SqlUnits.Proofs.Unit.Filling
/-!
What the check sees of a unit that is filled in: the names that placeholders stand for, the values
that are bound to them, and the types of all parameters are what they were before.
-/

namespace SqlUnits

variable {f : Filling}

/-- What statements see of a parameter, besides its type. -/
def ParamDecl.seen (p : ParamDecl) : String × Option Sample :=
  (p.name.name, p.sample)

namespace MethodDecl

theorem param?_seen (m : MethodDecl) (name : String) :
    (m.param? name).map (·.seen) = (m.params.map (·.seen)).find? (·.1 == name) := by
  rw [List.find?_map]
  rfl

namespace Filled

variable {m m' : MethodDecl}

theorem seen (filled : m.Filled f m') : m'.params.map (·.seen) = m.params.map (·.seen) :=
  map_eq_of_forall₂ (fun _ _ param => Prod.ext param.name param.sample) filled.params

theorem param? (filled : m.Filled f m') (name : String) :
    (m'.param? name).map (·.seen) = (m.param? name).map (·.seen) := by
  rw [param?_seen, param?_seen, filled.seen]

theorem resolveName (filled : m.Filled f m') (name : String) :
    m'.resolveName name = m.resolveName name := by
  have length : m'.params.length = m.params.length := filled.params.length_eq.symm
  have numbered (n : Nat) : (m'.params[n]?).map (·.seen) = (m.params[n]?).map (·.seen) := by
    rw [← List.getElem?_map, ← List.getElem?_map, filled.seen]
  have named := filled.param? name
  unfold MethodDecl.resolveName
  rw [filled.name, length]
  cases Text.toNatBelow? (twoPow 64) name.toList with
  | none =>
      cases here : m.param? name with
      | none =>
          rw [here] at named
          rw [Option.map_eq_none_iff.1 named]
      | some p =>
          rw [here] at named
          obtain ⟨p', there, same⟩ := Option.map_eq_some_iff.1 named
          have same : p'.name.name = p.name.name := (Prod.mk.inj same).1
          simp only [there, same]
  | some number =>
      dsimp only
      by_cases zero : number = 0
      · rw [if_pos zero, if_pos zero]
      · rw [if_neg zero, if_neg zero]
        have at_ := numbered (number - 1)
        cases here : m.params[number - 1]? with
        | none =>
            rw [here] at at_
            rw [Option.map_eq_none_iff.1 at_]
        | some p =>
            rw [here] at at_
            obtain ⟨p', there, same⟩ := Option.map_eq_some_iff.1 at_
            have same : p'.name.name = p.name.name := (Prod.mk.inj same).1
            simp only [there, same]

theorem argumentNames (filled : m.Filled f m') {args args' : List Ident}
    (same : args'.map (·.name) = args.map (·.name)) :
    m'.argumentNames args' = m.argumentNames args := by
  have names (m : MethodDecl) (args : List Ident) :
      m.argumentNames args = (args.map (·.name)).mapM m.resolveName := by
    rw [List.mapM_map]
    rfl
  rw [names, names, same, funext filled.resolveName]

/-- Arguments that are not listed are no arguments. -/
theorem names_getD {args args' : Option (List Ident)}
    (same : args'.map (·.map (·.name)) = args.map (·.map (·.name))) :
    (args'.getD []).map (·.name) = (args.getD []).map (·.name) := by
  have listed (args : Option (List Ident)) :
      (args.getD []).map (·.name) = (args.map (·.map (·.name))).getD [] := by
    cases args <;> rfl
  rw [listed, listed, same]

theorem bindPlaceholders (filled : m.Filled f m') {args args' : Option (List Ident)}
    (same : args'.map (·.map (·.name)) = args.map (·.map (·.name))) (q : Query.ParsedQuery) :
    m'.bindPlaceholders args' q = m.bindPlaceholders args q := by
  have isSome : args'.isSome = args.isSome := by
    rw [← Option.isSome_map, same, Option.isSome_map]
  have names := names_getD same
  have length : (args'.getD []).length = (args.getD []).length := by
    rw [← List.length_map (·.name), names, List.length_map]
  unfold MethodDecl.bindPlaceholders
  dsimp only
  rw [isSome, length, filled.argumentNames names, funext filled.resolveName]

theorem executionValue (filled : m.Filled f m') (registry : Registry) (name : String)
    (type : ValueType) :
    registry.executionValue m' name type = registry.executionValue m name type := by
  have sample (m : MethodDecl) :
      (m.param? name).bind (·.sample) = ((m.param? name).map (·.seen)).bind (·.2) := by
    cases m.param? name <;> rfl
  unfold Registry.executionValue
  rw [sample, sample, filled.param?]

theorem ofStatement (filled : m.Filled f m') {s s' : StatementDecl} (statement : s.Filled f s')
    (registry : Registry) (table : ParamTable) (q : Query.ParsedQuery) :
    Arguments.ofStatement registry table m' s' q = Arguments.ofStatement registry table m s q := by
  unfold Arguments.ofStatement
  simp only [filled.bindPlaceholders statement.args, filled.executionValue]

end Filled

end MethodDecl

namespace ParamTable

theorem lookup_cons (name n : String) (param : ResolvedParam)
    (entries : List (String × ResolvedParam)) :
    ((name, param) :: entries).lookup n = if n = name then some param else entries.lookup n := by
  rw [List.lookup_cons]
  by_cases same : n = name
  · simp [same]
  · rw [if_neg same, beq_eq_false_iff_ne.2 same]

theorem lookup_insertByName (name : String) (param : ResolvedParam)
    (entries : List (String × ResolvedParam)) (fresh : entries.lookup name = none) (n : String) :
    (insertByName name param entries).lookup n =
      if n = name then some param else entries.lookup n := by
  induction entries with
  | nil => exact lookup_cons name n param []
  | cons entry rest ih =>
      obtain ⟨first, p⟩ := entry
      rw [lookup_cons] at fresh
      split at fresh
      · cases fresh
      · rename_i other
        unfold insertByName
        split
        · exact lookup_cons name n param _
        · rw [lookup_cons, lookup_cons, ih fresh]
          by_cases same : n = name
          · simp [same, other]
          · simp [same]

/-- A table knows the type that was resolved, and what it knew before. -/
theorem resolve_get? {table next : ParamTable} {name : String} {type : ValueType}
    {site : Location} (resolved : table.resolve name type site = .ok next) :
    next.get? name = some type ∧ ∀ n t, table.get? n = some t → next.get? n = some t := by
  unfold resolve at resolved
  cases found : table.find? name with
  | some known =>
      simp only [found] at resolved
      split at resolved
      · rename_i same
        cases resolved
        exact ⟨by rw [get?, found, ← same, Option.map_some], fun _ _ before => before⟩
      · cases resolved
  | none =>
      simp only [found, Except.ok.injEq] at resolved
      subst resolved
      have whole (n : String) :
          find? ⟨insertByName name ⟨type, site⟩ table.entries⟩ n =
            if n = name then some ⟨type, site⟩ else table.find? n :=
        lookup_insertByName name ⟨type, site⟩ table.entries found n
      refine ⟨by simp [get?, whole], fun n t before => ?_⟩
      have other : n ≠ name := by
        rintro rfl
        simp [get?, found] at before
      rw [get?, whole, if_neg other]
      exact before

end ParamTable

namespace Inference

variable {registry : Registry} {p p' : ParamDecl}

/-- A declared type is the one that a declaration supplies. -/
theorem declaredType_of_type {t type : ValueType} (known : p.type = some t)
    (declared : declaredType p registry = .ok type) : t = type := by
  unfold declaredType at declared
  simp only [known, bind, Except.bind, pure, Except.pure, throw, throwThe,
    MonadExceptOf.throw] at declared
  cases sample : p.sample with
  | none =>
      simp only [sample] at declared
      split at declared <;> cases declared
      rfl
  | some sample' =>
      cases supplied : sample'.valueType? with
      | none =>
          simp only [sample, supplied] at declared
          split at declared <;> cases declared
          rfl
      | some s =>
          simp only [sample, supplied] at declared
          by_cases widens : s.widensTo t = true
          · rw [if_pos widens] at declared
            split at declared <;> cases declared
            rfl
          · rw [if_neg widens] at declared
            cases declared

/-- A parameter that is filled in with the type of its sample supplies the type that it had. -/
theorem declaredType_filled (filled : p.Filled f p')
    (sampled : ∀ t, p.sample.bind Sample.valueType? = some t → f.param p = t) {type : ValueType}
    (declared : declaredType p registry = .ok type) :
    p.type.getD (f.param p) = type ∧ declaredType p' registry = .ok type := by
  cases known : p.type with
  | some t =>
      have same : p'.type = p.type := by rw [filled.type, known, Option.getD_some]
      refine ⟨declaredType_of_type known declared, ?_⟩
      rw [← declared]
      unfold declaredType
      rw [filled.name, filled.sample, same]
  | none =>
      have type' := filled.type
      rw [known, Option.getD_none] at type'
      unfold declaredType at declared ⊢
      simp only [filled.name, type', filled.sample, known, bind, Except.bind, pure, Except.pure,
        throw, throwThe, MonadExceptOf.throw] at declared ⊢
      cases sample : p.sample with
      | none => simp [sample] at declared
      | some sample' =>
          cases supplied : sample'.valueType? with
          | none => simp [sample, supplied] at declared
          | some t =>
              have same : f.param p = t := sampled t (by simp [sample, supplied])
              simp only [sample, supplied, same, Option.getD_none, t.widensTo_refl,
                if_true] at declared ⊢
              refine ⟨?_, declared⟩
              split at declared <;> cases declared
              rfl

/-- Types for parameters that agree with their samples. -/
def Sampled (f : Filling) : Prop :=
  ∀ (p : ParamDecl) t, p.sample.bind Sample.valueType? = some t → f.param p = t

theorem resolveParam_eq_ok {unit : SourceUnit} {table next : ParamTable}
    {d : MethodDecl × ParamDecl} :
    resolveParam unit registry table d = .ok next ↔
      ∃ type, declaredType d.2 registry = .ok type ∧
        table.resolve d.2.name.name type (Location.atLine unit.path d.2.line) = .ok next := by
  unfold resolveParam
  dsimp only
  rw [mapError_eq_ok]
  cases declaredType d.2 registry with
  | error e => simp [bind, Except.bind]
  | ok type => simp [bind, Except.bind]

theorem declarations_filled {unit unit' : SourceUnit} (filled : unit.Filled f unit') :
    List.Forall₂ (fun d d' => d.2.Filled f d'.2) (declarations unit) (declarations unit') := by
  refine List.rel_flatMap filled.methods fun m m' method => ?_
  rw [List.forall₂_map_left_iff, List.forall₂_map_right_iff]
  exact method.params

theorem foldlM_resolveParam_filled {unit unit' : SourceUnit} (filled : unit.Filled f unit')
    (sampled : Sampled f) {ds ds' : List (MethodDecl × ParamDecl)}
    (pairs : List.Forall₂ (fun d d' => d.2.Filled f d'.2) ds ds') {table last : ParamTable}
    (resolved : ds.foldlM (resolveParam unit registry) table = .ok last) :
    ds'.foldlM (resolveParam unit' registry) table = .ok last ∧
      (∀ d ∈ ds, last.get? d.2.name.name = some (d.2.type.getD (f.param d.2))) ∧
        ∀ n t, table.get? n = some t → last.get? n = some t := by
  induction pairs generalizing table with
  | nil =>
      cases resolved
      exact ⟨rfl, nofun, fun _ _ before => before⟩
  | @cons d d' ds ds' param _ ih =>
      rw [List.foldlM_cons] at resolved ⊢
      cases first : resolveParam unit registry table d with
      | error e => simp [first, bind, Except.bind] at resolved
      | ok next =>
          rw [first] at resolved
          obtain ⟨type, declared, one⟩ := resolveParam_eq_ok.1 first
          obtain ⟨supplied, declared'⟩ := declaredType_filled param (sampled d.2) declared
          rw [← param.name, ← param.line, ← filled.path] at one
          obtain ⟨others, types, keeps⟩ := ih resolved
          obtain ⟨here, before⟩ := ParamTable.resolve_get? one
          rw [resolveParam_eq_ok.2 ⟨type, declared', one⟩]
          refine ⟨others, List.forall_mem_cons.2 ⟨?_, types⟩, fun n t known => ?_⟩
          · rw [supplied, ← param.name]
            exact keeps _ _ here
          · exact keeps n t (before n t known)

/-- The types of the parameters of a unit that is filled in are those that were inferred. -/
theorem ofUnit_filled {unit unit' : SourceUnit} (filled : unit.Filled f unit')
    (sampled : Sampled f) {table : ParamTable} (inferred : ofUnit unit registry = .ok table) :
    ofUnit unit' registry = .ok table ∧ ∀ m ∈ unit.methods, ∀ p ∈ m.params,
      table.get? p.name.name = some (p.type.getD (f.param p)) := by
  obtain ⟨again, types, _⟩ :=
    foldlM_resolveParam_filled filled sampled (declarations_filled filled) inferred
  refine ⟨again, fun m member p inside => ?_⟩
  exact types (m, p) (List.mem_flatMap.2 ⟨m, member, List.mem_map_of_mem inside⟩)

end Inference

section

variable {unit unit' : SourceUnit} {m m' : MethodDecl} {s s' : StatementDecl}

theorem SourceUnit.Filled.methodOwner (filled : unit.Filled f unit') (method : m.Filled f m') :
    unit'.methodOwner m' = unit.methodOwner m := by
  rw [SourceUnit.methodOwner, SourceUnit.methodOwner, filled.name, method.name]

theorem SourceUnit.Filled.qualified (filled : unit.Filled f unit') (row : String) :
    unit'.qualified row = unit.qualified row := by
  rw [SourceUnit.qualified, SourceUnit.qualified, filled.name]

theorem SourceUnit.Filled.row? (filled : unit.Filled f unit') (name : String) :
    (unit.row? name = none ∧ unit'.row? name = none) ∨
      ∃ r r', unit.row? name = some r ∧ unit'.row? name = some r' ∧ r.Filled f r' :=
  find?_of_forall₂ (fun _ _ row => by rw [row.name]) filled.rows

theorem StatementDecl.Filled.populates (filled : s.Filled f s') (row : String) :
    s'.populates row = s.populates row := by
  have targets := filled.target
  unfold StatementDecl.populates
  generalize s.target = t, s'.target = t' at targets
  cases targets with
  | none | value => rfl
  | row same => simp only [same]

theorem SourceUnit.Filled.isPopulated (filled : unit.Filled f unit') (row : String) :
    unit'.isPopulated row = unit.isPopulated row :=
  any_eq_of_forall₂ (fun _ _ method => any_eq_of_forall₂ (fun _ _ s => s.populates row)
    method.statements) filled.methods

namespace Validator

theorem unusedParams_filled (filled : unit.Filled f unit') (severity : Severity)
    (methods : List TypedMethod) :
    unusedParams severity unit' methods = unusedParams severity unit methods := by
  unfold unusedParams
  rw [List.flatMap_def, List.flatMap_def]
  refine congrArg List.flatten (map_eq_of_forall₂ (fun m m' method => ?_) filled.methods)
  refine filter_map_eq_of_forall₂ (fun p p' param => ?_) (fun p p' param => ?_) method.params
  · rw [method.name, param.name]
  · rw [param.name, param.line, filled.methodOwner method, filled.path]

theorem unusedRows_filled (filled : unit.Filled f unit') (severity : Severity) :
    unusedRows severity unit' = unusedRows severity unit := by
  refine filter_map_eq_of_forall₂ (fun r r' row => ?_) (fun r r' row => ?_) filled.rows
  · rw [row.name, filled.isPopulated]
  · rw [row.name, row.line, filled.qualified, filled.path]

theorem warnings_filled (filled : unit.Filled f unit') (v : Validator)
    (methods : List TypedMethod) : v.warnings unit' methods = v.warnings unit methods := by
  unfold warnings
  cases v.warn.severity? with
  | none => rfl
  | some severity =>
      simp only [unusedParams_filled filled, unusedRows_filled filled]

theorem objectName_filled (filled : s.Filled f s') : objectName s' = objectName s := by
  have object := filled.object
  unfold objectName
  rw [filled.convention]
  cases here : s.object with
  | none =>
      rw [here] at object
      rw [Option.map_eq_none_iff.1 object]
  | some name =>
      rw [here] at object
      obtain ⟨name', there, same⟩ := Option.map_eq_some_iff.1 object
      simp only [there, same]

theorem typedStart_filled (filled : s.Filled f s') : typedStart s' = typedStart s := by
  rw [typedStart, typedStart, filled.convention, filled.line, filled.object]

theorem note_filled (filled : unit.Filled f unit') (method : m.Filled f m')
    (statement : s.Filled f s') (answer : Except CheckError Unit) :
    note ⟨unit', m', s'⟩ answer = note ⟨unit, m, s⟩ answer := by
  unfold note Site.owner Site.location
  rw [filled.path, statement.line, statement.convention, filled.methodOwner method]

end Validator

end

end SqlUnits
