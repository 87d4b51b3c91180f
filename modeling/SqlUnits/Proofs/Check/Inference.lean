import SqlUnits.Proofs.Check.Filled
/-!
Which types parameters have. Inference finds them exactly if all declarations are in order and
those of one name agree; otherwise it reports the first one that is not.
-/

namespace SqlUnits

namespace ParamDecl

/-- The type that a declaration supplies: its own, or else that of its sample. -/
def supplied? (p : ParamDecl) : Option ValueType :=
  p.type.or (p.sample.bind Sample.valueType?)

/-- A sample that is not null can be bound as the declared type. -/
def SampleFits (p : ParamDecl) : Prop :=
  ∀ declared, p.type = some declared → ∀ sample, p.sample = some sample →
    ∀ sampled, sample.valueType? = some sampled → sampled.widensTo declared = true

/-- A declaration that is in order, and the type that it supplies. -/
structure Supplies (registry : Registry) (p : ParamDecl) (type : ValueType) : Prop where
  supplied : p.supplied? = some type
  fits : p.SampleFits
  mapped : registry.contains type = true

/-- What is wrong with a declaration, whatever the others say. -/
inductive Refused (registry : Registry) (p : ParamDecl) : String → Prop
  | untyped : p.type = none → p.sample = none →
      Refused registry p "needs a type or a sample value"
  | null : p.type = none → p.sample = some .null →
      Refused registry p "has a null sample value, which cannot supply a type"
  | misfit {declared sampled : ValueType} {sample : Sample} : p.type = some declared →
      p.sample = some sample → sample.valueType? = some sampled →
      sampled.widensTo declared = false →
      Refused registry p
        ("is declared " ++ declared.name ++ " but its sample value is " ++ sampled.name)
  | unmapped {type : ValueType} : p.supplied? = some type → p.SampleFits →
      registry.contains type = false →
      Refused registry p
        ("has type " ++ type.name ++ ", but no value mapper is registered for it")

end ParamDecl

theorem Sample.valueType?_eq_none {sample : Sample} :
    sample.valueType? = none ↔ sample = .null := by
  cases sample <;> simp [valueType?]

namespace Inference

variable {registry : Registry} {p : ParamDecl}

theorem declaredType_spec (p : ParamDecl) (registry : Registry) :
    match declaredType p registry with
    | .ok type => p.Supplies registry type
    | .error e => ∃ reason, p.Refused registry reason ∧
        e = .configuration ("Parameter " ++ p.name.name ++ " " ++ reason) := by
  have mapped {type : ValueType} (supplied : p.supplied? = some type) (fits : p.SampleFits) :
      match (if registry.contains type then pure type
        else throw (.configuration ("Parameter " ++ p.name.name ++ " " ++ ("has type " ++
          type.name ++ ", but no value mapper is registered for it"))) :
            Except ValidationError ValueType) with
      | .ok type => p.Supplies registry type
      | .error e => ∃ reason, p.Refused registry reason ∧
          e = .configuration ("Parameter " ++ p.name.name ++ " " ++ reason) := by
    by_cases known : registry.contains type = true
    · rw [if_pos known]
      exact ⟨supplied, fits, known⟩
    · rw [if_neg known]
      exact ⟨_, .unmapped supplied fits (by simpa using known), rfl⟩
  unfold declaredType
  cases type : p.type with
  | none =>
      cases sample : p.sample with
      | none => exact ⟨_, .untyped type sample, rfl⟩
      | some sample' =>
          cases sampled : sample'.valueType? with
          | none =>
              obtain rfl := Sample.valueType?_eq_none.1 sampled
              exact ⟨_, .null type sample, rfl⟩
          | some t =>
              simp only [sampled]
              exact mapped (by simp [ParamDecl.supplied?, type, sample, sampled])
                (by simp [ParamDecl.SampleFits, type])
  | some declared =>
      have supplied : p.supplied? = some declared := by simp [ParamDecl.supplied?, type]
      cases sample : p.sample with
      | none => exact mapped supplied (by simp [ParamDecl.SampleFits, sample])
      | some sample' =>
          cases sampled : sample'.valueType? with
          | none =>
              simp only [sampled]
              exact mapped supplied (by simp [ParamDecl.SampleFits, sample, sampled])
          | some t =>
              simp only [sampled]
              by_cases fits : t.widensTo declared = true
              · rw [if_pos fits]
                exact mapped supplied (by simp [ParamDecl.SampleFits, type, sample, sampled, fits])
              · rw [if_neg fits]
                exact ⟨_, .misfit type sample sampled (by simpa using fits), rfl⟩

theorem Supplies.unrefused {type : ValueType} {reason : String}
    (supplies : p.Supplies registry type) (refused : p.Refused registry reason) : False := by
  have supplied := supplies.supplied
  cases refused with
  | untyped type sample => simp [ParamDecl.supplied?, type, sample] at supplied
  | null type sample => simp [ParamDecl.supplied?, type, sample, Sample.valueType?] at supplied
  | misfit type sample sampled narrow =>
      rw [supplies.fits _ type _ sample _ sampled] at narrow
      cases narrow
  | unmapped same _ unknown =>
      obtain rfl := Option.some.inj (supplied.symm.trans same)
      rw [supplies.mapped] at unknown
      cases unknown

/-- Declarations that are in order, and agree on the types of their names. -/
structure Consistent (registry : Registry) (ds : List (MethodDecl × ParamDecl)) : Prop where
  each : ∀ d ∈ ds, ∃ type, d.2.Supplies registry type
  agree : ∀ d ∈ ds, ∀ e ∈ ds, d.2.name.name = e.2.name.name → d.2.supplied? = e.2.supplied?

/-- The first declaration of a name. -/
def first? (ds : List (MethodDecl × ParamDecl)) (name : String) : Option (MethodDecl × ParamDecl) :=
  ds.find? (·.2.name.name == name)

/-- What is wrong with a declaration that stands behind others. -/
inductive Offends (registry : Registry) (path : String) (earlier : List (MethodDecl × ParamDecl))
    (d : MethodDecl × ParamDecl) : ValidationError → Prop
  | refused {reason : String} : d.2.Refused registry reason →
      Offends registry path earlier d
        (.configuration ("Parameter " ++ d.2.name.name ++ " " ++ reason))
  | conflict {first : MethodDecl × ParamDecl} {known type : ValueType} :
      d.2.Supplies registry type → first? earlier d.2.name.name = some first →
      first.2.supplied? = some known → known ≠ type →
      Offends registry path earlier d
        (.typeConflict d.2.name.name known (.atLine path first.2.line) type
          (.atLine path d.2.line))

end Inference

/-- A table that has each declared name once, with its type and the place of its first
declaration. -/
structure ParamTable.Describes (table : ParamTable) (path : String)
    (ds : List (MethodDecl × ParamDecl)) : Prop where
  sorted : (table.entries.map Prod.fst).Pairwise (· < ·)
  find? : ∀ name, table.find? name = (Inference.first? ds name).bind fun d =>
    d.2.supplied?.map fun type => ⟨type, .atLine path d.2.line⟩

namespace Inference

variable {path : String} {earlier after : List (MethodDecl × ParamDecl)}
  {d first : MethodDecl × ParamDecl} {table next last : ParamTable}

theorem first?_eq_some {name : String} (found : first? earlier name = some first) :
    first ∈ earlier ∧ first.2.name.name = name := by
  have same := List.find?_some found
  exact ⟨List.mem_of_find?_eq_some found, by simpa using same⟩

theorem first?_append (name : String) :
    first? (earlier ++ [d]) name =
      (first? earlier name).or (if d.2.name.name = name then some d else none) := by
  unfold first?
  rw [List.find?_append]
  by_cases same : d.2.name.name = name <;> simp [same]

theorem Consistent.left (consistent : Consistent registry (earlier ++ after)) :
    Consistent registry earlier where
  each e member := consistent.each e (List.mem_append_left _ member)
  agree e member e' member' :=
    consistent.agree e (List.mem_append_left _ member) e' (List.mem_append_left _ member')

theorem Offends.inconsistent {e : ValidationError} (offends : Offends registry path earlier d e) :
    ¬ Consistent registry (earlier ++ d :: after) := by
  intro consistent
  have inside : d ∈ earlier ++ d :: after := by simp
  cases offends with
  | refused refused =>
      obtain ⟨type, supplies⟩ := consistent.each d inside
      exact Supplies.unrefused supplies refused
  | conflict supplies found known apart =>
      obtain ⟨member, name⟩ := first?_eq_some found
      have same := consistent.agree _ (List.mem_append_left _ member) d inside name
      rw [known, supplies.supplied] at same
      exact apart (Option.some.inj same)

end Inference

namespace ParamTable

theorem insertByName_perm (name : String) (param : ResolvedParam)
    (entries : List (String × ResolvedParam)) :
    (insertByName name param entries).Perm ((name, param) :: entries) := by
  induction entries with
  | nil => exact .refl _
  | cons entry rest ih =>
      unfold insertByName
      split
      · exact .refl _
      · exact (ih.cons entry).trans (.swap _ _ _)

theorem insertByName_sorted {name : String} (param : ResolvedParam)
    {entries : List (String × ResolvedParam)} (fresh : entries.lookup name = none)
    (sorted : (entries.map Prod.fst).Pairwise (· < ·)) :
    ((insertByName name param entries).map Prod.fst).Pairwise (· < ·) := by
  induction entries with
  | nil => simp [insertByName]
  | cons entry rest ih =>
      obtain ⟨first, p⟩ := entry
      rw [lookup_cons] at fresh
      split at fresh
      · cases fresh
      · rename_i other
        obtain ⟨low, sorted'⟩ := List.pairwise_cons.1 sorted
        unfold insertByName
        split
        · rename_i less
          refine List.pairwise_cons.2 ⟨?_, sorted⟩
          intro n member
          rcases List.mem_cons.1 member with rfl | later
          · exact less
          · exact String.lt_trans less (low n later)
        · rename_i notLess
          refine List.pairwise_cons.2 ⟨?_, ih fresh sorted'⟩
          intro n member
          rw [((insertByName_perm name param rest).map Prod.fst).mem_iff] at member
          rcases List.mem_cons.1 member with rfl | later
          · exact Std.lt_of_le_of_ne notLess (Ne.symm other)
          · exact low n later

end ParamTable

namespace Inference

variable {path : String} {earlier after : List (MethodDecl × ParamDecl)}
  {d first : MethodDecl × ParamDecl} {table next last : ParamTable}

theorem Consistent.snoc {type : ValueType} (consistent : Consistent registry earlier)
    (supplies : d.2.Supplies registry type)
    (same : ∀ e ∈ earlier, e.2.name.name = d.2.name.name → e.2.supplied? = some type) :
    Consistent registry (earlier ++ [d]) where
  each e member := by
    rcases List.mem_append.1 member with before | last
    · exact consistent.each e before
    · rw [List.mem_singleton.1 last]
      exact ⟨type, supplies⟩
  agree e member e' member' name := by
    rcases List.mem_append.1 member with before | last
    · rcases List.mem_append.1 member' with before' | last'
      · exact consistent.agree e before e' before' name
      · rw [List.mem_singleton.1 last'] at name ⊢
        rw [same e before name, supplies.supplied]
    · rcases List.mem_append.1 member' with before' | last'
      · rw [List.mem_singleton.1 last] at name ⊢
        rw [same e' before' name.symm, supplies.supplied]
      · rw [List.mem_singleton.1 last, List.mem_singleton.1 last']

theorem describes_known (describes : table.Describes path earlier)
    (known : first? earlier d.2.name.name = some first) :
    table.Describes path (earlier ++ [d]) where
  sorted := describes.sorted
  find? name := by
    rw [describes.find?, first?_append]
    by_cases here : d.2.name.name = name
    · rw [← here, known, Option.some_or]
    · rw [if_neg here, Option.or_none]

theorem describes_new {type : ValueType} (describes : table.Describes path earlier)
    (supplies : d.2.Supplies registry type) (new : first? earlier d.2.name.name = none) :
    ParamTable.Describes
      ⟨ParamTable.insertByName d.2.name.name ⟨type, .atLine path d.2.line⟩ table.entries⟩ path
      (earlier ++ [d]) := by
  have fresh : table.entries.lookup d.2.name.name = none := by
    have found := describes.find? d.2.name.name
    rwa [new, Option.bind_none] at found
  refine ⟨ParamTable.insertByName_sorted _ fresh describes.sorted, fun name => ?_⟩
  rw [first?_append]
  refine (ParamTable.lookup_insertByName _ _ _ fresh name).trans ?_
  by_cases here : d.2.name.name = name
  · rw [if_pos here.symm, if_pos here, ← here, new, Option.none_or, Option.bind_some,
      supplies.supplied, Option.map_some]
  · rw [if_neg (Ne.symm here), if_neg here, Option.or_none, ← describes.find?]
    rfl

theorem resolve_spec {type : ValueType} (consistent : Consistent registry earlier)
    (describes : table.Describes path earlier) (supplies : d.2.Supplies registry type) :
    match table.resolve d.2.name.name type (.atLine path d.2.line) with
    | .ok next => Consistent registry (earlier ++ [d]) ∧ next.Describes path (earlier ++ [d])
    | .error e => Offends registry path earlier d e := by
  have found := describes.find? d.2.name.name
  unfold ParamTable.resolve
  cases known : first? earlier d.2.name.name with
  | none =>
      rw [known, Option.bind_none] at found
      rw [found]
      refine ⟨consistent.snoc supplies ?_, describes_new describes supplies known⟩
      intro e member name
      have absent := List.find?_eq_none.1 known e member
      exact absurd (beq_iff_eq.2 name) absent
  | some first =>
      obtain ⟨member, name⟩ := first?_eq_some known
      obtain ⟨type', inOrder⟩ := consistent.each first member
      rw [known, Option.bind_some, inOrder.supplied, Option.map_some] at found
      rw [found]
      -- The table has the type of the first declaration, and the later ones agree with that.
      by_cases same : type' = type
      · simp only [if_pos same]
        refine ⟨consistent.snoc supplies ?_, describes_known describes known⟩
        intro e inside name'
        rw [consistent.agree e inside first member (name'.trans name.symm), inOrder.supplied, same]
      · simp only [if_neg same]
        exact .conflict supplies known inOrder.supplied same

theorem resolveParam_spec {unit : SourceUnit} (consistent : Consistent registry earlier)
    (describes : table.Describes unit.path earlier) :
    match resolveParam unit registry table d with
    | .ok next => Consistent registry (earlier ++ [d]) ∧ next.Describes unit.path (earlier ++ [d])
    | .error failure => ∃ e, Offends registry unit.path earlier d e ∧
        failure = ⟨e, stack unit d.1 d.2⟩ := by
  unfold resolveParam
  have spec := declaredType_spec d.2 registry
  cases declared : declaredType d.2 registry with
  | error e =>
      simp only [declared] at spec
      obtain ⟨reason, refused, rfl⟩ := spec
      simp only [declared, bind, Except.bind, Except.mapError]
      exact ⟨_, .refused refused, rfl⟩
  | ok type =>
      simp only [declared] at spec
      have resolved := resolve_spec consistent describes spec
      simp only [declared, bind, Except.bind]
      cases one : table.resolve d.2.name.name type (.atLine unit.path d.2.line) with
      | error e =>
          simp only [one] at resolved
          exact ⟨e, resolved, rfl⟩
      | ok next =>
          simp only [one] at resolved
          exact resolved

/-- What a run over declarations makes of the table of those before them: it gets to the end, or
to the first that offends. -/
theorem foldlM_resolveParam_spec {unit : SourceUnit} (ds : List (MethodDecl × ParamDecl))
    (consistent : Consistent registry earlier) (describes : table.Describes unit.path earlier) :
    match ds.foldlM (resolveParam unit registry) table with
    | .ok last => Consistent registry (earlier ++ ds) ∧ last.Describes unit.path (earlier ++ ds)
    | .error failure => ∃ before d after e, ds = before ++ d :: after ∧
        Consistent registry (earlier ++ before) ∧
        Offends registry unit.path (earlier ++ before) d e ∧ failure = ⟨e, stack unit d.1 d.2⟩ := by
  induction ds generalizing earlier table with
  | nil =>
      rw [List.append_nil]
      exact ⟨consistent, describes⟩
  | cons d ds ih =>
      have step := resolveParam_spec (d := d) consistent describes
      rw [List.foldlM_cons]
      cases one : resolveParam unit registry table d with
      | error failure =>
          simp only [one] at step
          obtain ⟨e, offends, rfl⟩ := step
          refine ⟨[], d, ds, e, rfl, ?_, ?_, rfl⟩
          · rwa [List.append_nil]
          · rwa [List.append_nil]
      | ok next =>
          simp only [one] at step
          obtain ⟨consistent', describes'⟩ := step
          have rest := ih consistent' describes'
          rw [List.append_assoc, List.singleton_append] at rest
          simp only [bind, Except.bind]
          cases others : ds.foldlM (resolveParam unit registry) next with
          | ok last =>
              simp only [others] at rest
              exact rest
          | error failure =>
              simp only [others] at rest
              obtain ⟨before, d', after, e, rfl, fine, offends, rfl⟩ := rest
              rw [List.append_assoc, List.singleton_append] at fine offends
              exact ⟨d :: before, d', after, e, rfl, fine, offends, rfl⟩

/-- Inference succeeds exactly if every declaration of a unit is in order and those of one name
agree. The table then has each name with its type and the place of its first declaration. Otherwise
the failure is that of the first declaration that offends, those before it being consistent. -/
theorem ofUnit_spec (unit : SourceUnit) (registry : Registry) :
    ((∃ table, ofUnit unit registry = .ok table) ↔ Consistent registry (declarations unit)) ∧
    match ofUnit unit registry with
    | .ok table => table.Describes unit.path (declarations unit)
    | .error failure => ∃ before d after e, declarations unit = before ++ d :: after ∧
        Consistent registry before ∧ Offends registry unit.path before d e ∧
        failure = ⟨e, stack unit d.1 d.2⟩ := by
  have none : Consistent registry [] := ⟨nofun, nofun⟩
  have empty : ParamTable.Describes {} unit.path [] := ⟨.nil, fun _ => rfl⟩
  have spec := foldlM_resolveParam_spec (declarations unit) none empty
  simp only [List.nil_append] at spec
  change match ofUnit unit registry with
    | .ok last => _
    | .error failure => _ at spec
  cases inferred : ofUnit unit registry with
  | ok table =>
      simp only [inferred] at spec
      exact ⟨⟨fun _ => spec.1, fun _ => ⟨table, rfl⟩⟩, spec.2⟩
  | error failure =>
      simp only [inferred] at spec
      refine ⟨iff_of_false nofun ?_, spec⟩
      obtain ⟨before, d, after, e, whole, _, offends, _⟩ := spec
      rw [whole]
      exact offends.inconsistent

end Inference

end SqlUnits
