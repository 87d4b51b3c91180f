import SqlUnits.Proofs.Check.Trace
/-!
What placeholders are bound to: as many names as there are placeholders, and each is the name of a
parameter that has a type.
-/

namespace SqlUnits

/-- A list is mapped if each of its elements is. -/
theorem mapM_eq_ok_iff {f : α → Except ε β} {as : List α} {bs : List β} :
    as.mapM f = .ok bs ↔ List.Forall₂ (fun a b => f a = .ok b) as bs := by
  induction as generalizing bs with
  | nil => cases bs <;> simp [pure, Except.pure]
  | cons a as ih =>
      rw [List.mapM_cons]
      cases one : f a with
      | error e => cases bs <;> simp [one, bind, Except.bind]
      | ok b =>
          cases rest : as.mapM f with
          | error e => cases bs <;> simp [one, ← ih, rest, bind, Except.bind]
          | ok tail => cases bs <;> simp [one, ← ih, rest, bind, Except.bind, pure, Except.pure]

theorem eq_ok_of_toOption {result : Except ε α} {a : α} (some_ : result.toOption = some a) :
    result = .ok a := by
  cases result with
  | error e => cases some_
  | ok b => rw [Option.some.inj some_]

theorem exists_mapM {f : α → Except ε β} {as : List α} (each : ∀ a ∈ as, ∃ b, f a = .ok b) :
    ∃ bs, as.mapM f = .ok bs := by
  induction as with
  | nil => exact ⟨[], rfl⟩
  | cons a as ih =>
      obtain ⟨b, one⟩ := each a (.head as)
      obtain ⟨bs, rest⟩ := ih fun x member => each x (.tail a member)
      exact ⟨b :: bs, mapM_eq_ok_iff.2 (.cons one (mapM_eq_ok_iff.1 rest))⟩

theorem getElem?_of_forall₂ {R : α → β → Prop} {as : List α} {bs : List β}
    (pairs : List.Forall₂ R as bs) {i : Nat} {a : α} (there : as[i]? = some a) :
    ∃ b, bs[i]? = some b ∧ R a b := by
  obtain ⟨inside, rfl⟩ := List.getElem?_eq_some_iff.1 there
  have within := pairs.length_eq ▸ inside
  exact ⟨bs[i], List.getElem?_eq_getElem within, pairs.get inside within⟩

/-- What is related to one element only stands wherever the element stands. -/
theorem getElem?_congr_of_forall₂ {R : α → β → Prop}
    (unique : ∀ a b b', R a b → R a b' → b = b') {as as' : List α} {bs bs' : List β}
    (pairs : List.Forall₂ R as bs) (pairs' : List.Forall₂ R as' bs') {i j : Nat}
    (same : as[i]? = as'[j]?) : bs[i]? = bs'[j]? := by
  cases here : as[i]? with
  | none =>
      rw [here] at same
      have outside := List.getElem?_eq_none_iff.1 here
      have outside' := List.getElem?_eq_none_iff.1 same.symm
      rw [pairs.length_eq] at outside
      rw [pairs'.length_eq] at outside'
      rw [List.getElem?_eq_none outside, List.getElem?_eq_none outside']
  | some a =>
      rw [here] at same
      obtain ⟨b, found, related⟩ := getElem?_of_forall₂ pairs here
      obtain ⟨b', found', related'⟩ := getElem?_of_forall₂ pairs' same.symm
      rw [found, found', unique a b b' related related']

namespace MethodDecl

variable {method : MethodDecl}

theorem resolveName_mem {name a : String} (resolved : method.resolveName name = .ok a) :
    ∃ p ∈ method.params, p.name.name = a := by
  unfold resolveName at resolved
  split at resolved
  · split at resolved
    · rename_i number _ _ param found
      cases resolved
      split at found
      · cases found
      · exact ⟨param, List.mem_of_getElem? found, rfl⟩
    · cases resolved
  · split at resolved
    · rename_i param found
      cases resolved
      exact ⟨param, List.mem_of_find?_eq_some found, rfl⟩
    · cases resolved

theorem argumentNames_mem {args : List Ident} {names : List String}
    (resolved : method.argumentNames args = .ok names) :
    ∀ a ∈ names, ∃ p ∈ method.params, p.name.name = a := by
  intro a member
  obtain ⟨_, _, one⟩ := (forall₂_mem (mapM_eq_ok_iff.1 resolved)).2 a member
  exact resolveName_mem one

theorem bindPlaceholders_eq_ok {explicit : Option (List Ident)} {q : Query.ParsedQuery}
    {names : List String} (bound : method.bindPlaceholders explicit q = .ok names) :
    names.length = q.paramCount ∧ ∀ a ∈ names, ∃ p ∈ method.params, p.name.name = a := by
  unfold bindPlaceholders at bound
  split at bound
  · split at bound
    · cases bound
    · split at bound
      · cases bound
      · refine ⟨(mapM_eq_ok_iff.1 bound).length_eq.symm, ?_⟩
        intro a member
        obtain ⟨_, _, one⟩ := (forall₂_mem (mapM_eq_ok_iff.1 bound)).2 a member
        exact resolveName_mem one
  · dsimp only at bound
    split at bound
    · cases bound
    · rename_i length
      refine ⟨?_, argumentNames_mem bound⟩
      rw [← (mapM_eq_ok_iff.1 bound).length_eq, not_not.1 length]

end MethodDecl

/-- The names that placeholders are bound to are names of parameters with types. -/
theorem Arguments.ofStatement_eq_ok {registry : Registry} {table : ParamTable}
    {method : MethodDecl} {s : StatementDecl} {q : Query.ParsedQuery} {args : Arguments}
    (bound : ofStatement registry table method s q = .ok args) :
    args.names.length = q.paramCount ∧ ∀ a ∈ args.names, ∃ p ∈ method.params, p.name.name = a := by
  unfold ofStatement at bound
  cases names : method.bindPlaceholders s.args q with
  | error e => simp [names, bind, Except.bind] at bound
  | ok found =>
      cases types : found.mapM table.typeOf with
      | error e => simp [names, types, bind, Except.bind] at bound
      | ok kinds =>
          simp only [names, types, bind, Except.bind] at bound
          split at bound
          · cases bound
          · cases bound
            exact MethodDecl.bindPlaceholders_eq_ok names

theorem ParamTable.typeOf_eq_ok {table : ParamTable} {name : String} {type : ValueType} :
    table.typeOf name = .ok type ↔ table.get? name = some type := by
  unfold typeOf
  cases table.get? name <;> simp

theorem Validator.typedParam_eq_ok {table : ParamTable} {p : ParamDecl} {q : TypedParam} :
    typedParam table p = .ok q ↔ q.name = p.name.name ∧ table.get? p.name.name = some q.type := by
  unfold typedParam
  rw [← ParamTable.typeOf_eq_ok]
  cases table.typeOf p.name.name with
  | error e => simp [bind, Except.bind]
  | ok type =>
      obtain ⟨name, other⟩ := q
      simp [bind, Except.bind, pure, Except.pure, eq_comm]

/-- The parameters of a method are in the artifact, with the types of the unit. -/
theorem MethodDecl.TypedAs.param {table : ParamTable} {method : MethodDecl} {typed : TypedMethod}
    (typedAs : method.TypedAs table typed) {p : ParamDecl} (member : p ∈ method.params) :
    ∃ q ∈ typed.params, q.name = p.name.name ∧ table.get? p.name.name = some q.type := by
  obtain ⟨q, inside, made⟩ := (forall₂_mem (mapM_eq_ok_iff.1 typedAs.params)).1 p member
  exact ⟨q, inside, Validator.typedParam_eq_ok.1 made⟩

theorem MethodDecl.TypedAs.typeOf {table : ParamTable} {method : MethodDecl} {typed : TypedMethod}
    (typedAs : method.TypedAs table typed) :
    ∀ q ∈ typed.params, table.get? q.name = some q.type := by
  intro q member
  obtain ⟨p, _, made⟩ := (forall₂_mem (mapM_eq_ok_iff.1 typedAs.params)).2 q member
  obtain ⟨name, type⟩ := Validator.typedParam_eq_ok.1 made
  rw [name]
  exact type

end SqlUnits
