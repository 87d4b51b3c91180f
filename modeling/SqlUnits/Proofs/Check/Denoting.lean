import Mathlib.Data.List.Nodup
import SqlUnits.Proofs.Access.RowFactory
import SqlUnits.Proofs.Check.Binding
import SqlUnits.Proofs.Number.Integer
import SqlUnits.Proofs.Unit.Spanning
/-!
Which parameter a placeholder denotes, and when the placeholders of a statement can be bound. The
names of parameters never read as numbers, so a name denotes one parameter at most.
-/

namespace SqlUnits

/-- A decimal count that fits a machine word, with or without a plus sign. -/
structure Text.IsCount (cs : Text) (n : Nat) : Prop where
  written : ∃ digits, (cs = digits ∨ cs = '+' :: digits) ∧ digits ≠ [] ∧
    (∀ c ∈ digits, isDigit c = true) ∧ natOfDigits digits = n
  word : n < twoPow 64

namespace Text

theorem toNatBelow?_eq_some_iff {cs : Text} {n : Nat} :
    toNatBelow? (twoPow 64) cs = some n ↔ IsCount cs n :=
  toNatBelow?_eq_some.trans ⟨fun ⟨written, word⟩ => ⟨written, word⟩,
    fun ⟨written, word⟩ => ⟨written, word⟩⟩

end Text

/-- Elements are related to the images of others if they are related to these. -/
theorem forall₂_exists {R : α → γ → Prop} {f : γ → β} {as : List α} {bs : List β} :
    List.Forall₂ (fun a b => ∃ c, R a c ∧ f c = b) as bs ↔
      ∃ cs, List.Forall₂ R as cs ∧ bs = cs.map f := by
  constructor
  · intro pairs
    induction pairs with
    | nil => exact ⟨[], .nil, rfl⟩
    | cons one _ ih =>
        obtain ⟨c, related, rfl⟩ := one
        obtain ⟨cs, rest, rfl⟩ := ih
        exact ⟨c :: cs, .cons related rest, rfl⟩
  · rintro ⟨cs, pairs, rfl⟩
    induction pairs with
    | nil => exact .nil
    | cons one _ ih => exact .cons ⟨_, one, rfl⟩ ih

/-- What is related depends on the relation only where the elements are of one kind. -/
theorem forall₂_congr_left {R S : α → β → Prop} {P : α → Prop} {as : List α} {bs : List β}
    (all : ∀ a ∈ as, P a) (same : ∀ a b, P a → (R a b ↔ S a b)) :
    List.Forall₂ R as bs ↔ List.Forall₂ S as bs := by
  constructor <;> intro pairs <;>
    refine ((List.forall₂_and_left _ _).2 ⟨all, pairs⟩).imp fun a b both => ?_
  · exact (same a b both.1).1 both.2
  · exact (same a b both.1).2 both.2

namespace MethodDecl

variable {method : MethodDecl}

/-- A name denotes the parameter of that name; a number counts the parameters from one. -/
inductive Denotes (method : MethodDecl) (name : String) : ParamDecl → Prop
  | named {p : ParamDecl} : p ∈ method.params → p.name.name = name → Denotes method name p
  | numbered {n : Nat} {p : ParamDecl} : Text.IsCount name.toList n → 1 ≤ n →
      method.params[n - 1]? = some p → Denotes method name p

/-- The placeholders of a query, all by their names, or all by a list, can be bound to these
parameters. -/
inductive Binds (method : MethodDecl) (q : Query.ParsedQuery) :
    Option (List Ident) → List ParamDecl → Prop
  | named {ps : List ParamDecl} : (∃ p ∈ q.placeholders, p.name.isSome = true) →
      List.Forall₂ (fun placeholder p => ∃ name, placeholder.name = some name ∧
        method.Denotes name p) q.placeholders ps → Binds method q none ps
  | listed {explicit : Option (List Ident)} {ps : List ParamDecl} :
      (∀ p ∈ q.placeholders, p.name = none) →
      (explicit.getD []).length = q.paramCount →
      List.Forall₂ (fun entry p => p ∈ method.params ∧ p.name.name = entry.name)
        (explicit.getD []) ps → Binds method q explicit ps

/-- A method whose parameters have identifiers for names, all different. -/
structure Distinct (method : MethodDecl) : Prop where
  names : method.params.Pairwise fun p p' => p.name.name ≠ p'.name.name
  words : ∀ p ∈ method.params, Scanner.IsName p.name.name.toList

theorem not_isCount {name : String} {n : Nat} (word : Scanner.IsName name.toList) :
    ¬Text.IsCount name.toList n := by
  rintro ⟨⟨digits, same, some_, all, _⟩, _⟩
  obtain ⟨c, rest, rfl⟩ := List.exists_cons_of_ne_nil some_
  rcases same with same | same
  · have start := word.start
    rw [same, List.head?_cons, Option.any_some, all c (.head _)] at start
    cases start
  · have plus := word.all '+' (by rw [same]; exact .head _)
    exact absurd plus (by decide)

namespace Distinct

variable (distinct : method.Distinct) {name : String}
include distinct

theorem eq_of_name {p p' : ParamDecl} (member : p ∈ method.params) (member' : p' ∈ method.params)
    (same : p.name.name = p'.name.name) : p = p' :=
  List.inj_on_of_nodup_map (List.pairwise_map.2 distinct.names) member member' same

/-- A name denotes one parameter at most. -/
theorem denotes_unique {p p' : ParamDecl} (denotes : method.Denotes name p)
    (denotes' : method.Denotes name p') : p = p' := by
  cases denotes with
  | named member named =>
      cases denotes' with
      | named member' named' => exact distinct.eq_of_name member member' (named.trans named'.symm)
      | numbered count => exact absurd (named ▸ count) (not_isCount (distinct.words p member))
  | @numbered n _ count _ found =>
      cases denotes' with
      | named member' named' =>
          exact absurd (named' ▸ count) (not_isCount (distinct.words p' member'))
      | @numbered n' _ count' _ found' =>
          rw [← Text.toNatBelow?_eq_some_iff] at count count'
          cases Option.some.inj (count.symm.trans count')
          exact Option.some.inj (found.symm.trans found')

theorem forall₂_unique {α : Type} (name : α → String) {as : List α} {ps ps' : List ParamDecl}
    (pairs : List.Forall₂ (fun a p => method.Denotes (name a) p) as ps)
    (pairs' : List.Forall₂ (fun a p => method.Denotes (name a) p) as ps') : ps = ps' := by
  have unique : Relator.RightUnique fun a p => method.Denotes (name a) p :=
    fun _ _ _ => distinct.denotes_unique
  exact List.right_unique_forall₂' unique pairs pairs'

theorem denotes_count {n : Nat} (count : Text.IsCount name.toList n) (p : ParamDecl) :
    method.Denotes name p ↔ (if n = 0 then none else method.params[n - 1]?) = some p := by
  constructor
  · intro denotes
    cases denotes with
    | named member named => exact absurd (named ▸ count) (not_isCount (distinct.words p member))
    | numbered count' least found =>
        rw [← Text.toNatBelow?_eq_some_iff] at count count'
        cases Option.some.inj (count.symm.trans count')
        rw [if_neg (by omega), found]
  · intro found
    split at found
    · cases found
    · exact .numbered count (by omega) found

theorem denotes_word (word : ∀ n, ¬Text.IsCount name.toList n) (p : ParamDecl) :
    method.Denotes name p ↔ method.param? name = some p := by
  constructor
  · intro denotes
    cases denotes with
    | named member named =>
        obtain ⟨p', found⟩ : ∃ p', method.param? name = some p' :=
          Option.isSome_iff_exists.1 (List.find?_isSome.2 ⟨p, member, by simp [named]⟩)
        have named' : p'.name.name = name := by simpa using List.find?_some found
        rw [distinct.eq_of_name member (List.mem_of_find?_eq_some found) (named.trans named'.symm),
          found]
    | @numbered n _ count _ _ => exact absurd count (word n)
  · intro found
    exact .named (List.mem_of_find?_eq_some found) (by simpa using List.find?_some found)

theorem resolveName_eq_ok_iff {a : String} :
    method.resolveName name = .ok a ↔ ∃ p, method.Denotes name p ∧ p.name.name = a := by
  unfold resolveName
  cases number : Text.toNatBelow? (twoPow 64) name.toList with
  | some n =>
      simp only [distinct.denotes_count (Text.toNatBelow?_eq_some_iff.1 number)]
      cases (if n = 0 then none else method.params[n - 1]?) <;> simp
  | none =>
      have word : ∀ n, ¬Text.IsCount name.toList n := by
        intro n count
        rw [← Text.toNatBelow?_eq_some_iff, number] at count
        cases count
      simp only [distinct.denotes_word word]
      cases method.param? name <;> simp

/-- Names are resolved to the names of the parameters that they denote, one by one. -/
theorem mapM_resolveName {α : Type} (name : α → String) {as : List α} {args : List String} :
    (as.mapM fun a => method.resolveName (name a)) = .ok args ↔
      ∃ ps, List.Forall₂ (fun a p => method.Denotes (name a) p) as ps ∧
        args = ps.map (·.name.name) := by
  rw [mapM_eq_ok_iff, ← forall₂_exists]
  simp only [distinct.resolveName_eq_ok_iff]

end Distinct

theorem resolveName_eq_error {name : String} {e : ValidationError}
    (failed : method.resolveName name = .error e) : ∃ message, e = .configuration message := by
  unfold resolveName at failed
  split at failed
  · split at failed <;> cases failed
    exact ⟨_, rfl⟩
  · split at failed <;> cases failed
    exact ⟨_, rfl⟩

/-- A name that denotes nothing fails all. -/
theorem mapM_resolveName_fails (distinct : method.Distinct) {α : Type} (name : α → String)
    {as : List α} {a : α} (member : a ∈ as) (nothing : ∀ p, ¬method.Denotes (name a) p) :
    ∃ message, (as.mapM fun a => method.resolveName (name a)) =
      .error (.configuration message) := by
  cases mapped : as.mapM fun a => method.resolveName (name a) with
  | ok args =>
      obtain ⟨ps, pairs, _⟩ := (distinct.mapM_resolveName name).1 mapped
      obtain ⟨p, _, denotes⟩ := (forall₂_mem pairs).1 a member
      exact absurd denotes (nothing p)
  | error e =>
      obtain ⟨_, _, failed⟩ := mapM_eq_error mapped
      obtain ⟨message, rfl⟩ := resolveName_eq_error failed
      exact ⟨message, rfl⟩

/-- How the placeholders of a query are bound, and why they cannot be. -/
structure BindsExactly (method : MethodDecl) (explicit : Option (List Ident))
    (q : Query.ParsedQuery) : Prop where
  bound : ∀ args, method.bindPlaceholders explicit q = .ok args ↔
    ∃ ps, method.Binds q explicit ps ∧ args = ps.map (·.name.name)
  unique : ∀ ps ps', method.Binds q explicit ps → method.Binds q explicit ps' → ps = ps'
  length : ∀ ps, method.Binds q explicit ps → ps.length = q.paramCount
  mixed : q.hasNamed = true → q.hasPositional = true →
    method.bindPlaceholders explicit q =
      .error (.syntaxError "Statement mixes named and positional placeholders")
  combined : q.hasNamed = true → q.hasPositional = false → explicit ≠ none →
    method.bindPlaceholders explicit q =
      .error (.syntaxError "An argument list cannot be combined with named placeholders")
  count : q.hasNamed = false → (explicit.getD []).length ≠ q.paramCount →
    method.bindPlaceholders explicit q =
      .error (.syntaxError ("Statement has " ++ toString q.paramCount ++ " placeholders but " ++
        toString (explicit.getD []).length ++ " arguments"))
  unknown : q.hasPositional = false → explicit = none →
    (∃ p ∈ q.placeholders, ∃ name, p.name = some name ∧ ∀ param, ¬method.Denotes name param) →
    ∃ message, method.bindPlaceholders explicit q = .error (.configuration message)
  unlisted : q.hasNamed = false → (explicit.getD []).length = q.paramCount →
    (∃ entry ∈ explicit.getD [], ∀ param ∈ method.params, param.name.name ≠ entry.name) →
    ∃ message, method.bindPlaceholders explicit q = .error (.configuration message)

section

variable {explicit : Option (List Ident)} {q : Query.ParsedQuery}

theorem hasNamed_eq_false : q.hasNamed = false ↔ ∀ p ∈ q.placeholders, p.name = none := by
  simp [Query.ParsedQuery.hasNamed]

theorem hasPositional_eq_false :
    q.hasPositional = false ↔ ∀ p ∈ q.placeholders, p.name.isSome = true := by
  simp [Query.ParsedQuery.hasPositional, Option.isSome_iff_ne_none]

theorem hasNamed_eq_true :
    q.hasNamed = true ↔ ∃ p ∈ q.placeholders, p.name.isSome = true := by
  simp [Query.ParsedQuery.hasNamed]

/-- Placeholders that all have names are bound to what their names denote. -/
theorem denoted_iff (named : ∀ p ∈ q.placeholders, p.name.isSome = true) {ps : List ParamDecl} :
    List.Forall₂ (fun placeholder p => method.Denotes (placeholder.name.getD "") p)
        q.placeholders ps ↔
      List.Forall₂ (fun placeholder p => ∃ name, placeholder.name = some name ∧
        method.Denotes name p) q.placeholders ps := by
  refine forall₂_congr_left named fun placeholder p isNamed => ?_
  obtain ⟨name, written⟩ := Option.isSome_iff_exists.1 isNamed
  simp [written]

/-- The entries of a list are identifiers, so they denote parameters by their names. -/
theorem listed_iff {entries : List Ident} {ps : List ParamDecl}
    (words : ∀ entry ∈ entries, Scanner.IsName entry.name.toList) :
    List.Forall₂ (fun (entry : Ident) p => method.Denotes entry.name p) entries ps ↔
      List.Forall₂ (fun entry p => p ∈ method.params ∧ p.name.name = entry.name) entries ps := by
  refine forall₂_congr_left words fun entry p word => ?_
  constructor
  · intro denotes
    cases denotes with
    | named member named => exact ⟨member, named⟩
    | numbered count => exact absurd count (not_isCount word)
  · exact fun ⟨member, named⟩ => .named member named

theorem binds_named (named : q.hasNamed = true) {ps : List ParamDecl} :
    method.Binds q explicit ps ↔ explicit = none ∧ q.hasPositional = false ∧
      List.Forall₂ (fun placeholder p => ∃ name, placeholder.name = some name ∧
        method.Denotes name p) q.placeholders ps := by
  have some_ := hasNamed_eq_true.1 named
  constructor
  · intro binds
    cases binds with
    | named _ pairs =>
        refine ⟨rfl, hasPositional_eq_false.2 fun p member => ?_, pairs⟩
        obtain ⟨_, _, _, written, _⟩ := (forall₂_mem pairs).1 p member
        rw [written]
        rfl
    | listed none_ =>
        obtain ⟨p, member, isNamed⟩ := some_
        rw [none_ p member] at isNamed
        cases isNamed
  · rintro ⟨rfl, _, pairs⟩
    exact .named some_ pairs

theorem binds_listed (none_ : q.hasNamed = false) {ps : List ParamDecl} :
    method.Binds q explicit ps ↔ (explicit.getD []).length = q.paramCount ∧
      List.Forall₂ (fun entry p => p ∈ method.params ∧ p.name.name = entry.name)
        (explicit.getD []) ps := by
  constructor
  · intro binds
    cases binds with
    | named some_ =>
        rw [hasNamed_eq_true.2 some_] at none_
        cases none_
    | listed _ count pairs => exact ⟨count, pairs⟩
  · rintro ⟨count, pairs⟩
    exact .listed (hasNamed_eq_false.1 none_) count pairs

end

theorem bindPlaceholders_binds (distinct : method.Distinct) {explicit : Option (List Ident)}
    (words : ∀ entry ∈ explicit.getD [], Scanner.IsName entry.name.toList)
    (q : Query.ParsedQuery) : method.BindsExactly explicit q := by
  constructor
  case bound =>
    intro args
    unfold bindPlaceholders
    cases named : q.hasNamed with
    | false =>
        simp only [binds_listed named, ← listed_iff words]
        by_cases count : (explicit.getD []).length = q.paramCount
        · simpa [count, argumentNames] using
            distinct.mapM_resolveName fun entry : Ident => entry.name
        · simp [count]
    | true =>
        simp only [binds_named named]
        cases positional : q.hasPositional with
        | true => simp
        | false =>
            cases explicit with
            | some list => simp
            | none =>
                simp only [← denoted_iff (hasPositional_eq_false.1 positional)]
                simpa using distinct.mapM_resolveName fun p : Query.Placeholder => p.name.getD ""
  case unique =>
    intro ps ps' binds binds'
    cases named : q.hasNamed with
    | false =>
        rw [binds_listed named, ← listed_iff words] at binds binds'
        exact distinct.forall₂_unique _ binds.2 binds'.2
    | true =>
        obtain ⟨_, positional, pairs⟩ := (binds_named named).1 binds
        obtain ⟨_, _, pairs'⟩ := (binds_named named).1 binds'
        rw [← denoted_iff (hasPositional_eq_false.1 positional)] at pairs pairs'
        exact distinct.forall₂_unique _ pairs pairs'
  case length =>
    intro ps binds
    cases binds with
    | named _ pairs => exact pairs.length_eq.symm
    | listed _ count pairs => rw [← pairs.length_eq, count]
  case mixed =>
    intro named positional
    simp [bindPlaceholders, named, positional]
  case combined =>
    intro named positional some_
    simp [bindPlaceholders, named, positional, Option.isSome_iff_ne_none, some_]
  case count =>
    intro named count
    simp [bindPlaceholders, named, count]
  case unknown =>
    rintro positional rfl ⟨p, member, name, written, nothing⟩
    have named : q.hasNamed = true := hasNamed_eq_true.2 ⟨p, member, by simp [written]⟩
    have fails := mapM_resolveName_fails distinct (fun p : Query.Placeholder => p.name.getD "")
      member (by simpa [written] using nothing)
    simpa [bindPlaceholders, named, positional] using fails
  case unlisted =>
    rintro named count ⟨entry, member, absent⟩
    have nothing (p : ParamDecl) : ¬method.Denotes entry.name p := by
      intro denotes
      cases denotes with
      | named inside same => exact absent p inside same
      | numbered number => exact not_isCount (words entry member) number
    have fails := mapM_resolveName_fails distinct (fun entry : Ident => entry.name) member nothing
    simpa [bindPlaceholders, named, count, argumentNames] using fails

end MethodDecl

namespace SourceUnit

open Scanner

theorem scan_distinct {path source : String} {unit : SourceUnit}
    (read : scan path source = .ok unit) : ∀ m ∈ unit.methods, m.Distinct := by
  intro m member
  refine ⟨((scan_wellFormed read).each m member).params, fun p inside => ?_⟩
  obtain ⟨_, _, _, ⟨⟨_, _, word, _⟩, _, _⟩⟩ := ((scan_placed read).methods m member).params p inside
  exact word.name

theorem scan_entries {path source : String} {unit : SourceUnit}
    (read : scan path source = .ok unit) {m : MethodDecl} (member : m ∈ unit.methods)
    {s : StatementDecl} (inside : s ∈ m.statements) :
    ∀ entry ∈ s.args.getD [], Scanner.IsName entry.name.toList := by
  intro entry listed
  obtain ⟨_, _, _, at_⟩ := ((scan_placed read).methods m member).statements s inside
  obtain ⟨_, _, _, word⟩ := at_.words.each entry (List.mem_append_right _ listed)
  exact word.name

/-- In a unit, the placeholders of a statement are bound exactly if all are named, or listed, and
each denotes a parameter; they are bound to these, one by one. -/
theorem scan_binds {path source : String} {unit : SourceUnit}
    (read : scan path source = .ok unit) {m : MethodDecl} (member : m ∈ unit.methods)
    {s : StatementDecl} (inside : s ∈ m.statements) (q : Query.ParsedQuery) :
    m.BindsExactly s.args q :=
  MethodDecl.bindPlaceholders_binds (scan_distinct read m member) (scan_entries read member inside) q

theorem scan_binds_numbered :
    let text := "unit A row R fn m(a=1,b=2)\x7bmany R\x7bSELECT :2,:a\x7d\x7d"
    ∃ unit, scan "a" text = .ok unit ∧ ∃ m ∈ unit.methods, ∃ s ∈ m.statements, ∃ sql ∈ s.sql, ∃ q,
      Query.parse sql.text = .ok q ∧ m.BindsExactly s.args q ∧
        ∃ ps, m.Binds q s.args ps ∧ ps.map (·.name.name) = ["b", "a"] := by
  intro text
  have shown : ((scan "a" text).toOption.bind fun unit => unit.methods.head?.bind fun m =>
      m.statements.head?.bind fun s => s.sql.bind fun sql =>
        (Query.parse sql.text).toOption.bind fun q =>
          (m.bindPlaceholders s.args q).toOption) = some ["b", "a"] := by
    decide +kernel
  obtain ⟨unit, read, shown⟩ := Option.bind_eq_some_iff.1 shown
  obtain ⟨m, member, shown⟩ := Option.bind_eq_some_iff.1 shown
  obtain ⟨s, inside, shown⟩ := Option.bind_eq_some_iff.1 shown
  obtain ⟨sql, written, shown⟩ := Option.bind_eq_some_iff.1 shown
  obtain ⟨q, parsed, bound⟩ := Option.bind_eq_some_iff.1 shown
  have read := eq_ok_of_toOption read
  have member := List.mem_of_mem_head? member
  have inside := List.mem_of_mem_head? inside
  have exactly := scan_binds read member inside q
  obtain ⟨ps, binds, names⟩ := (exactly.bound _).1 (eq_ok_of_toOption bound)
  exact ⟨unit, read, m, member, s, inside, sql, written, q, eq_ok_of_toOption parsed, exactly, ps,
    binds, names.symm⟩

end SourceUnit

end SqlUnits
