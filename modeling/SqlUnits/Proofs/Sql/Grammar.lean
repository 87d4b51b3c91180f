import SqlUnits.Proofs.Sql.Enclosed
/-!
The grammar stays within a statement: every rule does, to any depth.
-/

namespace SqlUnits.Sql

-- A parser has many parts, and its instance is counted as large as all of theirs together.
set_option synthInstance.maxSize 1000000

/-- A level whose rules stay within a statement. -/
class Rules.Inside (r : Rules) : Prop where
  expr : ∀ level, Parser.Enclosed (r.expr level)
  select : Parser.Enclosed r.select

attribute [instance] Rules.Inside.expr Rules.Inside.select

variable {r : Rules} [r.Inside] {t : Token} {e : Expr}

namespace Expression

open Sql.Parser

instance : Enclosed typeSize := by
  have digits : Enclosed (do
      let t ← peek
      if t.kind == .number then
        let _ ← advance
      else unexpected : Parser Unit) := by
    refine .peek fun t => .ite (fun number => ?_) fun _ => inferInstance
    have : t.Inner := .of_number (by simpa using number)
    infer_instance
  unfold typeSize
  dsimp only
  infer_instance

instance : Enclosed typeNames := by
  unfold typeNames
  infer_instance

instance : Enclosed typeText := by
  refine .bind fun first => .bind fun names => ?_
  cases names with
  | nil => infer_instance
  | cons name names =>
      cases first.kind <;> infer_instance

instance : Enclosed (arguments r) := by
  unfold arguments
  dsimp only
  infer_instance

instance {name : String} {offset : Nat} : Enclosed (call r name offset) := by
  unfold call
  dsimp only
  infer_instance

instance {first : Token} {part : String} : Enclosed (qualified first part) := by
  unfold qualified
  infer_instance

instance : Enclosed (choice r) := by
  unfold choice
  dsimp only
  infer_instance

instance : Enclosed (castExpr r) := by
  unfold castExpr
  infer_instance

instance : Enclosed (grouped r) := by
  refine .bind fun _ => .bind fun _ => .bind fun _ => .bind fun _ => ?_
  split
  · infer_instance
  · refine .bind fun items => .bind fun _ => ?_
    split <;> infer_instance

instance : Enclosed (existsQuery r) := by
  unfold existsQuery
  infer_instance

instance [t.Inner] : EnclosedAt t (wordOperand r t) := by
  refine .secondKey fun next => ?_
  split
  iterate 4 infer_instance
  refine .ite (fun _ => inferInstance) fun _ => ?_
  split <;> infer_instance

instance : Enclosed (operand r) := by
  refine .peek fun t => ?_
  by_cases finish : t.kind = .finish
  · simp only [finish]
    infer_instance
  by_cases sign : t.kind = .sign
  · simp only [sign]
    have inner (other : t.key ≠ ";") : t.Inner := .of_key finish other
    have least : Enclosed (do
        if isLeastInteger (← peek) then
          let _ ← advance
          pure (.literal (.integer Int64.minValue))
        else .unary .negate <$> r.expr 12 : Parser Expr) := by
      refine .peek fun t => .ite (fun digits => ?_) fun _ => inferInstance
      simp only [isLeastInteger, Bool.and_eq_true, beq_iff_eq] at digits
      have : t.Inner := .of_number digits.1.1
      infer_instance
    split
    · infer_instance
    iterate 3
      have := inner (by simp [*])
      infer_instance
    · infer_instance
  · have : t.Inner := .of_kind finish sign
    dsimp only
    split
    iterate 6 infer_instance
    · exact absurd ‹t.kind = .sign› sign
    · infer_instance

instance {negated : Bool} : Enclosed (membership r negated e) := by
  unfold membership
  infer_instance

instance {negated : Bool} : Enclosed (betweenRest r negated e) := by
  unfold betweenRest
  infer_instance

instance {operator : Token} {negated : Bool} : Enclosed (matchRest r operator negated e) := by
  unfold matchRest
  infer_instance

instance : Enclosed (negatedTest r e) := by
  refine .peek fun t => .ofWord fun inner => ?_
  split <;> infer_instance

instance : Enclosed (identityTest r e) := by
  refine .bind fun negated => .twoWords (by decide) inferInstance (.bind fun right => ?_)
  split <;> infer_instance

instance [t.Inner] {level : Nat} : EnclosedAt t (wordOperator r level e t) := by
  unfold wordOperator
  dsimp only
  split
  iterate 8 infer_instance
  · have collation : Enclosed (do
        match ← taken? Token.label? with
        | some name => pure (.collate e name)
        | none => unexpected : Parser Expr) := .bind fun name => by cases name <;> infer_instance
    infer_instance
  · infer_instance

instance {level fuel : Nat} : Enclosed (operators r level fuel e) := by
  induction fuel generalizing e with
  | zero => exact inferInstanceAs (Enclosed (pure _))
  | succ fuel ih =>
      refine .peek fun t => ?_
      have goesOn (next : Option Expr) : Enclosed (match next with
          | some e => operators r level fuel e
          | none => pure e) := by
        cases next <;> infer_instance
      dsimp only
      split <;> rename_i kind
      · have : t.Inner := .of_word kind
        exact .bind inferInstance goesOn
      · split <;> rename_i operator
        · have : t.Inner := by
            refine .of_key (by simp [kind]) fun semicolon => ?_
            rw [semicolon] at operator
            cases operator
          infer_instance
        · exact .bind inferInstance goesOn
      · exact .bind inferInstance goesOn

instance {level : Nat} : Enclosed (atLevel r level) := by
  unfold atLevel
  infer_instance

end Expression

namespace Query

open Sql.Parser

instance : Enclosed asName? := by
  unfold asName?
  infer_instance

/-- The three tokens of a table's columns are taken together. -/
theorem enclosed_allOf {x : Parser ResultColumn} (other : Enclosed x) :
    Enclosed (do
      let dotted ← (fun tokens =>
        match tokens with
        | t :: dot :: star :: _ =>
            .ok (if dot.key == "." && star.key == "*" then Token.name? t else none, tokens)
        | _ => .ok (none, tokens) : Parser (Option String))
      match dotted with
      | some table =>
          let _ ← advance
          let _ ← advance
          let _ ← advance
          pure (.allOf table)
      | none => x) where
  leaves {tokens a left} ended run := by
    obtain ⟨dotted, mid, look, run⟩ := bind_ok run
    rcases tokens with _ | ⟨t, _ | ⟨dot, _ | ⟨star, rest⟩⟩⟩
    iterate 3
      cases look
      exact other.leaves ended run
    obtain ⟨found, rfl⟩ := Prod.mk.inj (Except.ok.inj look)
    cases dotted with
    | none => exact other.leaves ended run
    | some table =>
        split at found
        case isFalse => cases found
        case isTrue keys =>
          simp only [Bool.and_eq_true, beq_iff_eq] at keys
          have inner : t.Inner := ReadsInner.inner found
          cases ended with
          | cons _ ended =>
              cases ended with
              | cons more ended =>
                  obtain ⟨left, third, leaves⟩ := advance_leaves ended fun more =>
                    .of_key more (by simp [keys.2])
                  dsimp only at run
                  rw [bind_run (advance_run inner.more), bind_run (advance_run more),
                    bind_run third] at run
                  cases run
                  exact .take inner (.take (.of_key more (by simp [keys.1])) leaves)

instance : Enclosed (resultColumn r) := by
  refine .bind fun first => .bind fun star => ?_
  split
  · infer_instance
  · exact enclosed_allOf inferInstance

instance : Enclosed joinOperator? := by
  refine .bind fun comma => ?_
  split
  · infer_instance
  refine .bind fun plain => ?_
  split
  · infer_instance
  refine .peek fun first => ?_
  split <;> rename_i found
  · infer_instance
  · have : first.Inner := by
      refine .of_word ?_
      unfold joinWord? at found
      split at found
      · simp_all
      · cases found
    refine .advance (fun _ => inferInstance) (.bind fun more => .bind fun _ => ?_)
    dsimp only
    split <;> infer_instance

variable {group : Parser (List Joined)} [Enclosed group]

instance : Enclosed (source r group) := by
  have : Fact ("INDEXED" ≠ ";") := ⟨by decide⟩
  unfold source
  dsimp only
  infer_instance

instance {kind : JoinKind} : Enclosed (joined r group kind) := by
  unfold joined
  infer_instance

instance : Enclosed (joinTail r group) := by
  refine .bind fun kind => ?_
  cases kind <;> infer_instance

instance {first : Joined} : Enclosed (unconditional first) := by
  unfold unconditional
  split <;> infer_instance

instance {depth : Nat} : Enclosed (sources r depth) := by
  induction depth with
  | zero => exact inferInstanceAs (Enclosed unexpected)
  | succ depth ih =>
      unfold sources
      infer_instance

instance : Enclosed (fromClause r) := by
  unfold fromClause
  infer_instance

instance : Enclosed (valueRow r) := by
  unfold valueRow
  infer_instance

instance : Enclosed (core r) := by
  unfold core
  dsimp only
  infer_instance

instance : Enclosed setOperator? := by
  unfold setOperator?
  infer_instance

instance : Enclosed (orderTerm r) := by
  unfold orderTerm
  dsimp only
  infer_instance

instance : Enclosed (orderClause r) := by
  unfold orderClause
  infer_instance

instance : Enclosed (limitClause r) := by
  unfold limitClause
  infer_instance

instance : Enclosed (orderedCore r) := by
  refine .bind fun core => ?_
  split <;> infer_instance

instance : Enclosed (otherCore r) := by
  refine .bind fun operator => ?_
  cases operator <;> infer_instance

instance {first : OrderedCore} {others : List (SetOp × OrderedCore)} :
    Enclosed (lastCore first others) := by
  induction others generalizing first with
  | nil => exact inferInstanceAs (Enclosed (pure _))
  | cons next others ih =>
      unfold lastCore
      dsimp only
      infer_instance

instance : Enclosed (commonTable r) := by
  unfold commonTable
  dsimp only
  infer_instance

instance : Enclosed (withClause r) := by
  unfold withClause
  infer_instance

instance {common : List CommonTable} : Enclosed (body r common) := by
  unfold body
  infer_instance

instance : Enclosed (select r) := by
  unfold select
  infer_instance

end Query

instance (depth : Nat) : (Rules.at depth).Inside := by
  induction depth with
  | zero => exact ⟨fun _ => inferInstanceAs (Parser.Enclosed Parser.unexpected),
      inferInstanceAs (Parser.Enclosed Parser.unexpected)⟩
  | succ depth ih => exact ⟨fun _ => inferInstanceAs (Parser.Enclosed (Expression.atLevel _ _)),
      inferInstanceAs (Parser.Enclosed (Query.select _))⟩

namespace Command

open Sql.Parser

instance : Enclosed conflict := by
  refine .peek fun t => ?_
  split <;> rename_i found
  · have : t.Inner := by
      unfold conflictWord? at found
      split at found
      · cases found
      · exact .of_word (by simpa using ‹¬(t.kind != .word) = true›)
    infer_instance
  · infer_instance

instance : Enclosed orConflict := by
  unfold orConflict
  infer_instance

instance : Enclosed (returning r) := by
  unfold returning
  infer_instance

instance : Enclosed (assignment r) := by
  unfold assignment
  dsimp only
  infer_instance

instance : Enclosed (indexedColumn r) := by
  refine .bind fun t => .bind fun e => .bind fun descending => ?_
  have last {found : Option String} : Enclosed (match found with
      | some n => pure (n, t.offset)
      | none => refuse "expressions prohibited in PRIMARY KEY and UNIQUE constraints") := by
    cases found <;> infer_instance
  dsimp only
  split
  · exact .bind fun _ => last
  · exact last

instance : Enclosed (indexedColumns r) := by
  unfold indexedColumns
  infer_instance

instance : Enclosed (upsert? r) := by
  unfold upsert?
  dsimp only
  infer_instance

variable {common : List CommonTable}

instance {c : Conflict} : Enclosed (insertRest r common c) := by
  unfold insertRest
  dsimp only
  infer_instance

instance : Enclosed tableAlias := by
  unfold tableAlias
  infer_instance

instance : Enclosed indexHint := by
  have : Fact ("INDEXED" ≠ ";") := ⟨by decide⟩
  unfold indexHint
  infer_instance

instance : Enclosed (updateRest r common) := by
  unfold updateRest
  infer_instance

instance : Enclosed (deleteRest r common) := by
  unfold deleteRest
  infer_instance

instance : Enclosed (withCommon r) := by
  refine .bind fun common => .peek fun t => .ofWord fun inner => ?_
  split <;> infer_instance

instance : Enclosed conflictClause := by
  unfold conflictClause
  infer_instance

instance : Enclosed referenceActions := by
  refine .bind fun _ => .tested fun t => .secondKey fun key => .ite (fun both => ?_) fun _ =>
    inferInstance
  have : t.Inner := .of_word (by simp_all)
  infer_instance

instance : Enclosed (reference r) := by
  unfold reference
  dsimp only
  infer_instance

instance : Enclosed (defaultValue r) := by
  refine .peek fun t => ?_
  split <;> rename_i kind
  · have : t.Inner := .of_word kind
    split
    · refine .ite (fun _ => inferInstance) fun _ => .advance (fun _ => inferInstance) ?_
      split <;> infer_instance
    · infer_instance
  · infer_instance
  · infer_instance

instance : Enclosed (checkRule r) := by
  unfold checkRule
  infer_instance

instance : Enclosed (columnRule? r) := by
  refine .bind fun _ => .peek fun t => .ofWord fun inner => ?_
  dsimp only
  split <;> infer_instance

instance : Enclosed (columnDef r) := by
  unfold columnDef
  infer_instance

instance : Enclosed (tableRule r) := by
  unfold tableRule
  infer_instance

instance : Enclosed atTableRule := by
  unfold atTableRule
  infer_instance

instance {fuel : Nat} : Enclosed (columnDefs r fuel) := by
  induction fuel with
  | zero => exact inferInstanceAs (Enclosed (pure _))
  | succ fuel ih =>
      unfold columnDefs
      infer_instance

instance : Enclosed (tableRuleTail r) := by
  unfold tableRuleTail
  infer_instance

instance : Enclosed (tableRules r) := by
  unfold tableRules
  infer_instance

instance {known : String} : Enclosed (optionNamed known) := by
  refine .bind fun found => ?_
  cases found <;> infer_instance

instance : Enclosed tableOption := by
  unfold tableOption
  infer_instance

instance : Enclosed tableOptions := by
  unfold tableOptions
  dsimp only
  infer_instance

instance : Enclosed ifNotExists := by
  have : Fact ("NOT" ≠ ";") := ⟨by decide⟩
  unfold ifNotExists
  infer_instance

instance : Enclosed ifExists := by
  have : Fact ("EXISTS" ≠ ";") := ⟨by decide⟩
  unfold ifExists
  infer_instance

instance : Enclosed (createTable r) := by
  unfold createTable
  infer_instance

instance : Enclosed (createView r) := by
  unfold createView
  dsimp only
  infer_instance

instance {unique : Bool} : Enclosed (createIndex r unique) := by
  unfold createIndex
  infer_instance

instance : Enclosed (create r) := by
  unfold create
  infer_instance

instance : Enclosed drop := by
  unfold drop
  infer_instance

instance : Enclosed (alter r) := by
  unfold alter
  infer_instance

instance : Enclosed transactionTail := by
  unfold transactionTail
  infer_instance

instance : Enclosed savepointName := by
  unfold savepointName
  infer_instance

instance {key : String} : Enclosed (transaction key) := by
  unfold transaction
  dsimp only
  split <;> infer_instance

instance : Enclosed pragmaValue := by
  refine .bind fun negative => .peek fun t => ?_
  split <;> rename_i named
  · have : t.Inner := ReadsInner.inner named
    infer_instance
  · refine .ite (fun known => ?_) fun _ => inferInstance
    by_cases number : t.kind = .number
    · have : t.Inner := .of_number number
      infer_instance
    · refine .advance (fun more => .of_key more fun semicolon => ?_) inferInstance
      simp [number, semicolon] at known

instance : Enclosed pragma := by
  unfold pragma
  infer_instance

instance : Enclosed (command r) := by
  refine .peek fun t => .ofWord fun inner => ?_
  split <;> infer_instance

instance : Enclosed explain := by
  have : Fact ("PLAN" ≠ ";") := ⟨by decide⟩
  unfold explain
  infer_instance

instance : Enclosed (explained r) := by
  unfold explained
  infer_instance

end Command

end SqlUnits.Sql
