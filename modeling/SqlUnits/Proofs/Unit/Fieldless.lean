import SqlUnits.Proofs.Unit.Rewriting
/-!
Rows that are written back without a field. The edits of a unit make a text all the same, but a
text in which a row has an empty list of fields is no unit.
-/

namespace SqlUnits

variable {f : Filling} {empty : RowDecl → Bool}

/-- The edit of a row: an empty list for some rows, what they are filled in with for the others. -/
def RowDecl.listed? (f : Filling) (empty : RowDecl → Bool) (r : RowDecl) : Option Edit :=
  if empty r then some (.insertion r.insertionPoint (renderFields [])) else r.edit? f

theorem RowDecl.listed?_of_empty {r : RowDecl} (hole : empty r = true) :
    r.listed? f empty = some (.insertion r.insertionPoint (renderFields [])) :=
  if_pos hole

theorem RowDecl.listed?_of_full {r : RowDecl} (full : empty r = false) :
    r.listed? f empty = r.edit? f :=
  if_neg (ne_true_of_eq_false full)

namespace Scanner

variable {lines : LineIndex} {c d m : Cursor}

/-- A reader that reaches a place reaches no other one. -/
theorem Reaches.unique {α : Type} {read : Scan α} {a b : α} {e : Cursor}
    (first : Reaches read c a d) (second : Reaches read c b e) : b = a ∧ e = d := by
  obtain ⟨n, read, rfl⟩ := first
  obtain ⟨n', read', rfl⟩ := second
  rw [read] at read'
  cases read'
  exact ⟨rfl, rfl⟩

theorem Word.unique {w w' : Ident} {e : Cursor} (first : Word c w d) (second : Word c w' e) :
    w' = w ∧ e = d := by
  have settled := Cursor.skip_of_settled first.settled
  rw [← settled] at first second
  have one : Reaches (ident "") c w d := reaches_ident.2 first
  exact one.unique (reaches_ident.2 second)

/-- A token right behind a sign is what comes next. -/
theorem Sign.next {sign : Char} {rest : Text} (reads : Sign sign c d)
    (ahead : c.rest = sign :: rest) (settled : Settled rest) : d.rest = rest := by
  obtain ⟨gap, stretch, gaps⟩ := sign_iff.1 reads
  have same : gap ++ d.rest = rest := (List.cons.inj (stretch.rest.symm.trans ahead)).2
  have skips := gaps.skips 0
  rw [same, skipTrivia_of_settled settled] at skips
  exact (congrArg Cursor.rest skips).symm

theorem ItemAt.unique {draft next other : Draft} {e : Cursor} (first : ItemAt lines draft c next d)
    (second : ItemAt lines draft c other e) : other = next ∧ e = d := by
  obtain ⟨x, ahead, letter⟩ := first.head
  have settled := Cursor.skip_of_settled (settled_of_head ahead (solid_of_isIdentChar letter))
  rw [← settled] at first second
  exact ((reaches_item lines draft c next d).2 first).unique
    ((reaches_item lines draft c other e).2 second)

/-- Nothing can be read of a row with an empty list of fields. -/
theorem RowAt.emptied {keyword : Ident} {r : RowDecl} (at_ : RowAt lines keyword c r d)
    (bare : r.fields = none) :
    Becomes lines c d [.insertion r.insertionPoint (renderFields [])] fun lines' c' _ =>
      ∀ keyword' r' e, ¬RowAt lines' keyword' c' r' e := by
  obtain ⟨⟨m, word, note⟩, _, _⟩ := at_
  rw [bare] at note
  obtain ⟨_, _, _, _, absurd_⟩ | ⟨_, _, rfl⟩ := note
  · cases absurd_
  have chars : (renderFields []).toList = ['(', ')'] := by rw [renderFields_toList]; rfl
  have becomes := word.followed lines (renderFields []).toList
    (show _ = some '(' by rw [chars]; rfl) ⟨by decide, by decide⟩ (by decide)
    (by rw [chars]; decide)
  rw [String.ofList_toList] at becomes
  refine becomes.imp ?_
  rintro lines' c' d' _ _ ⟨w', m', gap, word', _, _, stretch, _, _⟩ keyword' r' e
    ⟨⟨n, name, note⟩, _, known⟩
  obtain ⟨_, rfl⟩ := word'.unique name
  have ahead : n.rest = '(' :: ')' :: (gap ++ d'.rest) := by rw [stretch.rest, chars]; rfl
  rcases note with ⟨o, fields, opens, listed, made⟩ | ⟨absent, _, _⟩
  · have next := opens.next ahead ⟨by decide, by simp⟩
    rcases listed with ⟨rfl, _⟩ | ⟨absent, _⟩
    · exact known made
    · exact absent (by rw [next]; rfl)
  · exact absent (by rw [ahead]; rfl)

/-! Declarations, some of which are rows that are written back without a field. -/

variable {draft next last : Draft}

def Draft.listed (f : Filling) (empty : RowDecl → Bool) (draft : Draft) : List Edit :=
  draft.methods.flatMap (·.edits f) ++ draft.rows.filterMap (·.listed? f empty)

/-- Whether some row is written back without a field. -/
def Draft.hasEmpty (empty : RowDecl → Bool) (draft : Draft) : Bool :=
  draft.rows.any empty

/-- A declaration adds one row, or none. -/
theorem ItemAt.rows_eq (at_ : ItemAt lines draft c next d) :
    ∃ row : Option RowDecl, next.rows = draft.rows ++ row.toList := by
  cases at_ with
  | unit | method => exact ⟨none, (List.append_nil _).symm⟩
  | @row _ r => exact ⟨some r, rfl⟩

/-- The edits of one more declaration, where no row is written back without a field. -/
theorem Draft.listed_perm {row : Option RowDecl} (rows : next.rows = draft.rows ++ row.toList)
    (full : row.any empty = false) {edits : List Edit}
    (perm : (draft.edits f ++ edits).Perm (next.edits f)) :
    (draft.listed f empty ++ edits).Perm (next.listed f empty) := by
  have same : row.toList.filterMap (·.listed? f empty) = row.toList.filterMap (·.edit? f) := by
    refine List.filterMap_congr fun r member => RowDecl.listed?_of_full ?_
    obtain rfl := Option.mem_toList.1 member
    exact full
  refine List.perm_iff_count.2 fun edit => ?_
  have counts := List.perm_iff_count.1 perm edit
  simp only [Draft.edits, Draft.listed, rows, List.filterMap_append, List.count_append,
    same] at counts ⊢
  omega

/-- A row with an empty list is no declaration, whatever has been read before it. -/
theorem ItemAt.emptied {keyword : Ident} {r : RowDecl} (word : Word c keyword m)
    (named : keyword.name = "row") (there : RowAt lines keyword m r d) (bare : r.fields = none) :
    Becomes lines c d [.insertion r.insertionPoint (renderFields [])] fun lines' c' _ =>
      ∀ draft' next' e, ¬ItemAt lines' draft' c' next' e := by
  refine (word.becomes.seq (there.emptied bare)).imp ?_
  rintro lines' c' _ _ _ ⟨m', ⟨w', word', same⟩, stuck⟩ draft' next' e at_
  have name : w'.name = "row" := (congrArg Ident.name same).trans named
  cases at_ with
  | unit other unit _ _ =>
      rw [(word'.unique other).1, name] at unit
      exact absurd unit (by decide)
  | @row keyword' _ _ _ other _ row _ =>
      obtain ⟨rfl, rfl⟩ := word'.unique other
      exact stuck keyword' _ _ row
  | method other method _ _ =>
      rw [(word'.unique other).1, name] at method
      exact absurd method (by decide)

theorem ItemAt.listed (at_ : ItemAt lines draft c next d)
    (bare : ∀ r, empty r = true → r.fields = none) :
    ∃ edits, (draft.listed f empty ++ edits).Perm (next.listed f empty) ∧
      Becomes lines c d edits fun lines' c' d' => ∀ draft' : Draft,
        draft'.onLines lines' = (draft.fill f lines).onLines lines →
        draft.hasEmpty empty = false →
          (next.hasEmpty empty = true → ∀ next' e, ¬ItemAt lines' draft' c' next' e) ∧
          (next.hasEmpty empty = false → ∃ next', ItemAt lines' draft' c' next' d' ∧
            next'.onLines lines' = (next.fill f lines).onLines lines) := by
  obtain ⟨row, rows⟩ := at_.rows_eq
  by_cases hole : row.any empty = true
  · cases at_ with
    | unit | method =>
        cases row with
        | none => cases hole
        | some r => simp at rows
    | @row keyword r m _ word named there fresh =>
        obtain rfl : some r = row := by
          cases row with
          | none => cases hole
          | some r' => simpa using rows
        have hole : empty r = true := hole
        have edit : r.listed? f empty = _ := RowDecl.listed?_of_empty hole
        refine ⟨_, ?_, (ItemAt.emptied word named there (bare r hole)).imp ?_⟩
        · simp [Draft.listed, List.filterMap_append, edit]
        · intro _ _ _ _ _ stuck draft' _ _
          have some : (draft.rows ++ [r]).any empty = true := by
            rw [List.any_append, List.any_cons, hole, Bool.true_or, Bool.or_true]
          exact ⟨fun _ => stuck draft', fun none => absurd some (ne_true_of_eq_false none)⟩
  · have full := eq_false_of_ne_true hole
    obtain ⟨edits, perm, becomes⟩ := at_.becomes f
    refine ⟨edits, Draft.listed_perm rows full perm, becomes.imp ?_⟩
    intro _ _ _ _ _ read draft' same none
    refine ⟨fun some => ?_, fun _ => read draft' same⟩
    have counted : next.hasEmpty empty = draft.hasEmpty empty := by
      unfold Draft.hasEmpty
      rw [rows, List.any_append]
      cases row <;> simp_all
    rw [counted, none] at some
    cases some

/-- The reading of declarations stops at the first row that is written back without a field. -/
theorem ItemsAt.listed (at_ : ItemsAt lines draft c last d)
    (bare : ∀ r, empty r = true → r.fields = none) :
    d.rest = [] ∧ ∃ edits, (draft.listed f empty ++ edits).Perm (last.listed f empty) ∧
      Becomes lines c d edits fun lines' c' _ => ∀ draft' : Draft,
        draft'.onLines lines' = (draft.fill f lines).onLines lines →
        draft.hasEmpty empty = false → last.hasEmpty empty = true →
          ∀ last' e, ¬ItemsAt lines' draft' c' last' e := by
  induction at_ with
  | @done draft c ended =>
      have settled : Settled c.rest := by
        rw [ended]
        trivial
      refine ⟨ended, [], by rw [List.append_nil], (Becomes.here settled).imp ?_⟩
      intro _ _ _ _ _ _ _ _ none some
      rw [none] at some
      cases some
  | @more draft next last c m d first rest ih =>
      obtain ⟨ended, later, perm, others⟩ := ih
      obtain ⟨here, permHere, item⟩ := first.listed (f := f) bare
      refine ⟨ended, here ++ later, ?_, (item.seq others).imp ?_⟩
      · rw [← List.append_assoc]
        exact (permHere.append_right later).trans perm
      · rintro lines' c' d' _ ahead ⟨m', one, others⟩ draft' same none some last' e at_
        obtain ⟨stuck, reads⟩ := one draft' same none
        cases at_ with
        | done ended =>
            obtain ⟨x, begins, _⟩ := first.head
            rw [← ahead.head, ended] at begins
            cases begins
        | @more _ _ _ _ n _ first' rest' =>
            cases hole : next.hasEmpty empty with
            | true => exact stuck hole _ _ first'
            | false =>
                obtain ⟨next', expected, sameNext⟩ := reads hole
                obtain ⟨rfl, rfl⟩ := expected.unique first'
                exact others _ sameNext hole some _ _ rest'

end Scanner

namespace SourceUnit

open Scanner

/-- The edits of a unit are never refused, also if they leave some rows without a field. The text
that they make is read again exactly if there is no such row. -/
theorem scan_listed {path source : String} {unit : SourceUnit}
    (read : scan path source = .ok unit) (f : Filling)
    (bare : ∀ r, empty r = true → r.fields = none) :
    ∃ edits rows all text,
      (unit.methods.flatMap (·.edits f)).foldlM EditList.add {} = .ok edits ∧
      (unit.rows.filterMap (·.listed? f empty)).foldlM EditList.add {} = .ok rows ∧
      edits.extend rows = .ok all ∧ all.apply source = .ok text ∧
      ((∃ again, scan path text = .ok again) ↔ ∀ r ∈ unit.rows, empty r = false) := by
  by_cases full : ∀ r ∈ unit.rows, empty r = false
  · obtain ⟨edits, rows, all, text, again, added, addedRows, extended, applied, scans, _⟩ :=
      scan_fill read f
    have same : unit.rows.filterMap (·.listed? f empty) = unit.rows.filterMap (·.edit? f) :=
      List.filterMap_congr fun r member => RowDecl.listed?_of_full (full r member)
    rw [← same] at addedRows
    exact ⟨edits, rows, all, text, added, addedRows, extended, applied,
      iff_of_true ⟨again, scans⟩ full⟩
  · obtain ⟨draft, d, name, at_, named, declared, rfl⟩ := scan_eq_ok.1 read
    obtain ⟨ended, edits, perm, becomes⟩ := at_.listed (f := f) bare
    obtain ⟨text, d', spliced, stuck⟩ := becomes.whole ended
    obtain ⟨list, rows, all, added, addedRows, extended, applied⟩ := spliced.extend_apply perm.symm
    rw [String.ofList_toList] at applied
    refine ⟨list, rows, all, String.ofList text, added, addedRows, extended, applied,
      iff_of_false ?_ full⟩
    rintro ⟨again, scans⟩
    obtain ⟨last, e, name', at', _⟩ := scan_eq_ok.1 scans
    rw [String.toList_ofList] at at'
    refine stuck ⟨none, [], []⟩ rfl rfl ?_ last e at'
    simpa [Draft.hasEmpty] using full

end SourceUnit

end SqlUnits
