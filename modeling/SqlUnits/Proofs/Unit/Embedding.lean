import SqlUnits.Proofs.Query.Delimiting
import SqlUnits.Proofs.Unit.Scan
/-!
Statements in the text of a unit: where their blocks end, and that their texts, cut out and trimmed,
are read like the blocks they were in.
-/

namespace SqlUnits

open Scanner

theorem Scanner.SqlAt.complete {c d : Cursor} {sql : SqlText} (at_ : SqlAt c sql d) :
    Query.Complete sql.text.toList := by
  obtain ⟨inside, _, _, _, isInside, _, rfl⟩ := at_
  simpa [blockText] using isInside.complete.trim

theorem Scanner.StatementAt.complete {lines : LineIndex} {c d : Cursor} {s : StatementDecl}
    (at_ : StatementAt lines c s d) : ∀ sql ∈ s.sql, Query.Complete sql.text.toList := by
  cases at_ with
  | proc | nextval => nofun
  | sql _ _ _ _ _ _ block =>
      rintro _ ⟨⟩
      exact block.complete

/-- No statement of a unit leaves a region open. -/
theorem SourceUnit.scan_complete {path source : String} {unit : SourceUnit}
    (read : scan path source = .ok unit) :
    ∀ m ∈ unit.methods, ∀ s ∈ m.statements, ∀ sql ∈ s.sql, Query.Complete sql.text.toList := by
  obtain ⟨_, _, _, at_, _, _, rfl⟩ := scan_eq_ok.1 read
  intro m member s inside
  obtain ⟨_, _, here⟩ := at_.each nofun m member s inside
  exact here.complete

/-- A block ends where the braces outside of regions are balanced for the first time, whatever is
before and behind it, and what a block has in it can be read as a statement, as far as regions
are concerned. -/
theorem SourceUnit.blocks_delimited :
    (∀ (before after : Text) (stop : Nat),
      Query.blockEnd (Text.byteLength before) ('\x7b' :: after) = .ok stop ↔
        ∃ read rest, '\x7b' :: after = read ++ '\x7d' :: rest ∧
          stop = Text.byteLength (before ++ read) ∧ Query.ClosesFirst read rest) ∧
    (∀ before inside rest : Text,
      Query.blockEnd (Text.byteLength before) ('\x7b' :: (inside ++ '\x7d' :: rest)) =
        .ok (Text.byteLength (before ++ '\x7b' :: inside)) →
      ∀ before' rest' : Text,
        Query.blockEnd (Text.byteLength before') ('\x7b' :: (inside ++ '\x7d' :: rest')) =
          .ok (Text.byteLength (before' ++ '\x7b' :: inside))) ∧
    ∀ (path source : String) (unit : SourceUnit), scan path source = .ok unit →
      ∀ m ∈ unit.methods, ∀ s ∈ m.statements, ∀ sql ∈ s.sql,
        (∃ q, Query.parse sql.text = .ok q) ∨
          ∃ at_, Query.parse sql.text = .error (.numberedPlaceholder at_) :=
  ⟨fun _ _ _ => Query.blockEnd_eq_ok_iff, fun _ _ _ => Query.blockEnd_local,
    fun _ _ _ read m member s inside sql written =>
      (scan_complete read m member s inside sql written).parse⟩

/-- Trimming cuts a comment that reaches to the end of a block. -/
theorem SourceUnit.blocks_delimited_comment :
    let source := "unit U fn m() \x7b update \x7b DELETE FROM t -- \x7d all\n \x7d \x7d"
    Query.blockEnd 0 "\x7ba -- \x7d\n\x7d".toList = .ok 8 ∧
      Query.blockEnd 2 "\x7ba -- \x7d\n\x7d \x7d".toList = .ok 10 ∧
      ∃ unit, scan "u" source = .ok unit ∧ ∃ m ∈ unit.methods, ∃ s ∈ m.statements, ∃ sql ∈ s.sql,
        sql.text = "DELETE FROM t -- \x7d all" ∧
          ((∃ q, Query.parse sql.text = .ok q) ∨
            ∃ at_, Query.parse sql.text = .error (.numberedPlaceholder at_)) := by
  intro source
  obtain ⟨_, moved, readable⟩ := blocks_delimited
  have here : Query.blockEnd 0 ("\x7ba -- \x7d\n\x7d".toList) = .ok 8 := by decide +kernel
  refine ⟨here, moved [] ['a', ' ', '-', '-', ' ', '\x7d', '\n'] [] here ['é'] [' ', '\x7d'], ?_⟩
  have texts : (scan "u" source).toOption.map (fun unit =>
      unit.methods.flatMap fun m => m.statements.flatMap fun s => s.sql.toList.map (·.text)) =
        some ["DELETE FROM t -- \x7d all"] := by decide +kernel
  cases read : scan "u" source with
  | error e =>
      rw [read] at texts
      cases texts
  | ok unit =>
      rw [read] at texts
      have written := (Option.some.inj texts).symm ▸ List.mem_singleton_self _
      obtain ⟨m, member, written⟩ := List.mem_flatMap.1 written
      obtain ⟨s, inside, written⟩ := List.mem_flatMap.1 written
      obtain ⟨sql, found, text⟩ := List.mem_map.1 written
      have found := Option.mem_toList.1 found
      exact ⟨unit, rfl, m, member, s, inside, sql, found, text,
        readable "u" source unit read m member s inside sql found⟩

end SqlUnits
