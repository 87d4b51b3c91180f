import SqlUnits.Access.Dialect
import SqlUnits.Proofs.Access.Composition
/-!
Calls of procedures. An escape is `{ call name(args) }`, perhaps with a marker of an OUT parameter
before the word, and without arguments. Which texts are escapes is told here by what is written,
part by part. An escape is read back as it is written, since every part ends before a character that
it does not hold.

An escape is translated to a query that calls a function. The arguments are taken out of one frame
and put into another one, so that the placeholders are the same before and after.
-/

namespace SqlUnits

open Query

/-! Parts of an escape. -/

/-- The word `call`, in any case. -/
def IsCall (word : Text) : Prop :=
  word.map Text.lower = ['c', 'a', 'l', 'l']

/-- The name of a procedure. -/
def IsProcedure : Text → Prop
  | [] => False
  | first :: rest => (isNameLetter first || first == '_') = true ∧ ∀ c ∈ rest, isNameChar c = true

namespace CallEscape

/-- The marker of an OUT parameter, if there is one. -/
inductive SpellsOut : Bool → Text → Prop
  | absent : SpellsOut false []
  | present {gap gap' : Text} : (∀ c ∈ gap, Text.isBlank c = true) →
      (∀ c ∈ gap', Text.isBlank c = true) → SpellsOut true ('?' :: (gap ++ '=' :: gap'))

/-- The arguments in their parentheses, if there are any, with the blanks before these. -/
inductive SpellsArgs : Text → Text → Prop
  | absent : SpellsArgs [] []
  | list {gap : Text} (inside : Text) : (∀ c ∈ gap, Text.isBlank c = true) →
      SpellsArgs (Text.trim inside) (gap ++ '(' :: (inside ++ [')']))

/-- What is written in the braces of an escape: the marker, the word, the name and the arguments,
with blanks around them. -/
inductive SpellsInside (e : CallEscape) : Text → Prop
  | mk {lead mark word gap args trail : Text} :
      (∀ c ∈ lead, Text.isBlank c = true) → SpellsOut e.out mark → IsCall word → gap ≠ [] →
      (∀ c ∈ gap, Text.isBlank c = true) → IsProcedure e.name → SpellsArgs e.args args →
      (∀ c ∈ trail, Text.isBlank c = true) →
      SpellsInside e (lead ++ ((mark ++ (word ++ (gap ++ (e.name ++ args)))) ++ trail))

/-- A text that is the escape. -/
def Spells (e : CallEscape) (cs : Text) : Prop :=
  ∃ inside, SpellsInside e inside ∧ cs = '\x7b' :: (inside ++ ['\x7d'])

end CallEscape

/-! Characters. -/

theorem isLetter_of_lower {c : Char} (letter : Text.isLetter (Text.lower c) = true) :
    Text.isLetter c = true := by
  unfold Text.lower at letter
  split at letter
  · next upper => rw [Text.isLetter, upper, Bool.or_true]
  · exact letter

theorem IsCall.letters {word : Text} (call : IsCall word) : ∀ c ∈ word, Text.isLetter c = true := by
  intro c member
  have among : Text.lower c ∈ word.map Text.lower := List.mem_map_of_mem member
  rw [call] at among
  have all : ['c', 'a', 'l', 'l'].all Text.isLetter = true := by decide
  exact isLetter_of_lower (List.all_eq_true.1 all _ among)

theorem isIdentChar_of_isLetter {c : Char} (letter : Text.isLetter c = true) :
    Text.isIdentChar c = true := by
  rw [Text.isIdentChar, letter, Bool.true_or, Bool.true_or]

/-- No blank and no mark is part of the name of a procedure. -/
theorem inert_of_isNameChar {c : Char} (name : isNameChar c = true) :
    Inert c ∧ Text.isBlank c = false := by
  simp only [isNameChar, isNameLetter, Bool.or_eq_true, beq_iff_eq] at name
  rcases name with (name | (letter | rfl) | rfl) | rfl
  · exact ⟨inert_of_isIdentChar name, Text.isBlank_of_isIdentChar name⟩
  · have name := isIdentChar_of_isLetter letter
    exact ⟨inert_of_isIdentChar name, Text.isBlank_of_isIdentChar name⟩
  · decide
  · decide
  · decide

theorem IsProcedure.all {name : Text} (isProcedure : IsProcedure name) :
    ∀ c ∈ name, isNameChar c = true := by
  cases name with
  | nil => exact absurd isProcedure id
  | cons first rest =>
      obtain ⟨start, others⟩ := isProcedure
      refine List.forall_mem_cons.2 ⟨?_, others⟩
      rcases Bool.or_eq_true_iff.1 start with letter | low
      · rw [isNameChar, letter, Bool.or_true, Bool.true_or]
      · rw [beq_iff_eq.1 low]
        decide

theorem IsProcedure.ne_nil {name : Text} (isProcedure : IsProcedure name) : name ≠ [] := by
  rintro rfl
  exact isProcedure

theorem IsProcedure.head {name : Text} (isProcedure : IsProcedure name) (rest : Text) :
    (name ++ rest).head?.any Text.isBlank = false := by
  cases name with
  | nil => exact absurd isProcedure id
  | cons c name => exact (inert_of_isNameChar (isProcedure.all c (.head name))).2

theorem IsCall.head {word : Text} (call : IsCall word) (rest : Text) :
    (word ++ rest).head?.any Text.isBlank = false ∧ (word ++ rest).head? ≠ some '?' := by
  cases word with
  | nil => cases call
  | cons c word =>
      have name := isIdentChar_of_isLetter (call.letters c (.head word))
      refine ⟨Text.isBlank_of_isIdentChar name, fun mark => ?_⟩
      cases mark
      cases name

/-! Reading an escape, part by part. -/

theorem enclosed?_eq_some {opening closing : Char} {cs inside : Text} :
    enclosed? opening closing cs = some inside ↔ cs = opening :: (inside ++ [closing]) := by
  cases cs with
  | nil => exact iff_of_false nofun nofun
  | cons c rest =>
      simp only [enclosed?]
      split
      · next closed =>
        obtain ⟨rfl, closed⟩ := closed
        obtain ⟨front, rfl⟩ := List.getLast?_eq_some_iff.1 closed
        simp
      · next other =>
        refine iff_of_false nofun fun whole => other ?_
        obtain ⟨rfl, rfl⟩ := List.cons.inj whole
        exact ⟨rfl, by simp⟩

theorem trimStart_blanks {gap rest : Text} (blanks : ∀ c ∈ gap, Text.isBlank c = true)
    (solid : rest.head?.any Text.isBlank = false) : Text.trimStart (gap ++ rest) = rest :=
  Text.dropWhile_run blanks solid

/-- Blanks are all that is taken off the start of a text. -/
theorem trimStart_cut (cs : Text) :
    ∃ gap, cs = gap ++ Text.trimStart cs ∧ (∀ c ∈ gap, Text.isBlank c = true) ∧
      (Text.trimStart cs).head?.any Text.isBlank = false :=
  ⟨cs.takeWhile Text.isBlank, List.takeWhile_append_dropWhile.symm, Text.forall_mem_takeWhile _ _,
    Text.head?_dropWhile _ _⟩

theorem callWord?_eq_some {cs rest : Text} :
    callWord? cs = some rest ↔ ∃ word gap, cs = word ++ (gap ++ rest) ∧ IsCall word ∧ gap ≠ [] ∧
      (∀ c ∈ gap, Text.isBlank c = true) ∧ rest.head?.any Text.isBlank = false := by
  constructor
  · intro read
    unfold callWord? at read
    split at read
    · next call =>
      dsimp only at read
      split at read
      · next blank =>
        cases read
        obtain ⟨gap, cut, blanks, solid⟩ := trimStart_cut (cs.drop 4)
        refine ⟨cs.take 4, gap, ?_, call, ?_, blanks, solid⟩
        · rw [← cut, List.take_append_drop]
        · rintro rfl
          rw [List.nil_append] at cut
          rw [← cut, blank] at solid
          cases solid
      · cases read
    · cases read
  · rintro ⟨word, gap, rfl, call, some_, blanks, solid⟩
    have four : word.length = 4 := by
      have length := congrArg List.length call
      rwa [List.length_map] at length
    have starts : (word ++ (gap ++ rest)).take 4 = word := List.take_left' four
    have ends : (word ++ (gap ++ rest)).drop 4 = gap ++ rest := List.drop_left' four
    have blank : (gap ++ rest).head?.any Text.isBlank = true := by
      cases gap with
      | nil => exact absurd rfl some_
      | cons c gap => exact blanks c (.head gap)
    unfold callWord?
    rw [starts, if_pos (show word.map Text.lower = _ from call)]
    dsimp only
    rw [ends, if_pos blank, trimStart_blanks blanks solid]

namespace CallEscape

theorem splitOut_spelled {cs : Text} {out : Bool} {rest : Text}
    (split : splitOut cs = (out, rest)) : ∃ mark, SpellsOut out mark ∧ cs = mark ++ rest := by
  unfold splitOut at split
  split at split
  · next cs =>
    obtain ⟨gap, cut, blanks, -⟩ := trimStart_cut cs
    split at split
    · next behind marked =>
      cases split
      obtain ⟨gap', cut', blanks', -⟩ := trimStart_cut behind
      refine ⟨_, .present blanks blanks', ?_⟩
      rw [cut, marked, List.cons_append, List.append_assoc, List.cons_append, ← cut']
    · cases split
      exact ⟨[], .absent, rfl⟩
  · cases split
    exact ⟨[], .absent, rfl⟩

theorem splitOut_append {out : Bool} {mark rest : Text} (spells : SpellsOut out mark)
    (solid : rest.head?.any Text.isBlank = false) (noMark : rest.head? ≠ some '?') :
    splitOut (mark ++ rest) = (out, rest) := by
  cases spells with
  | absent =>
      unfold splitOut
      split
      · next same => exact absurd (congrArg List.head? same) noMark
      · rfl
  | @present gap gap' blanks blanks' =>
      have first : Text.trimStart (gap ++ '=' :: (gap' ++ rest)) = '=' :: (gap' ++ rest) :=
        trimStart_blanks blanks rfl
      rw [List.cons_append, List.append_assoc, List.cons_append]
      simp only [splitOut, first, trimStart_blanks blanks' solid]

theorem readCall?_spelled {out : Bool} {cs : Text} {e : CallEscape}
    (read : readCall? out cs = some e) :
    e.out = out ∧ IsProcedure e.name ∧ ∃ args trail, SpellsArgs e.args args ∧
      (∀ c ∈ trail, Text.isBlank c = true) ∧ cs = e.name ++ (args ++ trail) := by
  unfold readCall? at read
  simp only [Option.bind_eq_bind, Option.bind_eq_some_iff] at read
  obtain ⟨first, head, read⟩ := read
  obtain ⟨rest, name⟩ := List.head?_eq_some_iff.1 head
  have all := Text.forall_mem_takeWhile isNameChar cs
  have cut := List.prefix_iff_eq_append.1 (List.takeWhile_prefix isNameChar (l := cs))
  obtain ⟨gap, cut', blanks, -⟩ := trimStart_cut (cs.drop (cs.takeWhile isNameChar).length)
  split at read
  · cases read
  · next start =>
    have isProcedure : IsProcedure (cs.takeWhile isNameChar) := by
      rw [Bool.not_eq_true', Bool.not_eq_false] at start
      rw [name] at all ⊢
      exact ⟨start, fun c member => all c (.tail _ member)⟩
    split at read
    · next none_ =>
      cases read
      refine ⟨rfl, isProcedure, [], gap, .absent, blanks, ?_⟩
      rw [List.isEmpty_iff.1 none_, List.append_nil] at cut'
      rw [List.nil_append, ← cut', cut]
    · obtain ⟨inside, args, same⟩ := Option.bind_eq_some_iff.1 read
      cases same
      refine ⟨rfl, isProcedure, _, [], .list inside blanks, nofun, ?_⟩
      rw [List.append_nil, ← enclosed?_eq_some.1 args, ← cut', cut]

theorem readCall?_append {out : Bool} {name args inside : Text} (isProcedure : IsProcedure name)
    (spells : SpellsArgs args inside) :
    readCall? out (name ++ inside) = some ⟨out, name, args⟩ := by
  have stop : inside.head?.any isNameChar = false := by
    cases spells with
    | absent => rfl
    | @list gap inside blanks =>
        cases gap with
        | nil => rfl
        | cons c gap =>
            refine Bool.eq_false_iff.2 fun isName => ?_
            have solid := (inert_of_isNameChar isName).2
            rw [blanks c (.head gap)] at solid
            cases solid
  unfold readCall?
  simp only [Text.takeWhile_run isProcedure.all stop, List.drop_left]
  cases name with
  | nil => exact absurd isProcedure id
  | cons first rest =>
      have start : (isNameLetter first || first == '_') = true := isProcedure.1
      simp only [List.head?_cons, Option.bind_eq_bind, Option.bind_some, start, Bool.not_true]
      cases spells with
      | absent => rfl
      | @list gap inside blanks =>
          have after : Text.trimStart (gap ++ '(' :: (inside ++ [')'])) =
            '(' :: (inside ++ [')']) := trimStart_blanks blanks rfl
          have list : enclosed? '(' ')' ('(' :: (inside ++ [')'])) = some inside :=
            enclosed?_eq_some.2 rfl
          simp [after, list]

/-- Between the blanks in the braces, an escape begins and ends with characters of its own. -/
theorem trim_spelled {out : Bool} {lead mark word gap name args inside trail : Text}
    (leads : ∀ c ∈ lead, Text.isBlank c = true) (marked : SpellsOut out mark)
    (call : IsCall word) (isProcedure : IsProcedure name) (spells : SpellsArgs args inside)
    (trails : ∀ c ∈ trail, Text.isBlank c = true) :
    Text.trim (lead ++ ((mark ++ (word ++ (gap ++ (name ++ inside)))) ++ trail)) =
      mark ++ (word ++ (gap ++ (name ++ inside))) := by
  have start : (mark ++ (word ++ (gap ++ (name ++ inside)))).head?.any Text.isBlank = false := by
    cases marked with
    | absent => exact (call.head _).1
    | present => rfl
  have last : (name ++ inside).getLast?.any Text.isBlank = false := by
    cases spells with
    | absent =>
        rw [List.append_nil]
        cases ends : name.getLast? with
        | none => rfl
        | some c => exact (inert_of_isNameChar (isProcedure.all c (List.mem_of_getLast? ends))).2
    | list =>
        rw [List.getLast?_append_of_ne_nil _ (by simp), List.getLast?_append_of_ne_nil _ (by simp),
          List.getLast?_cons_of_ne_nil (by simp), List.getLast?_concat]
        rfl
  have some_ : name ++ inside ≠ [] := List.append_ne_nil_of_left_ne_nil isProcedure.ne_nil _
  have ends : (mark ++ (word ++ (gap ++ (name ++ inside)))).getLast? =
      (name ++ inside).getLast? := by
    rw [← List.append_assoc, ← List.append_assoc, List.getLast?_append_of_ne_nil _ some_]
  have whole : mark ++ (word ++ (gap ++ (name ++ inside))) ≠ [] := by
    simp [isProcedure.ne_nil]
  exact Text.trim_pad leads trails whole (Text.trim_of_solid start (ends ▸ last))

/-- An escape is read from the texts that are written so, and from no others. -/
theorem read?_eq_some_iff {sql : String} {e : CallEscape} :
    read? sql = some e ↔ e.Spells (Text.trim sql.toList) := by
  unfold read?
  simp only [Option.bind_eq_bind, Option.bind_eq_some_iff]
  constructor
  · rintro ⟨inside, braces, rest, called, read⟩
    obtain ⟨lead, trail, cut, leads, trails⟩ := Text.trim_cut inside
    rcases parts : splitOut (Text.trim inside) with ⟨out, body⟩
    rw [parts] at called read
    dsimp only at called read
    obtain ⟨mark, marked, split⟩ := splitOut_spelled parts
    obtain ⟨word, gap, written, call, some_, blanks, -⟩ := callWord?_eq_some.1 called
    obtain ⟨rfl, isProcedure, args, more, spells, mores, same⟩ := readCall?_spelled read
    refine ⟨inside, ?_, enclosed?_eq_some.1 braces⟩
    have whole : inside = lead ++ ((mark ++ (word ++ (gap ++ (e.name ++ args)))) ++
        (more ++ trail)) := by
      rw [cut, split, written, same]
      simp only [List.append_assoc]
    rw [whole]
    refine .mk leads marked call some_ blanks isProcedure spells fun c member => ?_
    exact (List.mem_append.1 member).elim (mores c) (trails c)
  · rintro ⟨inside, spells, braces⟩
    refine ⟨inside, enclosed?_eq_some.2 braces, ?_⟩
    cases spells with
    | @mk lead mark word gap args trail leads marked call some_ blanks isProcedure spells trails =>
        have body := call.head (gap ++ (e.name ++ args))
        have parts := splitOut_append marked body.1 body.2
        rw [trim_spelled leads marked call isProcedure spells trails, parts]
        refine ⟨e.name ++ args, callWord?_eq_some.2 ⟨word, gap, rfl, call, some_, blanks, ?_⟩,
          readCall?_append isProcedure spells⟩
        exact isProcedure.head args

/-! The frame of the arguments. -/

theorem inert_blanks {gap : Text} (blanks : ∀ c ∈ gap, Text.isBlank c = true) :
    ∀ c ∈ gap, Inert c :=
  fun c member => (delimits_of_isBlank (blanks c member)).1

theorem delimits_blanks {gap : Text} (blanks : ∀ c ∈ gap, Text.isBlank c = true) :
    ∀ c ∈ gap, Delimits c :=
  fun c member => delimits_of_isBlank (blanks c member)

theorem SpellsArgs.frame {args written : Text} (spells : SpellsArgs args written) :
    ∃ before behind, written = before ++ (args ++ behind) ∧ (∀ c ∈ before, Inert c) ∧
      ∀ c ∈ behind, Delimits c := by
  cases spells with
  | absent => exact ⟨[], [], rfl, nofun, nofun⟩
  | @list gap inside blanks =>
      obtain ⟨lead, trail, cut, leads, trails⟩ := Text.trim_cut inside
      refine ⟨gap ++ '(' :: lead, trail ++ [')'], ?_, ?_, ?_⟩
      · rw [List.append_assoc, List.cons_append, ← List.append_assoc _ trail,
          ← List.append_assoc lead, ← cut]
      · exact List.forall_mem_append.2 ⟨inert_blanks blanks,
          List.forall_mem_cons.2 ⟨by decide, inert_blanks leads⟩⟩
      · exact List.forall_mem_append.2 ⟨delimits_blanks trails,
          List.all_iff_forall_prop.1 (by decide)⟩

/-- An escape without a marker is its arguments in a frame. -/
theorem Spells.frame {e : CallEscape} {cs : Text} (spells : e.Spells (Text.trim cs))
    (plain : e.out = false) :
    ∃ before behind, cs = before ++ (e.args ++ behind) ∧ (∀ c ∈ before, Inert c) ∧
      ∀ c ∈ behind, Delimits c := by
  obtain ⟨inside, spells, braces⟩ := spells
  obtain ⟨lead', trail', cut, leads', trails'⟩ := Text.trim_cut cs
  rw [braces] at cut
  cases spells with
  | @mk lead mark word gap args trail leads marked call some_ blanks isProcedure spells trails =>
      rw [plain] at marked
      cases marked
      obtain ⟨before, behind, rfl, inert, delimits⟩ := spells.frame
      have letters : ∀ c ∈ word, Inert c := fun c member =>
        inert_of_isIdentChar (isIdentChar_of_isLetter (call.letters c member))
      have name : ∀ c ∈ e.name, Inert c := fun c member =>
        (inert_of_isNameChar (isProcedure.all c member)).1
      refine ⟨lead' ++ '\x7b' :: (lead ++ (word ++ (gap ++ (e.name ++ before)))),
        behind ++ (trail ++ '\x7d' :: trail'), ?_, ?_, ?_⟩
      · rw [cut]
        simp only [List.append_assoc, List.cons_append, List.nil_append]
      · simp only [List.forall_mem_append, List.forall_mem_cons]
        exact ⟨inert_blanks leads', by decide, inert_blanks leads, letters, inert_blanks blanks,
          name, inert⟩
      · simp only [List.forall_mem_append, List.forall_mem_cons]
        exact ⟨delimits, delimits_blanks trails, by decide, delimits_blanks trails'⟩

/-- The query that calls the function of a procedure. -/
def select (e : CallEscape) : String :=
  "SELECT " ++ String.ofList e.name ++ "(" ++ String.ofList e.args ++ ")"

theorem marks_select {e : CallEscape} (name : ∀ c ∈ e.name, Inert c)
    {names : List (Option String)} : Marks e.select.toList names ↔ Marks e.args names := by
  have whole : e.select.toList =
      ("SELECT ".toList ++ (e.name ++ ['('])) ++ (e.args ++ [')']) := by
    simp [select]
  rw [whole]
  have opening : ∀ c ∈ "SELECT ".toList, Inert c := List.all_iff_forall_prop.1 (by decide)
  have inner : ∀ c ∈ ['('], Inert c := List.all_iff_forall_prop.1 (by decide)
  refine Marks.framed ?_ (List.all_iff_forall_prop.1 (by decide))
  exact List.forall_mem_append.2 ⟨opening, List.forall_mem_append.2 ⟨name, inner⟩⟩

theorem Spells.isProcedure {e : CallEscape} {cs : Text} (spells : e.Spells cs) :
    IsProcedure e.name := by
  obtain ⟨_, ⟨_, _, _, _, _, isProcedure, _, _⟩, _⟩ := spells
  exact isProcedure

end CallEscape

namespace Dialect

theorem sqlite_callSql {sql : String} {e : CallEscape}
    (spells : e.Spells (Text.trim sql.toList)) :
    sqlite.callSql sql =
      if e.out then .error (.configuration .outParameters) else .ok e.select := by
  have read := CallEscape.read?_eq_some_iff.2 spells
  simp only [sqlite, read]
  rfl

theorem sqlite_callSql_plain {sql : String}
    (plain : ∀ e : CallEscape, ¬e.Spells (Text.trim sql.toList)) :
    sqlite.callSql sql = .ok sql := by
  have read : CallEscape.read? sql = none := Option.eq_none_iff_forall_ne_some.2 fun e found =>
    plain e (CallEscape.read?_eq_some_iff.1 found)
  simp only [sqlite, read]

/-- A text is left as it is unless it is an escape without a marker. -/
theorem sqlite_callSql_eq_ok {sql text : String} (translated : sqlite.callSql sql = .ok text) :
    text = sql ∨ ∃ e : CallEscape, e.Spells (Text.trim sql.toList) ∧ e.out = false ∧
      text = e.select := by
  by_cases spelled : ∃ e : CallEscape, e.Spells (Text.trim sql.toList)
  · obtain ⟨e, spells⟩ := spelled
    rw [sqlite_callSql spells] at translated
    split at translated
    · cases translated
    · next plain =>
      cases translated
      exact .inr ⟨e, spells, Bool.eq_false_iff.2 plain, rfl⟩
  · rw [sqlite_callSql_plain (not_exists.1 spelled)] at translated
    cases translated
    exact .inl rfl

theorem marks_callSql {sql text : String} (translated : sqlite.callSql sql = .ok text)
    {names : List (Option String)} : Marks text.toList names ↔ Marks sql.toList names := by
  rcases sqlite_callSql_eq_ok translated with rfl | ⟨e, spells, plain, rfl⟩
  · exact Iff.rfl
  · obtain ⟨before, behind, written, inert, delimits⟩ := spells.frame plain
    have name : ∀ c ∈ e.name, Inert c := fun c member =>
      (inert_of_isNameChar (spells.isProcedure.all c member)).1
    rw [CallEscape.marks_select name, written, Marks.framed inert delimits]

/-! Calls with placeholders alone. -/

theorem marks_question {rest : Text} {names : List (Option String)}
    (noDigit : rest.head?.any Text.isDigit = false) (marked : Marks rest names) :
    Marks ('?' :: rest) (none :: names) := by
  obtain ⟨ps, cut, rfl, rfl⟩ := marked
  exact ⟨.positional :: ps, ⟨.positional noDigit, cut⟩, rfl, rfl⟩

/-- The arguments of a call with so many placeholders. -/
def questions (n : Nat) : Text :=
  [',', ' '].intercalate (List.replicate n ['?'])

theorem questions_step (n : Nat) : questions (n + 2) = '?' :: ',' :: ' ' :: questions (n + 1) := by
  simp only [questions, List.replicate_succ, List.intercalate_cons_cons]
  rfl

theorem marks_questions (n : Nat) : Marks (questions n) (List.replicate n none) := by
  induction n with
  | zero => exact ⟨[], trivial, rfl, rfl⟩
  | succ n ih =>
      cases n with
      | zero => exact marks_question rfl ⟨[], trivial, rfl, rfl⟩
      | succ n =>
          rw [questions_step]
          have between : ∀ c ∈ [',', ' '], Inert c := List.all_iff_forall_prop.1 (by decide)
          exact marks_question rfl ((Marks.behind_inert between).2 ih)

theorem trim_questions (n : Nat) : Text.trim (questions n) = questions n := by
  have ends (n : Nat) : (questions (n + 1)).head? = some '?' ∧
      (questions (n + 1)).getLast? = some '?' := by
    induction n with
    | zero => exact ⟨rfl, rfl⟩
    | succ n ih =>
        have some_ : questions (n + 1) ≠ [] := fun none_ => by
          rw [none_] at ih
          cases ih.1
        rw [questions_step]
        refine ⟨rfl, ?_⟩
        rw [List.getLast?_cons_of_ne_nil (by simp), List.getLast?_cons_of_ne_nil (by simp),
          List.getLast?_cons_of_ne_nil some_, ih.2]
  cases n with
  | zero => rfl
  | succ n =>
      refine Text.trim_of_solid ?_ ?_
      · rw [(ends n).1]
        rfl
      · rw [(ends n).2]
        rfl

/-- The query that a call with so many placeholders is translated to. -/
def selectForm (name : String) (n : Nat) : String :=
  "SELECT " ++ name ++ "(" ++ String.intercalate ", " (List.replicate n "?") ++ ")"

theorem toList_questions (n : Nat) :
    (String.intercalate ", " (List.replicate n "?")).toList = questions n := by
  rw [String.toList_intercalate, List.map_replicate]
  rfl

theorem spells_callForm {name : String} (isProcedure : IsProcedure name.toList) (n : Nat) :
    CallEscape.Spells ⟨false, name.toList, questions n⟩ (Text.trim (callForm name n).toList) := by
  have whole : (callForm name n).toList =
      '\x7b' :: (([' '] ++ (([] ++ ("call".toList ++ ([' '] ++ (name.toList ++
        ([] ++ '(' :: (questions n ++ [')'])))))) ++ [' '])) ++ ['\x7d']) := by
    simp [callForm, questions]
  have trimmed : Text.trim (callForm name n).toList = (callForm name n).toList := by
    refine Text.trim_of_solid ?_ ?_
    · rw [whole]
      rfl
    · rw [whole, List.getLast?_cons_of_ne_nil (by simp), List.getLast?_concat]
      rfl
  have list : CallEscape.SpellsArgs (questions n) ([] ++ '(' :: (questions n ++ [')'])) := by
    have noGap : ∀ c ∈ ([] : Text), Text.isBlank c = true := nofun
    have list := CallEscape.SpellsArgs.list (questions n) noGap
    rwa [trim_questions] at list
  rw [trimmed, whole]
  have call : IsCall "call".toList := rfl
  have blank : ∀ c ∈ [' '], Text.isBlank c = true := List.all_eq_true.1 rfl
  exact ⟨_, .mk blank .absent call (by decide) blank isProcedure list blank, rfl⟩

/-- A text and what it is translated to have the same placeholders, in number, by name and in order.
Only an escape without a marker is changed. A call with placeholders alone becomes a query with as
many. -/
theorem callSql_placeholders (sql : String) :
    (∀ q text, parse sql = .ok q → sqlite.callSql sql = .ok text → ∃ q', parse text = .ok q' ∧
      q'.placeholders.map (·.name) = q.placeholders.map (·.name)) ∧
    (∀ text, sqlite.callSql sql = .ok text → text = sql ∨
      ∃ e : CallEscape, e.Spells (Text.trim sql.toList) ∧ e.out = false ∧ text = e.select) ∧
    ∀ name n, IsProcedure name.toList → sqlite.callSql (callForm name n) = .ok (selectForm name n) ∧
      ∃ q, parse (selectForm name n) = .ok q ∧
        q.placeholders.map (·.name) = List.replicate n none := by
  refine ⟨fun q text parsed translated => ?_, fun text => sqlite_callSql_eq_ok,
    fun name n isProcedure => ?_⟩
  · have marked : Marks sql.toList (q.placeholders.map (·.name)) :=
      marks_iff_parse.2 ⟨q, parsed, rfl⟩
    exact marks_iff_parse.1 ((marks_callSql translated).2 marked)
  · have spells := spells_callForm isProcedure n
    have same : CallEscape.select ⟨false, name.toList, questions n⟩ = selectForm name n := by
      rw [CallEscape.select, selectForm, ← toList_questions, String.ofList_toList,
        String.ofList_toList]
    have inert : ∀ c ∈ name.toList, Inert c := fun c member =>
      (inert_of_isNameChar (isProcedure.all c member)).1
    have translated := sqlite_callSql spells
    rw [same] at translated
    refine ⟨translated, marks_iff_parse.1 ?_⟩
    rw [← same]
    exact (CallEscape.marks_select inert).2 (marks_questions n)

/-- Marks in quotes and comments are none, before and after, and neither is a parenthesis there. -/
theorem callSql_placeholders_quoted :
    let sql := " \x7b CALL log.add( ?, ':a)', :b /* ?) */ ) \x7d\n"
    let text := "SELECT log.add(?, ':a)', :b /* ?) */)"
    ∃ q q', parse sql = .ok q ∧ sqlite.callSql sql = .ok text ∧ parse text = .ok q' ∧
      q.placeholders.map (·.name) = [none, some "b"] ∧
      q'.placeholders.map (·.name) = [none, some "b"] := by
  intro sql text
  have parsed : parse sql = .ok ⟨" \x7b CALL log.add( ?, ':a)', ? /* ?) */ ) \x7d\n",
      [⟨17, none, ⟨17, 18⟩⟩, ⟨27, some "b", ⟨27, 29⟩⟩]⟩ := by decide +kernel
  have read : (CallEscape.read? sql).map (fun e => (e.out, e.select)) = some (false, text) := by
    decide +kernel
  obtain ⟨e, found, same⟩ := Option.map_eq_some_iff.1 read
  obtain ⟨plain, select⟩ := Prod.mk.inj same
  have translated := sqlite_callSql (CallEscape.read?_eq_some_iff.1 found)
  rw [plain, select] at translated
  obtain ⟨keeps, -, -⟩ := callSql_placeholders sql
  obtain ⟨q', parsed', names⟩ := keeps _ text parsed translated
  exact ⟨_, q', parsed, translated, parsed', rfl, names⟩

end Dialect

/-! Parameters of calls. -/

namespace QueryPiece

variable {p : QueryPiece} {text : String}

theorem balanced_iff_marks :
    p.Balanced ↔ ∃ names, Marks p.sql.toList names ∧ names.length = p.params.length := by
  unfold Balanced
  rw [placeholderCount_eq_ok]
  constructor
  · rintro ⟨q, parsed, count⟩
    exact ⟨_, marks_iff_parse.2 ⟨q, parsed, rfl⟩, by rw [List.length_map, ← count]; rfl⟩
  · rintro ⟨names, marked, count⟩
    obtain ⟨q, parsed, rfl⟩ := marks_iff_parse.1 marked
    exact ⟨q, parsed, by rw [← count, List.length_map]; rfl⟩

/-- A call has one parameter for each placeholder after it is translated if it had so before. -/
theorem Balanced.call (translated : Dialect.sqlite.callSql p.sql = .ok text) :
    (⟨text, p.params⟩ : QueryPiece).Balanced ↔ p.Balanced := by
  simp only [balanced_iff_marks, Dialect.marks_callSql translated]

end QueryPiece

end SqlUnits
