import SqlUnits.Access.Dialect
import SqlUnits.Proofs.Query.Framing
import SqlUnits.Sql.Parser
/-!
Names in double quotes. A quote inside a name is doubled, so that the region a name is written as
ends with its last character, and undoubling what is inside of it gives the name back. The name of
a sequence is the one region of the statement that it is put into, and brings no placeholder in.
-/

namespace SqlUnits

namespace Query

variable {quote c : Char} {cs inside : Text} {ps : List Piece}

/-! Doubling the quotes of a text. -/

def doubled (quote : Char) (cs : Text) : Text :=
  cs.flatMap fun c => if c = quote then [quote, quote] else [c]

@[simp] theorem doubled_nil : doubled quote [] = [] := rfl

@[simp] theorem doubled_quote :
    doubled quote (quote :: cs) = quote :: quote :: doubled quote cs := by
  simp [doubled]

theorem doubled_other (other : c ≠ quote) : doubled quote (c :: cs) = c :: doubled quote cs := by
  simp [doubled, other]

/-- The text of which this one has the quotes doubled; a quote alone is refused. -/
def undoubled? (quote : Char) : Text → Option Text
  | [] => some []
  | [c] => if c = quote then none else some [c]
  | c :: d :: rest =>
      if c = quote then
        if d = quote then (undoubled? quote rest).map (quote :: ·) else none
      else (undoubled? quote (d :: rest)).map (c :: ·)

theorem undoubled?_other (other : c ≠ quote) (rest : Text) :
    undoubled? quote (c :: rest) = (undoubled? quote rest).map (c :: ·) := by
  cases rest <;> simp [undoubled?, other]

theorem undoubled?_doubled (quote : Char) (cs : Text) :
    undoubled? quote (doubled quote cs) = some cs := by
  induction cs with
  | nil => rfl
  | cons c cs ih =>
      by_cases same : c = quote
      · subst same
        simp [undoubled?, ih]
      · rw [doubled_other same, undoubled?_other same, ih, Option.map_some]

theorem undoubled?_eq_some_iff : undoubled? quote inside = some cs ↔ inside = doubled quote cs := by
  constructor
  · intro read
    fun_induction undoubled? quote inside generalizing cs with
    | case1 =>
        cases read
        rfl
    | case2 => cases read
    | case3 c other =>
        cases read
        rw [doubled_other other, doubled_nil]
    | case4 rest ih =>
        obtain ⟨tail, found, rfl⟩ := Option.map_eq_some_iff.1 read
        rw [doubled_quote, ih found]
    | case5 => cases read
    | case6 c d rest other ih =>
        obtain ⟨tail, found, rfl⟩ := Option.map_eq_some_iff.1 read
        rw [doubled_other other, ih found]
  · rintro rfl
    exact undoubled?_doubled quote cs

theorem paired_doubled (quote : Char) (cs : Text) : Paired quote (doubled quote cs) := by
  induction cs with
  | nil => exact .nil
  | cons c cs ih =>
      by_cases same : c = quote
      · subst same
        rw [doubled_quote]
        exact .pair ih
      · rw [doubled_other same]
        exact .other same ih

/-! Texts without placeholders. -/

theorem ofPieces_kept (kept : ∀ p ∈ ps, p.isPlaceholder = false) :
    ParsedQuery.ofPieces ps = ⟨String.ofList (spelled ps), []⟩ := by
  have normal : ps.flatMap Piece.normal = spelled ps :=
    List.flatMap_congr fun p member => Piece.normal_eq_raw (kept p member)
  have none (out raw : Nat) : placeholdersFrom out raw ps = [] := by
    clear normal
    induction ps generalizing out raw with
    | nil => rfl
    | cons p ps ih =>
        obtain ⟨first, others⟩ := List.forall_mem_cons.1 kept
        rw [placeholdersFrom_kept first, ih others]
  rw [ParsedQuery.ofPieces, normal, none]

/-! Inert text. -/

theorem head?_ne_of_inert (inert : ∀ c ∈ cs, Inert c) : cs.head? ≠ some '"' := fun quote =>
  absurd (inert '"' (List.mem_of_mem_head? quote)) (by decide)

/-- No region begins in inert text. -/
theorem regionsFrom_inert (inert : ∀ c ∈ cs, Inert c) (rest : Text) (offset : Nat) :
    regionsFrom offset (cs ++ rest) = regionsFrom (offset + Text.byteLength cs) rest := by
  refine regionsFrom_plain (fun c member opening => (inert c member).2 ?_) rest offset
  exact List.mem_append_left ['*'] opening

theorem regionsFrom_nil (offset : Nat) : regionsFrom offset [] = [] := by
  rw [regionsFrom]
  rfl

end Query

namespace Sql.Parser

theorem inside_other {quote c : Char} {rest : Text} (other : c ≠ quote) (some_ : rest ≠ []) :
    unquote.inside quote (c :: rest) = c :: unquote.inside quote rest := by
  cases rest with
  | nil => exact absurd rfl some_
  | cons d rest => simp [unquote.inside, other]

theorem inside_doubled (quote : Char) (cs : Text) :
    unquote.inside quote (Query.doubled quote cs ++ [quote]) = cs := by
  induction cs with
  | nil => rfl
  | cons c cs ih =>
      by_cases same : c = quote
      · subst same
        simp [unquote.inside, ih]
      · rw [Query.doubled_other same, List.cons_append, inside_other same (by simp), ih]

end Sql.Parser

open Query

theorem toList_quoteIdent (name : String) :
    (quoteIdent name).toList = '"' :: (doubled '"' name.toList ++ ['"']) := by
  simp [quoteIdent, doubled]

example : quoteIdent "\"?" = "\"\"\"?\"" := by decide

/-- A name in quotes is read as a whole before any text but one that begins with a quote. -/
theorem verbatim_quoteIdent (name : String) {rest : Text} (single : rest.head? ≠ some '"') :
    verbatim ((quoteIdent name).toList ++ rest) = .region (quoteIdent name).toList rest := by
  refine verbatim_eq_region_iff.2 ⟨rfl, ?_⟩
  rw [toList_quoteIdent]
  exact .quoted (by decide) (paired_doubled '"' name.toList) single

theorem verbatim_quoteIdent_whole (name : String) :
    verbatim (quoteIdent name).toList = .region (quoteIdent name).toList [] := by
  have whole := @verbatim_quoteIdent name [] nofun
  rwa [List.append_nil] at whole

theorem unquote_quoteIdent (name : String) :
    Sql.Parser.unquote (quoteIdent name).toList = name := by
  rw [toList_quoteIdent]
  simp [Sql.Parser.unquote, Sql.Parser.inside_doubled]

/-! A name in quotes within other text. -/

/-- A name in quotes is a piece of its own between inert characters. -/
theorem isCut_framed {before after : Text} (inert : ∀ c ∈ before, Inert c)
    (inert' : ∀ c ∈ after, Inert c) (name : String) :
    IsCut (singles before ++ .verbatim (quoteIdent name).toList :: singles after) := by
  -- inert text begins with no quote, which would go on with the region
  have ends := verbatim_endsBefore (verbatim_quoteIdent name (head?_ne_of_inert inert'))
  refine isCut_append (leadTo_singles inert _) ⟨.region (verbatim_quoteIdent_whole name) ?_, ?_⟩
  · rwa [spelled_singles]
  · exact leadTo_nil.1 (leadTo_singles inert' [])

/-- A name in quotes brings no placeholder into a text. -/
theorem parse_framed {before after : Text} (inert : ∀ c ∈ before, Inert c)
    (inert' : ∀ c ∈ after, Inert c) (name : String) :
    parse (String.ofList (before ++ ((quoteIdent name).toList ++ after))) =
      .ok ⟨String.ofList (before ++ ((quoteIdent name).toList ++ after)), []⟩ := by
  have kept : ∀ p ∈ singles before ++ .verbatim (quoteIdent name).toList :: singles after,
      p.isPlaceholder = false := by
    simp only [singles, List.mem_append, List.mem_cons, List.mem_map]
    rintro p (⟨c, -, rfl⟩ | rfl | ⟨c, -, rfl⟩) <;> rfl
  have parsed := parse_spelled (isCut_framed inert inert' name)
  rw [ofPieces_kept kept, spelled_append, spelled_cons, spelled_singles, spelled_singles,
    Piece.raw] at parsed
  exact parsed

/-- A name in quotes is a region, and the only one. -/
theorem regionsFrom_framed {before after : Text} (inert : ∀ c ∈ before, Inert c)
    (inert' : ∀ c ∈ after, Inert c) (name : String) (offset : Nat) :
    regionsFrom offset (before ++ ((quoteIdent name).toList ++ after)) =
      [⟨offset + Text.byteLength before,
        offset + Text.byteLength before + Text.byteLength (quoteIdent name).toList⟩] := by
  have region := verbatim_quoteIdent name (head?_ne_of_inert inert')
  rw [regionsFrom_inert inert, regionsFrom_region (lexeme_of_region region)]
  have rest := regionsFrom_inert inert' [] (offset + Text.byteLength before +
    Text.byteLength (quoteIdent name).toList)
  rw [List.append_nil] at rest
  rw [rest, regionsFrom_nil]

namespace Dialect

theorem toList_nextIdSql (name : String) :
    (sqlite.nextIdSql name).toList = "UPDATE ".toList ++
      ((quoteIdent name).toList ++ " SET value = value + 1 RETURNING value".toList) := by
  rw [← String.toList_append, ← String.toList_append, ← String.append_assoc]
  rfl

/-- The name of a sequence does not get out of its quotes. It is written as one region, from the
first character to the last one, that has the name inside of it with its quotes doubled; undoubling
them gives the name back, and so does the database. The statement that draws the next value is read
as it is, without placeholders, and has no other region in it. -/
theorem nextIdSql_enclosed (name : String) :
    verbatim (quoteIdent name).toList = .region (quoteIdent name).toList [] ∧
    (∃ inside, (quoteIdent name).toList = '"' :: (inside ++ ['"']) ∧
      undoubled? '"' inside = some name.toList) ∧
    Sql.Parser.unquote (quoteIdent name).toList = name ∧
    parse (sqlite.nextIdSql name) = .ok ⟨sqlite.nextIdSql name, []⟩ ∧
    regionsFrom 0 (sqlite.nextIdSql name).toList =
      [⟨7, 7 + Text.byteLength (quoteIdent name).toList⟩] := by
  have inert : ∀ c ∈ "UPDATE ".toList, Inert c := List.all_iff_forall_prop.1 (by decide)
  have inert' : ∀ c ∈ " SET value = value + 1 RETURNING value".toList, Inert c :=
    List.all_iff_forall_prop.1 (by decide)
  have text := toList_nextIdSql name
  have parsed := parse_framed inert inert' name
  rw [← text, String.ofList_toList] at parsed
  refine ⟨verbatim_quoteIdent_whole name, ⟨_, toList_quoteIdent name, undoubled?_eq_some_iff.2 rfl⟩,
    unquote_quoteIdent name, parsed, ?_⟩
  rw [text]
  exact regionsFrom_framed inert inert' name 0

end Dialect

end SqlUnits
