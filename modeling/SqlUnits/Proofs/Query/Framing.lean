import Mathlib.Data.Bool.AllAny
import SqlUnits.Proofs.Query.Delimiting
import SqlUnits.Proofs.Query.Numbering
import SqlUnits.Proofs.Query.Placement
/-!
A text before and behind others. A text that is cut into pieces keeps them before any text that its
last piece can stand before. Before a character that delimits it, that is each piece but a line
comment, which goes on up to the next line feed.

So the placeholders of a text, by their names, are those of the text in a frame: with characters
before it that are pieces of their own, and with delimiters behind it.
-/

namespace SqlUnits.Query

variable {p : Piece} {ps qs : List Piece} {rest after : Text} {next : Option Char}

/-- Each piece leads what is written behind it, the last one the text that follows them. -/
def LeadTo : List Piece → Text → Prop
  | [], _ => True
  | p :: ps, after => p.Leads (spelled ps ++ after).head? ∧ LeadTo ps after

theorem spelled_append (ps qs : List Piece) : spelled (ps ++ qs) = spelled ps ++ spelled qs :=
  List.flatMap_append

theorem IsCut.spelled_ne_nil (cut : IsCut ps) (some_ : ps ≠ []) : spelled ps ≠ [] := by
  cases ps with
  | nil => exact absurd rfl some_
  | cons p ps => exact List.append_ne_nil_of_left_ne_nil cut.1.raw_ne_nil _

theorem LeadTo.of_isCut (cut : IsCut ps) (last : ∀ p ∈ ps.getLast?, p.Leads after.head?) :
    LeadTo ps after := by
  induction ps with
  | nil => trivial
  | cons p ps ih =>
      obtain ⟨leads, cutTail⟩ := cut
      cases ps with
      | nil => exact ⟨last p rfl, trivial⟩
      | cons q ps =>
          refine ⟨?_, ih cutTail last⟩
          rwa [List.head?_append_of_ne_nil _ (cutTail.spelled_ne_nil nofun)]

theorem leadTo_append :
    LeadTo (ps ++ qs) after ↔ LeadTo ps (spelled qs ++ after) ∧ LeadTo qs after := by
  induction ps with
  | nil => exact (true_and _).symm ▸ Iff.rfl
  | cons p ps ih =>
      simp only [LeadTo, List.cons_append, spelled_append, List.append_assoc, ih, and_assoc]

theorem leadTo_nil : LeadTo ps [] ↔ IsCut ps := by
  induction ps with
  | nil => exact Iff.rfl
  | cons p ps ih => rw [LeadTo, IsCut, List.append_nil, ih]

/-- What pieces lead to counts up to its first character. -/
theorem LeadTo.of_head {other : Text} (lead : LeadTo ps after) (same : other.head? = after.head?) :
    LeadTo ps other := by
  induction ps with
  | nil => trivial
  | cons p ps ih =>
      obtain ⟨leads, leadTail⟩ := lead
      refine ⟨?_, ih leadTail⟩
      rwa [List.head?_append, same, ← List.head?_append]

/-- Pieces that lead to a text are its first ones. -/
theorem pieces_behind (lead : LeadTo ps after) (n : Nat) :
    pieces n (spelled ps ++ after) =
      (ps ++ ·) <$> pieces (n + Text.byteLength (spelled ps)) after := by
  induction ps generalizing n with
  | nil =>
      show pieces n after = (fun ps => ps) <$> pieces n after
      rw [id_map']
  | cons p ps ih =>
      obtain ⟨leads, leadTail⟩ := lead
      rw [spelled_cons, List.append_assoc]
      have first := firstPiece?_eq_some_iff (n := n).2 ⟨rfl, leads⟩
      rw [pieces]
      split
      case h_1 failed => rw [first] at failed; cases failed
      case h_2 none => rw [first] at none; cases none
      case h_3 found =>
          rw [first] at found
          cases found
          rw [ih leadTail, Text.byteLength_append, Nat.add_assoc]
          cases pieces (n + (Text.byteLength p.raw + Text.byteLength (spelled ps))) after <;> rfl

theorem parse_behind (lead : LeadTo ps after) :
    parse (String.ofList (spelled ps ++ after)) =
      (ParsedQuery.ofPieces <| ps ++ ·) <$> pieces (Text.byteLength (spelled ps)) after := by
  unfold parse
  rw [String.toList_ofList, pieces_behind lead, Nat.zero_add]
  cases pieces (Text.byteLength (spelled ps)) after <;> rfl

def Placeholder.moved (out raw : Nat) (p : Placeholder) : Placeholder :=
  ⟨p.offset + out, p.name, ⟨p.span.start + raw, p.span.stop + raw⟩⟩

theorem placeholdersFrom_append (out raw : Nat) (ps qs : List Piece) :
    placeholdersFrom out raw (ps ++ qs) =
      placeholdersFrom out raw ps ++
        placeholdersFrom (out + Text.byteLength (ps.flatMap Piece.normal))
          (raw + Text.byteLength (spelled ps)) qs := by
  induction ps generalizing out raw with
  | nil => rfl
  | cons p ps ih =>
      cases p <;>
        simp [placeholdersFrom, ih, Nat.add_assoc]

theorem placeholdersFrom_add (out raw moved moved' : Nat) (ps : List Piece) :
    placeholdersFrom (out + moved) (raw + moved') ps =
      (placeholdersFrom out raw ps).map (·.moved moved moved') := by
  induction ps generalizing out raw with
  | nil => rfl
  | cons p ps ih =>
      cases p <;>
        simp only [placeholdersFrom, Nat.add_right_comm _ moved, Nat.add_right_comm _ moved', ih,
          List.map_cons, Placeholder.moved]

/-- The normal form of two texts of which the second one follows the pieces of the first one. -/
theorem ParsedQuery.ofPieces_append (ps qs : List Piece) :
    ofPieces (ps ++ qs) =
      ⟨(ofPieces ps).sql ++ (ofPieces qs).sql,
        (ofPieces ps).placeholders ++ (ofPieces qs).placeholders.map
          (·.moved (Text.byteLength (ofPieces ps).sql.toList) (Text.byteLength (spelled ps)))⟩ := by
  unfold ofPieces
  rw [List.flatMap_append, String.ofList_append, placeholdersFrom_append, placeholdersFrom_add,
    String.toList_ofList]

/-- Reading comes to a comment that no line feed ends. -/
def EndsInComment (cs : Text) : Prop :=
  ∃ visible inside, Scans cs visible ('-' :: '-' :: inside) ∧ '\n' ∉ inside

theorem EndsInComment.char {c : Char} (opens : OpensNone c rest.head?) :
    EndsInComment (c :: rest) ↔ EndsInComment rest := by
  constructor
  · rintro ⟨visible, inside, scans, oneLine⟩
    rcases scans.step with ⟨same, _⟩ | ⟨_, _, region, _⟩ | ⟨_, _, _, same, _, _, more⟩
    · cases same
      exact absurd rfl (opens.line rfl)
    · rw [verbatim_eq_none_iff.2 opens] at region
      cases region
    · cases same
      exact ⟨_, inside, more, oneLine⟩
  · rintro ⟨visible, inside, scans, oneLine⟩
    exact ⟨_, inside, .char opens scans, oneLine⟩

theorem EndsInComment.plain {plain : Text} (neutral : ∀ c ∈ plain, Neutral c) :
    EndsInComment (plain ++ rest) ↔ EndsInComment rest := by
  induction plain with
  | nil => exact Iff.rfl
  | cons c plain ih =>
      obtain ⟨first, more⟩ := List.forall_mem_cons.1 neutral
      rw [List.cons_append, EndsInComment.char (first.opensNone _), ih more]

theorem IsRegion.line_inside {inside : Text} (region : IsRegion next ('-' :: '-' :: inside)) :
    '\n' ∉ inside := by
  generalize same : '-' :: '-' :: inside = text at region
  cases region with
  | quoted mark _ _ =>
      cases (List.cons.inj same).1
      exact absurd mark (by decide)
  | line oneLine _ =>
      cases same
      exact oneLine
  | block _ => cases same

theorem EndsInComment.region {text : Text} (read : verbatim (text ++ rest) = .region text rest) :
    EndsInComment (text ++ rest) ↔
      EndsInComment rest ∨ (rest = [] ∧ ∃ inside, text = '-' :: '-' :: inside) := by
  obtain ⟨-, isRegion⟩ := verbatim_eq_region_iff.1 read
  constructor
  · rintro ⟨visible, inside, scans, oneLine⟩
    rcases scans.step with ⟨same, _⟩ | ⟨_, _, again, more⟩ | ⟨_, _, _, _, none, _⟩
    · have whole : verbatim ('-' :: '-' :: inside) = .region ('-' :: '-' :: inside) [] :=
        verbatim_eq_region_iff.2 ⟨(List.append_nil _).symm, .line oneLine (.inl rfl)⟩
      rw [same, whole] at read
      cases read
      exact .inr ⟨rfl, inside, rfl⟩
    · rw [read] at again
      cases again
      exact .inl ⟨_, inside, more, oneLine⟩
    · rw [read] at none
      cases none
  · rintro (⟨visible, inside, scans, oneLine⟩ | ⟨rfl, inside, rfl⟩)
    · exact ⟨visible, inside, .region isRegion scans, oneLine⟩
    · rw [List.append_nil]
      exact ⟨[], inside, .done, isRegion.line_inside⟩

theorem Piece.Leads.endsInComment (leads : p.Leads rest.head?) :
    EndsInComment (p.raw ++ rest) ↔
      EndsInComment rest ∨ (rest = [] ∧ ∃ inside, p = .verbatim ('-' :: '-' :: inside)) := by
  cases leads with
  | region whole ends =>
      rw [Piece.raw, EndsInComment.region (verbatim_before whole ends)]
      simp only [Piece.verbatim.injEq]
  | positional | cast | colon =>
      rw [EndsInComment.plain (by simp [Piece.raw, Neutral])]
      simp
  | named _ all _ =>
      have neutral := List.forall_mem_cons.2
        ⟨(by decide : Neutral ':'), fun c member => neutral_of_isIdentChar (all c member)⟩
      rw [Piece.raw, EndsInComment.plain neutral]
      simp
  | other plain noLine noBlock =>
      rw [Piece.raw, List.singleton_append, EndsInComment.char ⟨by simp_all, noLine, noBlock⟩]
      simp

theorem not_endsInComment_nil : ¬EndsInComment [] := by
  rintro ⟨visible, inside, scans, -⟩
  rcases scans.step with ⟨same, _⟩ | ⟨_, _, region, _⟩ | ⟨_, _, _, same, _⟩
  · cases same
  · cases region
  · cases same

theorem EndsInComment.dashes {cs : Text} (ends : EndsInComment cs) : ['-', '-'] <:+: cs := by
  obtain ⟨visible, inside, scans, -⟩ := ends
  obtain ⟨read, rfl, -⟩ := scans.cut
  exact ⟨read, inside, by simp⟩

/-- A text ends in a comment exactly if its last piece is one up to a line feed. -/
theorem IsCut.endsInComment (cut : IsCut ps) :
    EndsInComment (spelled ps) ↔
      ∃ inside, ps.getLast? = some (.verbatim ('-' :: '-' :: inside)) := by
  induction ps with
  | nil => simp [not_endsInComment_nil]
  | cons p ps ih =>
      obtain ⟨leads, cutTail⟩ := cut
      rw [spelled_cons, leads.endsInComment, ih cutTail]
      cases ps with
      | nil => simp
      | cons q ps =>
          rw [or_iff_left fun ⟨nil, _⟩ => cutTail.spelled_ne_nil nofun nil, List.getLast?_cons_cons]

/-- A character that is a piece of its own wherever it stands, outside regions and names. -/
def Inert (c : Char) : Prop :=
  c ∉ ['?', ':'] ∧ Neutral c

instance (c : Char) : Decidable (Inert c) :=
  inferInstanceAs (Decidable (_ ∧ _))

/-- An inert character that is not part of a name, either. -/
def Delimits (c : Char) : Prop :=
  Inert c ∧ Text.isIdentChar c = false

instance (c : Char) : Decidable (Delimits c) :=
  inferInstanceAs (Decidable (_ ∧ _))

theorem inert_of_isIdentChar {c : Char} (name : Text.isIdentChar c = true) : Inert c := by
  have marks : ['?', ':'].any Text.isIdentChar = false := by decide
  exact ⟨fun member => List.any_eq_false.1 marks c member name, neutral_of_isIdentChar name⟩

theorem delimits_of_isBlank {c : Char} (blank : Text.isBlank c = true) : Delimits c := by
  have solid : ['?', ':'].any Text.isBlank = false := by decide
  refine ⟨⟨fun member => List.any_eq_false.1 solid c member blank, neutral_of_isBlank blank⟩, ?_⟩
  refine Bool.eq_false_iff.2 fun name => ?_
  rw [Text.isBlank_of_isIdentChar name] at blank
  cases blank

/-- A piece that ends a text and is no line comment stands before a delimiter. -/
theorem Piece.Leads.before_delimiter {c : Char} (leads : p.Leads none)
    (noComment : ∀ inside, p ≠ .verbatim ('-' :: '-' :: inside)) (delimits : Delimits c) :
    p.Leads (some c) := by
  obtain ⟨⟨noMark, neutral⟩, noName⟩ := delimits
  simp only [List.mem_cons, List.not_mem_nil, or_false, not_or] at noMark
  unfold Neutral at neutral
  simp only [List.mem_cons, List.not_mem_nil, or_false, not_or] at neutral
  cases leads with
  | @region text whole ends =>
      refine .region whole ?_
      obtain ⟨-, isRegion⟩ := verbatim_eq_region_iff.1 whole
      cases isRegion with
      | @quoted quote _ mark paired single =>
          simp only [List.mem_cons, List.not_mem_nil, or_false] at mark
          rcases mark with rfl | rfl | rfl <;> simp [EndsBefore, neutral]
      | line _ _ => exact absurd rfl (noComment _)
      | block _ => trivial
  | positional _ =>
      refine .positional (Bool.eq_false_iff.2 fun digit => ?_)
      rw [Text.isIdentChar_of_isDigit digit] at noName
      cases noName
  | cast => exact .cast
  | colon _ _ => exact .colon (by simpa using noMark.2) noName
  | named nonempty all _ => exact .named nonempty all noName
  | other plain noLine noBlock =>
      exact .other plain (fun _ => by simp [neutral]) fun _ => by simp [neutral]

/-- A piece that ends with a blank and is no line comment is the blank. -/
theorem Piece.Leads.behind_blank {c : Char} (leads : p.Leads none)
    (noComment : ∀ inside, p ≠ .verbatim ('-' :: '-' :: inside))
    (last : p.raw.getLast? = some c) (blank : Text.isBlank c = true) (next : Option Char) :
    p.Leads next := by
  have other (d : Char) (solid : Text.isBlank d = false) : c ≠ d := by
    rintro rfl
    rw [blank] at solid
    cases solid
  cases leads with
  | @region text whole ends =>
      obtain ⟨-, isRegion⟩ := verbatim_eq_region_iff.1 whole
      rcases verbatim_getLast? whole with ⟨d, mark, same⟩ | ⟨tail, rfl⟩
      · rw [Piece.raw, same] at last
        obtain rfl := Option.some.inj last
        have solid : ['\'', '"', '\x60', '/'].any Text.isBlank = false := by decide
        exact absurd blank (List.any_eq_false.1 solid d mark)
      · cases isRegion with
        | quoted mark _ _ => exact absurd mark (by decide)
        | line _ _ => exact absurd rfl (noComment _)
  | positional _ => exact absurd (Option.some.inj last).symm (other '?' rfl)
  | cast => exact .cast
  | colon _ _ => exact absurd (Option.some.inj last).symm (other ':' rfl)
  | @named name nonempty all _ =>
      rw [Piece.raw, List.getLast?_cons_of_ne_nil nonempty] at last
      rw [Text.isBlank_of_isIdentChar (all c (List.mem_of_getLast? last))] at blank
      cases blank
  | @other d plain _ _ =>
      cases last
      exact .other plain (fun dash => absurd dash (other '-' rfl)) fun slash =>
        absurd slash (other '/' rfl)

theorem IsCut.getLast? (cut : IsCut ps) (last : ps.getLast? = some p) :
    p.Leads none ∧ (spelled ps).getLast? = p.raw.getLast? := by
  obtain ⟨front, rfl⟩ := List.getLast?_eq_some_iff.1 last
  clear last
  induction front with
  | nil => exact ⟨cut.1, by simp⟩
  | cons q front ih =>
      obtain ⟨leads, same⟩ := ih cut.2
      have some_ : spelled (front ++ [p]) ≠ [] := cut.2.spelled_ne_nil (by simp)
      rw [List.cons_append, spelled_cons, List.getLast?_append_of_ne_nil _ some_]
      exact ⟨leads, same⟩

/-- A text that does not end in a comment keeps its pieces before a delimiter. -/
theorem IsCut.leadTo_delimiter {c : Char} (cut : IsCut ps)
    (noComment : ¬EndsInComment (spelled ps)) (delimits : Delimits c) (after : Text) :
    LeadTo ps (c :: after) := by
  refine .of_isCut cut fun p last => ?_
  refine (cut.getLast? last).1.before_delimiter (fun inside same => noComment ?_) delimits
  exact cut.endsInComment.2 ⟨inside, same ▸ last⟩

/-- A text that ends with a blank, and not in a comment, keeps its pieces before any text. -/
theorem IsCut.leadTo_any {c : Char} (cut : IsCut ps) (noComment : ¬EndsInComment (spelled ps))
    (last : (spelled ps).getLast? = some c) (blank : Text.isBlank c = true) (after : Text) :
    LeadTo ps after := by
  refine .of_isCut cut fun p lastPiece => ?_
  obtain ⟨leads, same⟩ := cut.getLast? lastPiece
  refine leads.behind_blank (fun inside same => noComment ?_) (same ▸ last) blank _
  exact cut.endsInComment.2 ⟨inside, same ▸ lastPiece⟩

/-- The pieces of a text that ends in a comment, before any text: the comment takes in what stands
before the first line feed. -/
theorem IsCut.leadTo_line (cut : IsCut ps) (comment : EndsInComment (spelled ps)) (after : Text) :
    ∃ front inside, ps = front ++ [.verbatim ('-' :: '-' :: inside)] ∧
      LeadTo (front ++ [.verbatim ('-' :: '-' :: (inside ++ after.takeWhile (· ≠ '\n')))])
        (after.dropWhile (· ≠ '\n')) := by
  obtain ⟨inside, last⟩ := cut.endsInComment.1 comment
  obtain ⟨front, rfl⟩ := List.getLast?_eq_some_iff.1 last
  obtain ⟨leads, -⟩ := cut.getLast? last
  have oneLine : '\n' ∉ inside := by
    have whole : verbatim (['-', '-'] ++ inside) = .region (['-', '-'] ++ inside) [] := by
      cases leads with
      | region whole _ => exact whole
    exact (verbatim_eq_region_iff.1 whole).2.line_inside
  refine ⟨front, inside, rfl, leadTo_append.2 ⟨?_, ?_, trivial⟩⟩
  · exact (leadTo_append.1 (leadTo_nil.2 cut)).1.of_head rfl
  · refine .region (verbatim_eq_region_iff.2 ⟨(List.append_nil _).symm, .line ?_ (.inl rfl)⟩) ?_
    · intro newline
      rcases List.mem_append.1 newline with member | member
      · exact oneLine member
      · have other := Text.forall_mem_takeWhile (· ≠ '\n') after _ member
        simp at other
    · have stop := Text.head?_dropWhile (· ≠ '\n') after
      cases ahead : (after.dropWhile (· ≠ '\n')).head? with
      | none => exact .inl ahead
      | some c =>
          rw [ahead] at stop
          have newline : c = '\n' := by simpa using stop
          exact .inr (newline ▸ ahead)

/-! Inert text is cut into its characters. -/

/-- The pieces of inert text. -/
def singles (plain : Text) : List Piece :=
  plain.map fun c => .verbatim [c]

theorem spelled_singles (plain : Text) : spelled (singles plain) = plain := by
  induction plain with
  | nil => rfl
  | cons c plain ih => exact congrArg (c :: ·) ih

theorem leadTo_singles {plain : Text} (inert : ∀ c ∈ plain, Inert c) (after : Text) :
    LeadTo (singles plain) after := by
  induction plain with
  | nil => trivial
  | cons c plain ih =>
      obtain ⟨⟨noMark, neutral⟩, others⟩ := List.forall_mem_cons.1 inert
      unfold Neutral at neutral
      refine ⟨.other ?_ (fun dash => ?_) (fun slash => ?_), ih others⟩
      · simp_all
      · simp_all
      · simp_all

/-- Pieces of a text begin with those that lead to the rest of it. -/
theorem IsCut.behind (cut : IsCut ps) (lead : LeadTo qs after)
    (written : spelled ps = spelled qs ++ after) :
    ∃ rs, ps = qs ++ rs ∧ IsCut rs ∧ spelled rs = after := by
  have whole : pieces 0 (spelled qs ++ after) = .ok ps := pieces_eq_ok_iff.2 ⟨cut, written.symm⟩
  rw [pieces_behind lead] at whole
  cases found : pieces (0 + Text.byteLength (spelled qs)) after with
  | error e =>
      rw [found] at whole
      cases whole
  | ok rs =>
      rw [found] at whole
      cases whole
      obtain ⟨isCut, same⟩ := pieces_eq_ok_iff.1 found
      exact ⟨rs, rfl, isCut, same.symm⟩

theorem IsCut.inert {plain : Text} (cut : IsCut ps) (inert : ∀ c ∈ plain, Inert c)
    (written : spelled ps = plain ++ after) :
    ∃ rs, ps = singles plain ++ rs ∧ IsCut rs ∧ spelled rs = after :=
  cut.behind (leadTo_singles inert after) (by rw [spelled_singles, written])

theorem isCut_append (lead : LeadTo ps (spelled qs)) (cut : IsCut qs) : IsCut (ps ++ qs) := by
  rw [← leadTo_nil, leadTo_append, leadTo_nil, List.append_nil]
  exact ⟨lead, cut⟩

/-! The placeholders of a text, by their names. -/

def marks (ps : List Piece) : List (Option String) :=
  (ps.filter Piece.isPlaceholder).map Piece.name?

theorem marks_append (ps qs : List Piece) : marks (ps ++ qs) = marks ps ++ marks qs := by
  simp [marks]

theorem marks_singles (plain : Text) : marks (singles plain) = [] := by
  induction plain with
  | nil => rfl
  | cons c plain ih => exact ih

theorem marks_placeholdersFrom (out raw : Nat) (ps : List Piece) :
    (placeholdersFrom out raw ps).map (·.name) = marks ps := by
  induction ps generalizing out raw with
  | nil => rfl
  | cons p ps ih =>
      cases mark : p.isPlaceholder with
      | false =>
          rw [placeholdersFrom_kept mark, ih, marks, marks, List.filter_cons_of_neg (by simp [mark])]
      | true =>
          rw [placeholdersFrom_mark mark, List.map_cons, ih, marks, marks,
            List.filter_cons_of_pos mark]
          rfl

theorem Piece.Leads.before_end (leads : p.Leads next) : p.Leads none := by
  cases leads with
  | region whole ends => exact .region whole ends.atEnd
  | positional _ => exact .positional rfl
  | cast => exact .cast
  | colon _ _ => exact .colon nofun rfl
  | named nonempty all _ => exact .named nonempty all rfl
  | other plain _ _ => exact .other plain nofun nofun

/-- Only a line comment has delimiters at its end that stand behind others of its characters. -/
theorem Piece.Leads.line_of_delimiters {cs post : Text} (leads : p.Leads next)
    (written : p.raw = cs ++ post) (some_ : cs ≠ []) (more : post ≠ [])
    (delimiters : ∀ c ∈ post, Delimits c) :
    ∃ inside, p = .verbatim ('-' :: '-' :: inside) ∧ '\n' ∉ inside := by
  obtain ⟨c, last⟩ := Option.isSome_iff_exists.1 (List.getLast?_isSome.2 more)
  have delimits : Delimits c := delimiters c (List.mem_of_getLast? last)
  have ends : p.raw.getLast? = some c := by
    rw [written, List.getLast?_append_of_ne_nil _ more, last]
  have long : 2 ≤ p.raw.length := by
    have first := List.length_pos_iff.2 some_
    have second := List.length_pos_iff.2 more
    rw [written, List.length_append]
    omega
  cases leads with
  | @region text whole _ =>
      obtain ⟨-, isRegion⟩ := verbatim_eq_region_iff.1 whole
      rcases verbatim_getLast? whole with ⟨d, mark, same⟩ | ⟨tail, rfl⟩
      · rw [Piece.raw, same] at ends
        obtain rfl := Option.some.inj ends
        have outside : ∀ d ∈ ['\'', '"', '\x60', '/'], ¬Delimits d :=
          List.all_iff_forall_prop.1 (by decide)
        exact absurd delimits (outside d mark)
      · cases isRegion with
        | quoted mark _ _ => exact absurd mark (by decide)
        | line oneLine _ => exact ⟨_, rfl, oneLine⟩
  | cast =>
      obtain rfl := Option.some.inj ends
      exact absurd delimits (by decide)
  | @named name nonempty all _ =>
      rw [Piece.raw, List.getLast?_cons_of_ne_nil nonempty] at ends
      have isName := all c (List.mem_of_getLast? ends)
      rw [delimits.2] at isName
      cases isName
  | positional | colon | other => simp [Piece.raw] at long

theorem marks_inert {plain : Text} (cut : IsCut ps) (inert : ∀ c ∈ plain, Inert c)
    (written : spelled ps = plain) : marks ps = [] := by
  obtain ⟨rs, rfl, isCut, empty⟩ := cut.inert inert (written.trans (List.append_nil plain).symm)
  have none_ : rs = [] := by_contra fun some_ => isCut.spelled_ne_nil some_ empty
  rw [none_, List.append_nil, marks_singles]

theorem dashes_of_append {line cs post : Text} (written : '-' :: '-' :: line = cs ++ post)
    (some_ : cs ≠ []) (noDash : '-' ∉ post) : ∃ start, cs = '-' :: '-' :: start := by
  match cs with
  | [] => exact absurd rfl some_
  | [c] =>
      obtain ⟨-, rfl⟩ : '-' = c ∧ '-' :: line = post := by simpa using written
      exact absurd (.head line) noDash
  | c :: d :: start =>
      obtain ⟨rfl, rfl, -⟩ : '-' = c ∧ '-' = d ∧ line = start ++ post := by simpa using written
      exact ⟨start, rfl⟩

/-- A piece that begins a text of two parts stands in the first part, or the first part ends inside
of the piece. -/
theorem Piece.split {cs post : Text} (written : p.raw ++ rest = cs ++ post) :
    cs = [] ∨ (∃ more, cs = p.raw ++ more ∧ rest = more ++ post) ∨
      cs ≠ [] ∧ ∃ inside, inside ≠ [] ∧ p.raw = cs ++ inside ∧ post = inside ++ rest := by
  by_cases empty : cs = []
  · exact .inl empty
  · rcases List.append_eq_append_iff.1 written with ⟨more, same, ends⟩ | ⟨inside, same, ends⟩
    · exact .inr (.inl ⟨more, same, ends⟩)
    · by_cases atEnd : inside = []
      · subst atEnd
        rw [List.append_nil] at same
        exact .inr (.inl ⟨[], by rw [same, List.append_nil], ends.symm⟩)
      · exact .inr (.inr ⟨empty, inside, atEnd, same, ends⟩)

/-- Delimiters behind a text are taken off it with the pieces that they are. -/
theorem IsCut.before_delimiters {cs post : Text} (cut : IsCut ps)
    (delimiters : ∀ c ∈ post, Delimits c) (written : spelled ps = cs ++ post) :
    ∃ qs, IsCut qs ∧ spelled qs = cs ∧ marks qs = marks ps := by
  have inert : ∀ c ∈ post, Inert c := fun c member => (delimiters c member).1
  induction ps generalizing cs with
  | nil =>
      obtain ⟨rfl, -⟩ := List.append_eq_nil_iff.1 written.symm
      exact ⟨[], trivial, rfl, rfl⟩
  | cons p ps ih =>
      have whole := cut
      obtain ⟨leads, cutTail⟩ := cut
      have parts : p.raw ++ spelled ps = cs ++ post := written
      rcases Piece.split parts with rfl | ⟨rest, rfl, more⟩ | ⟨some_, inside, goesOn, same, rfl⟩
      · exact ⟨[], trivial, rfl, (marks_inert whole inert written).symm⟩
      · obtain ⟨qs, cutQs, rfl, same⟩ := ih cutTail more
        refine ⟨p :: qs, ⟨?_, cutQs⟩, rfl, ?_⟩
        · cases qs with
          | nil => exact leads.before_end
          | cons q qs =>
              rw [more, List.head?_append_of_ne_nil _ (cutQs.spelled_ne_nil nofun)] at leads
              exact leads
        · have front (rs : List Piece) : marks (p :: rs) = marks [p] ++ marks rs :=
            marks_append [p] rs
          rw [front, same, ← front]
      · -- Then the piece is a line comment, and the text ends in its first part.
        obtain ⟨line, rfl, oneLine⟩ := leads.line_of_delimiters same some_ goesOn
          fun c member => delimiters c (List.mem_append_left _ member)
        have tail : marks ps = [] := marks_inert cutTail
          (fun c member => inert c (List.mem_append_right _ member)) rfl
        have noDash : '-' ∉ inside := fun dash =>
          absurd (delimiters '-' (List.mem_append_left _ dash)) (by decide)
        obtain ⟨start, rfl⟩ := dashes_of_append same some_ noDash
        have inLine : '\n' ∉ start := by
          obtain rfl : line = start ++ inside := by simpa [Piece.raw] using same
          exact fun newline => oneLine (List.mem_append_left _ newline)
        refine ⟨[.verbatim ('-' :: '-' :: start)], ⟨?_, trivial⟩, by simp [Piece.raw], tail.symm⟩
        exact .region (verbatim_eq_region_iff.2 ⟨(List.append_nil _).symm, .line inLine (.inl rfl)⟩)
          (.inl rfl)

/-- A text whose placeholders have these names, none for those without one. -/
def Marks (cs : Text) (names : List (Option String)) : Prop :=
  ∃ ps, IsCut ps ∧ spelled ps = cs ∧ marks ps = names

theorem marks_iff_parse {sql : String} {names : List (Option String)} :
    Marks sql.toList names ↔ ∃ q, parse sql = .ok q ∧ q.placeholders.map (·.name) = names := by
  constructor
  · rintro ⟨ps, cut, written, rfl⟩
    have parsed := parse_spelled cut
    rw [written, String.ofList_toList] at parsed
    exact ⟨_, parsed, marks_placeholdersFrom 0 0 ps⟩
  · rintro ⟨q, parsed, rfl⟩
    obtain ⟨ps, cut, written, rfl⟩ := parse_eq_ok parsed
    exact ⟨ps, cut, written.symm, (marks_placeholdersFrom 0 0 ps).symm⟩

namespace Marks

variable {cs plain post : Text} {names : List (Option String)}

theorem behind_inert (inert : ∀ c ∈ plain, Inert c) :
    Marks (plain ++ cs) names ↔ Marks cs names := by
  constructor
  · rintro ⟨ps, cut, written, rfl⟩
    obtain ⟨rs, rfl, isCut, same⟩ := cut.inert inert written
    refine ⟨rs, isCut, same, ?_⟩
    rw [marks_append, marks_singles, List.nil_append]
  · rintro ⟨ps, cut, rfl, rfl⟩
    refine ⟨singles plain ++ ps, isCut_append (leadTo_singles inert _) cut, ?_, ?_⟩
    · rw [spelled_append, spelled_singles]
    · rw [marks_append, marks_singles, List.nil_append]

/-- Delimiters behind a text are pieces of their own, or part of the comment that it ends in. -/
theorem before (marked : Marks cs names) (delimiters : ∀ c ∈ post, Delimits c) :
    Marks (cs ++ post) names := by
  obtain ⟨ps, cut, rfl, rfl⟩ := marked
  have inert : ∀ c ∈ post, Inert c := fun c member => (delimiters c member).1
  by_cases comment : EndsInComment (spelled ps)
  · obtain ⟨front, inside, rfl, lead⟩ := cut.leadTo_line comment post
    have tail : ∀ c ∈ post.dropWhile (· ≠ '\n'), Inert c := fun c member =>
      inert c ((List.dropWhile_suffix _).subset member)
    have cutTail : IsCut (singles (post.dropWhile (· ≠ '\n'))) :=
      leadTo_nil.1 (leadTo_singles tail [])
    refine ⟨_, isCut_append (by rwa [spelled_singles]) cutTail, ?_, ?_⟩
    · have line := List.takeWhile_append_dropWhile (p := (· ≠ '\n')) (l := post)
      rw [spelled_append, spelled_append, spelled_append, spelled_singles]
      simp only [spelled_cons, spelled_nil, Piece.raw, List.append_nil, List.append_assoc,
        List.cons_append]
      rw [line]
    · rw [marks_append, marks_singles, marks_append, marks_append, List.append_nil]
      rfl
  · have lead : LeadTo ps post := by
      cases post with
      | nil => exact leadTo_nil.2 cut
      | cons c post => exact cut.leadTo_delimiter comment (delimiters c (.head post)) post
    refine ⟨ps ++ singles post, isCut_append ?_ (leadTo_nil.1 (leadTo_singles inert [])), ?_, ?_⟩
    · rwa [spelled_singles]
    · rw [spelled_append, spelled_singles]
    · rw [marks_append, marks_singles, List.append_nil]

theorem before_iff (delimiters : ∀ c ∈ post, Delimits c) :
    Marks (cs ++ post) names ↔ Marks cs names := by
  refine ⟨?_, fun marked => marked.before delimiters⟩
  rintro ⟨ps, cut, written, rfl⟩
  exact cut.before_delimiters delimiters written

/-- A text in a frame has the placeholders that it has alone. -/
theorem framed (inert : ∀ c ∈ plain, Inert c) (delimiters : ∀ c ∈ post, Delimits c) :
    Marks (plain ++ (cs ++ post)) names ↔ Marks cs names := by
  rw [behind_inert inert, before_iff delimiters]

end Marks

end SqlUnits.Query
