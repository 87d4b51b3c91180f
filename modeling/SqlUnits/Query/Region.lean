import SqlUnits.Text.Ascii
/-!
Quoted regions and comments of SQL text, whose content is never looked into. A region is read
from its opening characters; what it does not consume is shorter than what it was given.
-/

namespace SqlUnits.Query

/-- What can be left open at the end of a text. -/
inductive Construct where
  | stringLiteral
  | quotedIdentifier
  | blockComment
deriving DecidableEq

def Construct.name : Construct → String
  | .stringLiteral => "string literal"
  | .quotedIdentifier => "quoted identifier"
  | .blockComment => "block comment"

/-- Reads through the closing quote; the opening one is already read, a doubled one is content. -/
def closeQuote? (quote : Char) : Text → Option (Text × Text)
  | [] => none
  | [c] => if c = quote then some ([c], []) else none
  | c :: d :: rest =>
      if c = quote then
        if d = quote then
          (closeQuote? quote rest).map fun (inside, after) => (c :: d :: inside, after)
        else some ([c], d :: rest)
      else (closeQuote? quote (d :: rest)).map fun (inside, after) => (c :: inside, after)

/-- Reads through the first closing mark of a block comment. -/
def closeComment? : Text → Option (Text × Text)
  | '*' :: '/' :: rest => some (['*', '/'], rest)
  | c :: rest => (closeComment? rest).map fun (inside, after) => (c :: inside, after)
  | [] => none

/-- What starts at the head of a text: nothing special, a complete region, or an open one. -/
inductive Verbatim where
  | none
  | region (text rest : Text)
  | unclosed (construct : Construct)

def Verbatim.ofClosed (opening : Text) (construct : Construct) :
    Option (Text × Text) → Verbatim
  | some (inside, rest) => .region (opening ++ inside) rest
  | Option.none => .unclosed construct

def verbatim : Text → Verbatim
  | '\'' :: rest => .ofClosed ['\''] .stringLiteral (closeQuote? '\'' rest)
  | '"' :: rest => .ofClosed ['"'] .quotedIdentifier (closeQuote? '"' rest)
  | '\x60' :: rest => .ofClosed ['\x60'] .quotedIdentifier (closeQuote? '\x60' rest)
  | '-' :: '-' :: rest =>
      .region ('-' :: '-' :: rest.takeWhile (· ≠ '\n')) (rest.dropWhile (· ≠ '\n'))
  | '/' :: '*' :: rest => .ofClosed ['/', '*'] .blockComment (closeComment? rest)
  | _ => .none

theorem closeQuote?_append {quote : Char} {cs inside after : Text}
    (h : closeQuote? quote cs = some (inside, after)) : inside ++ after = cs := by
  fun_induction closeQuote? quote cs generalizing inside after with
  | case1 => simp at h
  | case2 => simp_all
  | case3 => simp at h
  | case4 rest ih =>
    obtain ⟨⟨i, a⟩, hi, he⟩ := Option.map_eq_some_iff.1 h
    obtain ⟨rfl, rfl⟩ := Prod.mk.inj he
    simp [ih hi]
  | case5 =>
    simp only [Option.some.injEq, Prod.mk.injEq] at h
    obtain ⟨rfl, rfl⟩ := h
    simp_all
  | case6 c d rest _ ih =>
    obtain ⟨⟨i, a⟩, hi, he⟩ := Option.map_eq_some_iff.1 h
    obtain ⟨rfl, rfl⟩ := Prod.mk.inj he
    simp [ih hi]

theorem closeComment?_append {cs inside after : Text}
    (h : closeComment? cs = some (inside, after)) : inside ++ after = cs := by
  fun_induction closeComment? cs generalizing inside after with
  | case1 =>
    simp only [Option.some.injEq, Prod.mk.injEq] at h
    obtain ⟨rfl, rfl⟩ := h
    rfl
  | case2 c rest _ ih =>
    obtain ⟨⟨i, a⟩, hi, he⟩ := Option.map_eq_some_iff.1 h
    obtain ⟨rfl, rfl⟩ := Prod.mk.inj he
    simp [ih hi]
  | case3 => simp at h

theorem Verbatim.ofClosed_region {opening text rest : Text} {construct : Construct}
    {closed : Option (Text × Text)}
    (h : Verbatim.ofClosed opening construct closed = .region text rest) :
    ∃ inside, closed = some (inside, rest) ∧ text = opening ++ inside := by
  cases closed with
  | none => simp [ofClosed] at h
  | some pair =>
    obtain ⟨inside, after⟩ := pair
    simp only [ofClosed, Verbatim.region.injEq] at h
    exact ⟨inside, by simp [h.2], h.1.symm⟩

/-- A region and what follows it are the text it was read from, and a region is not empty. -/
theorem verbatim_region {cs text rest : Text} (h : verbatim cs = .region text rest) :
    text ++ rest = cs ∧ text ≠ [] := by
  unfold verbatim at h
  split at h
  case h_4 =>
    simp only [Verbatim.region.injEq] at h
    obtain ⟨rfl, rfl⟩ := h
    simp [List.takeWhile_append_dropWhile]
  case h_6 => simp at h
  all_goals
    obtain ⟨inside, hc, rfl⟩ := Verbatim.ofClosed_region h
    first
      | simp [closeQuote?_append hc]
      | simp [closeComment?_append hc]

/-- A region or a single character. -/
inductive Lexeme where
  | done
  | char (c : Char) (rest : Text)
  | region (text rest : Text)
  | unclosed (construct : Construct)

/-- What a text begins with. -/
def lexeme (cs : Text) : Lexeme :=
  match verbatim cs with
  | .region text rest => .region text rest
  | .unclosed construct => .unclosed construct
  | .none =>
      match cs with
      | [] => .done
      | c :: rest => .char c rest

theorem lexeme_region {cs text rest : Text} (h : lexeme cs = .region text rest) :
    text ++ rest = cs ∧ text ≠ [] := by
  cases hv : verbatim cs with
  | none => cases cs <;> simp [lexeme, hv] at h
  | unclosed construct => simp [lexeme, hv] at h
  | region =>
    simp only [lexeme, hv, Lexeme.region.injEq] at h
    obtain ⟨rfl, rfl⟩ := h
    exact verbatim_region hv

theorem lexeme_char {cs rest : Text} {c : Char} (h : lexeme cs = .char c rest) :
    cs = c :: rest := by
  cases hv : verbatim cs with
  | none => cases cs <;> simp_all [lexeme]
  | unclosed construct => simp [lexeme, hv] at h
  | region => simp [lexeme, hv] at h

theorem lexeme_region_shorter {cs text rest : Text} (h : lexeme cs = .region text rest) :
    rest.length < cs.length := by
  obtain ⟨rfl, htext⟩ := lexeme_region h
  have := List.length_pos_iff.2 htext
  simp
  omega

theorem lexeme_char_shorter {cs rest : Text} {c : Char} (h : lexeme cs = .char c rest) :
    rest.length < cs.length := by
  simp [lexeme_char h]

end SqlUnits.Query
