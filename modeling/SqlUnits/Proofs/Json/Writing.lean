import Mathlib.Data.List.Forall2
import SqlUnits.Json.Record
import SqlUnits.Proofs.Text.Run
/-!
A value is read back from its indented text. Each part of the reader has one lemma that says what it
makes of the text that the writer gives for it, whatever stands behind.
-/

namespace SqlUnits

namespace Json

/-- Neither a bracket nor a number that is kept as text. -/
def isPlain : Json → Bool
  | null => true
  | bool _ => true
  | int _ => true
  | str _ => true
  | _ => false

/-- Values that are read back: at most `n` brackets deep, all of whose numbers are integers. -/
inductive Readable : Nat → Json → Prop
  | plain {n : Nat} {j : Json} : j.isPlain = true → Readable n j
  | arr {n : Nat} {items : List Json} :
      (∀ item ∈ items, Readable n item) → Readable (n + 1) (.arr items)
  | obj {n : Nat} {members : List (String × Json)} :
      (∀ m ∈ members, Readable n m.2) → Readable (n + 1) (.obj members)

theorem Readable.mono {m n : Nat} {j : Json} (readable : Readable m j) (le : m ≤ n) :
    Readable n j := by
  induction readable generalizing n with
  | plain plain => exact .plain plain
  | arr _ ih =>
      obtain ⟨n, rfl⟩ := Nat.exists_eq_add_of_lt le
      exact .arr fun item member => ih item member (Nat.le_add_right _ _)
  | obj _ ih =>
      obtain ⟨n, rfl⟩ := Nat.exists_eq_add_of_lt le
      exact .obj fun m member => ih m member (Nat.le_add_right _ _)

end Json

/-- A tree that was read to its end, of a value. -/
inductive JsonTree.Spells : Json → JsonTree → Prop
  | leaf {value : Json} {start stop : Nat} :
      value.isPlain = true → Spells value (.leaf value start stop)
  | arr {items : List Json} {trees : List JsonTree} {start stop : Nat} :
      List.Forall₂ Spells items trees → Spells (.arr items) (.arr start trees (.ok stop))
  | obj {members : List (String × Json)} {trees : List (JsonKey × JsonTree)} {start stop : Nat} :
      trees.map (·.1.name) = members.map (·.1) →
      List.Forall₂ Spells (members.map (·.2)) (trees.map (·.2)) →
      Spells (.obj members) (.obj start trees (.ok stop))

theorem JsonTree.Spells.close {j : Json} {t : JsonTree} (spells : t.Spells j) :
    ∃ stop, t.close = .ok stop := by
  cases spells <;> exact ⟨_, rfl⟩

namespace Json

/-! Blanks. -/

theorem rest_skipSpace (c : Cursor) : (skipSpace c).rest = c.rest.dropWhile isSpace := by
  have cut (before rest : Text) : (before ++ rest).drop before.length = rest := List.drop_left' rfl
  have first := cut (c.rest.takeWhile isSpace) (c.rest.dropWhile isSpace)
  rwa [List.takeWhile_append_dropWhile] at first

theorem skipSpace_run {c : Cursor} (run : Text) {rest : Text} (shape : c.rest = run ++ rest)
    (blank : ∀ d ∈ run, isSpace d = true) (stop : rest.head?.any isSpace = false) :
    (skipSpace c).rest = rest := by
  rw [rest_skipSpace, shape, Text.dropWhile_run blank stop]

theorem skipSpace_stopped {c : Cursor} (stop : c.rest.head?.any isSpace = false) :
    (skipSpace c).rest = c.rest := by
  rw [rest_skipSpace, Text.dropWhile_stopped stop]

theorem rest_advance {c : Cursor} (before : Text) {rest : Text} (shape : c.rest = before ++ rest) :
    (c.advance before.length).rest = rest := by
  show c.rest.drop _ = _
  rw [shape, List.drop_left' rfl]

theorem rest_next {c : Cursor} {d : Char} {rest : Text} (shape : c.rest = d :: rest) :
    (c.advance 1).rest = rest :=
  rest_advance [d] shape

/-! Strings. -/

/-- A control character by its number, which reads back as four digits. -/
theorem toNat?_control : ∀ n < 32, Hex.toNat? (Hex.ofNat 4 n) = some n := by
  decide

theorem escapeChar_cases (d : Char) :
    (∃ e, escapeChar d = ['\\', e] ∧ e ≠ 'u' ∧ simpleEscape? e = some d) ∨
      (d.toNat < 32 ∧ escapeChar d = '\\' :: 'u' :: Hex.ofNat 4 d.toNat) ∨
      (32 ≤ d.toNat ∧ escapeChar d = [d] ∧ d ≠ '"' ∧ d ≠ '\\') := by
  unfold escapeChar
  split
  case h_8 quote backslash _ _ _ _ _ =>
    split
    case isTrue control => exact .inr (.inl ⟨control, rfl⟩)
    case isFalse printed => exact .inr (.inr ⟨Nat.le_of_not_lt printed, rfl, quote, backslash⟩)
  all_goals exact .inl ⟨_, rfl, by decide, rfl⟩

theorem unicodeEscape_control {n : Nat} (control : n < 32) {c : Cursor} {rest : Text}
    (shape : c.rest = Hex.ofNat 4 n ++ rest) :
    ∃ d, unicodeEscape c = .ok (Char.ofNat n, d) ∧ d.rest = rest := by
  have four : (Hex.ofNat 4 n).length = 4 := rfl
  have digits : c.rest.take 4 = Hex.ofNat 4 n := by rw [shape, List.take_left' four]
  have after : (c.advance 4).rest = rest := rest_advance _ shape
  have read : unit c = .ok (n, c.advance 4) := by
    unfold unit
    simp only [digits, four, Nat.lt_irrefl, if_false, toNat?_control n control]
  have low : ¬0xDC00 ≤ n := by omega
  have high : ¬0xD800 ≤ n := by omega
  refine ⟨c.advance 4, ?_, after⟩
  simp [unicodeEscape, read, bind, Except.bind, low, high]

theorem escape_simple {e d : Char} (other : e ≠ 'u') (simple : simpleEscape? e = some d)
    {c : Cursor} {rest : Text} (shape : c.rest = e :: rest) :
    escape c = .ok (d, c.advance 1) := by
  unfold escape
  rw [shape]
  split
  · contradiction
  · next same =>
    cases same
    contradiction
  · next same =>
    cases same
    rw [simple]

/-- The body of a string is read up to its closing quote. -/
theorem stringBody_escaped {cs rest : Text} {n : Nat} (enough : cs.length < n) (acc : Text)
    {c : Cursor} (shape : c.rest = cs.flatMap escapeChar ++ '"' :: rest) :
    ∃ d, stringBody n acc c = .ok (String.ofList (acc.reverse ++ cs), d) ∧ d.rest = rest := by
  induction cs generalizing n acc c with
  | nil =>
      obtain ⟨n, rfl⟩ := Nat.exists_eq_add_one_of_ne_zero (Nat.ne_of_gt enough)
      refine ⟨c.advance 1, ?_, rest_next shape⟩
      unfold stringBody
      rw [shape, List.append_nil]
      rfl
  | cons x cs ih =>
      obtain ⟨n, rfl⟩ := Nat.exists_eq_add_one_of_ne_zero (Nat.ne_of_gt (Nat.zero_lt_of_lt enough))
      have enough : cs.length < n := Nat.lt_of_succ_lt_succ enough
      have snoc : acc.reverse ++ x :: cs = (x :: acc).reverse ++ cs := by simp
      rw [List.flatMap_cons, List.append_assoc] at shape
      rw [snoc]
      unfold stringBody
      rcases escapeChar_cases x with ⟨e, text, other, simple⟩ | ⟨control, text⟩ |
        ⟨printed, text, quote, backslash⟩
      · rw [text, List.cons_append, List.singleton_append] at shape
        have behind : (c.advance 1).rest = e :: (cs.flatMap escapeChar ++ '"' :: rest) :=
          rest_next shape
        obtain ⟨d, body, after⟩ := ih enough (x :: acc)
          (rest_next behind)
        refine ⟨d, ?_, after⟩
        rw [shape]
        simp only [escape_simple other simple behind, bind, Except.bind]
        exact body
      · rw [text, List.cons_append, List.cons_append] at shape
        have behind : (c.advance 1).rest =
            'u' :: (Hex.ofNat 4 x.toNat ++ (cs.flatMap escapeChar ++ '"' :: rest)) :=
          rest_next shape
        obtain ⟨d, read, between⟩ := unicodeEscape_control control
          (rest_next behind)
        obtain ⟨last, body, after⟩ := ih enough (x :: acc) between
        have escaped : escape (c.advance 1) = .ok (x, d) := by
          unfold escape
          rw [behind]
          rw [Char.ofNat_toNat] at read
          exact read
        refine ⟨last, ?_, after⟩
        rw [shape]
        simp only [escaped, bind, Except.bind]
        exact body
      · rw [text, List.singleton_append] at shape
        obtain ⟨d, body, after⟩ := ih enough (x :: acc)
          (rest_next shape)
        refine ⟨d, ?_, after⟩
        rw [shape]
        split
        · contradiction
        · next same =>
          cases same
          contradiction
        · next same =>
          cases same
          contradiction
        · next same =>
          cases same
          rw [if_neg (Nat.not_lt.2 printed)]
          exact body

/-- A quoted string is read back, whatever characters it has. -/
theorem string_quote {s : String} {c : Cursor} {rest : Text}
    (shape : c.rest = (quote s).toList ++ rest) :
    ∃ d, string c = .ok (s, d) ∧ d.rest = rest := by
  have text : (quote s).toList ++ rest =
      '"' :: (s.toList.flatMap escapeChar ++ '"' :: rest) := by
    simp [quote]
  have longer : s.toList.length ≤ (s.toList.flatMap escapeChar).length := by
    induction s.toList with
    | nil => exact Nat.le_refl _
    | cons x cs ih =>
        have one : 1 ≤ (escapeChar x).length := by
          rcases escapeChar_cases x with ⟨e, text, _⟩ | ⟨_, text⟩ | ⟨_, text, _⟩ <;> simp [text]
        rw [List.flatMap_cons, List.length_append, List.length_cons]
        omega
  rw [text] at shape
  have enough : s.toList.length < c.rest.length := by
    rw [shape, List.length_cons, List.length_append]
    omega
  obtain ⟨d, body, after⟩ := stringBody_escaped enough []
    (rest_next shape)
  refine ⟨d, ?_, after⟩
  unfold string
  rw [List.reverse_nil, List.nil_append, String.ofList_toList] at body
  exact body

/-! Words and numbers. -/

theorem literal_word {word rest : Text} (value : Json) {c : Cursor}
    (shape : c.rest = word ++ rest) :
    ∃ d, literal word value c = .ok (value, d) ∧ d.rest = rest := by
  have same (equal : Char × Char → Bool) (alike : ∀ d, equal (d, d) = true) :
      ((word.zip c.rest).takeWhile equal).length = word.length := by
    rw [shape]
    clear shape
    induction word with
    | nil => rfl
    | cons x word ih => simpa [alike] using ih
  refine ⟨c.advance word.length, ?_, rest_advance _ shape⟩
  unfold literal
  rw [same _ fun d => beq_self_eq_true d]
  exact if_pos rfl

/-- What may stand behind a value: a comma, or the end of a line or of the text. -/
def Stops (rest : Text) : Prop :=
  rest.head?.all fun c => c == ',' || c == '\n'

theorem Stops.comma (rest : Text) : Stops (',' :: rest) := rfl

theorem Stops.line (rest : Text) : Stops ('\n' :: rest) := rfl

theorem Stops.any {rest : Text} (stops : Stops rest) {p : Char → Bool} (comma : p ',' = false)
    (line : p '\n' = false) : rest.head?.any p = false := by
  cases rest with
  | nil => rfl
  | cons c rest =>
      simp only [Stops, List.head?_cons, Option.all_some, Bool.or_eq_true, beq_iff_eq] at stops
      rcases stops with rfl | rfl
      · exact comma
      · exact line

theorem digits_run {ds rest : Text} (digit : ∀ d ∈ ds, Text.isDigit d = true) (notEmpty : ds ≠ [])
    (stops : Stops rest) {c : Cursor} (shape : c.rest = ds ++ rest) :
    digits c = .ok (ds, c.advance ds.length) := by
  have run : c.rest.takeWhile Text.isDigit = ds := by
    rw [shape, Text.takeWhile_run digit (stops.any (by decide) (by decide))]
  have notEmpty : ds.isEmpty = false := by simpa using notEmpty
  simp only [digits, run, notEmpty, Bool.false_eq_true, if_false]

theorem fraction_stopped {c : Cursor} (stops : Stops c.rest) : fraction c = .ok ([], c) := by
  have point : c.rest.head?.any (· == '.') = false := stops.any (by decide) (by decide)
  unfold fraction
  split
  · next shape =>
    rw [shape] at point
    cases point
  · rfl

theorem exponent_stopped {c : Cursor} (stops : Stops c.rest) : exponent c = .ok ([], c) := by
  have letter : c.rest.head?.any (fun e => e == 'e' || e == 'E') = false :=
    stops.any (by decide) (by decide)
  unfold exponent
  split
  · next shape =>
    rw [shape, List.head?_cons, Option.any_some] at letter
    rw [letter]
    rfl
  · rfl

theorem head?_toDigits {n : Nat} (positive : n ≠ 0) : (Nat.toDigits 10 n).head? ≠ some '0' := by
  induction n using Nat.strongRecOn with
  | _ n ih =>
    by_cases small : n < 10
    · have one : ∀ n < 10, n ≠ 0 → [n.digitChar].head? ≠ some '0' := by decide
      rw [Nat.toDigits_of_lt_base small]
      exact one n small positive
    · have least : 10 ≤ n := Nat.le_of_not_lt small
      have less : n / 10 < n := by omega
      have quotient : n / 10 ≠ 0 := by omega
      rw [Nat.toDigits_of_base_le (by decide) least,
        List.head?_append_of_ne_nil _ Nat.toDigits_ne_nil]
      exact ih _ less quotient

/-- A number is read back behind its sign. -/
theorem number_digits {m : Nat} {negative : Bool} (signed : negative = true → m ≠ 0) {rest : Text}
    (stops : Stops rest) {c : Cursor}
    (shape : c.rest = (if negative then ['-'] else []) ++ (Nat.toDigits 10 m ++ rest)) :
    ∃ d, number c = .ok (int (if negative then -(m : Int) else m), d) ∧ d.rest = rest := by
  have digit : ∀ d ∈ Nat.toDigits 10 m, Text.isDigit d = true :=
    fun _ => Text.isDigit_of_mem_toDigits
  have value : Text.natOfDigits (Nat.toDigits 10 m) = m := Nat.ofDigitChars_ten_toDigits
  have plain : (decide ((Nat.toDigits 10 m).length > 1) &&
      (Nat.toDigits 10 m).head? == some '0') = false := by
    rw [Bool.and_eq_false_iff, beq_eq_false_iff_ne]
    by_cases zero : m = 0
    · subst zero
      exact .inl rfl
    · exact .inr (head?_toDigits zero)
  have least : (negative && Nat.toDigits 10 m == ['0']) = false := by
    rw [Bool.and_eq_false_iff, beq_eq_false_iff_ne]
    cases negative with
    | false => exact .inl rfl
    | true =>
        refine .inr fun zero => signed rfl ?_
        rw [← value, zero]
        rfl
  have sign : (c.rest.head? == some '-') = negative := by
    cases negative with
    | true => rw [shape]; rfl
    | false =>
        have notEmpty : Nat.toDigits 10 m ≠ [] := Nat.toDigits_ne_nil
        obtain ⟨d, ds, first⟩ := List.exists_cons_of_ne_nil notEmpty
        have isDigit := digit d (first ▸ List.mem_cons_self)
        rw [shape, first]
        show (some d == some '-') = false
        rw [beq_eq_false_iff_ne]
        intro same
        cases same
        cases isDigit
  have behind : (if negative then c.advance 1 else c).rest = Nat.toDigits 10 m ++ rest := by
    cases negative with
    | true => exact rest_next shape
    | false => exact shape
  have whole := digits_run digit Nat.toDigits_ne_nil stops behind
  have after := rest_advance _ behind
  rw [← after] at stops
  refine ⟨_, ?_, after⟩
  unfold number
  simp only [sign, whole, bind, Except.bind, plain, Bool.false_eq_true, if_false,
    fraction_stopped stops, exponent_stopped stops, List.isEmpty_nil, Bool.true_and, least,
    Bool.not_false, if_true, value]
  rfl

theorem toList_int (n : Int) :
    (toString n).toList = (if decide (n < 0) then ['-'] else []) ++ Nat.toDigits 10 n.natAbs := by
  rw [Int.toString_eq_repr, Int.repr_eq_if]
  split
  case isTrue least =>
    have same : n.toNat = n.natAbs := by omega
    have plain : ¬n < 0 := by omega
    simp [plain, same, Nat.toList_repr]
  case isFalse below =>
    have same : (-n).toNat = n.natAbs := by omega
    have signed : n < 0 := by omega
    simp [signed, same, Nat.toList_repr]

theorem number_int {n : Int} {c : Cursor} {rest : Text} (stops : Stops rest)
    (shape : c.rest = (toString n).toList ++ rest) :
    ∃ d, number c = .ok (int n, d) ∧ d.rest = rest := by
  rw [toList_int, List.append_assoc] at shape
  have signed : decide (n < 0) = true → n.natAbs ≠ 0 := by
    intro below
    have below : n < 0 := of_decide_eq_true below
    omega
  obtain ⟨d, read, after⟩ := number_digits signed stops shape
  have value : (if decide (n < 0) then -(n.natAbs : Int) else n.natAbs) = n := by
    split
    case isTrue below =>
      have below : n < 0 := of_decide_eq_true below
      omega
    case isFalse plain =>
      have plain : ¬n < 0 := fun below => plain (decide_eq_true below)
      omega
  rw [value] at read
  exact ⟨d, read, after⟩

/-- An integer begins with a sign or a digit. -/
theorem head_int (n : Int) :
    ∃ d ds, (toString n).toList = d :: ds ∧ (d == '-' || Text.isDigit d) = true := by
  rw [toList_int]
  split
  · exact ⟨_, _, rfl, rfl⟩
  · have notEmpty : Nat.toDigits 10 n.natAbs ≠ [] := Nat.toDigits_ne_nil
    obtain ⟨d, ds, first⟩ := List.exists_cons_of_ne_nil notEmpty
    have digit : Text.isDigit d = true := Text.isDigit_of_mem_toDigits (first ▸ List.mem_cons_self)
    exact ⟨d, ds, first, by rw [digit, Bool.or_true]⟩

/-! Values. -/

/-- A word is read by its first letter. -/
theorem scalar_word {w : Text} {value : Json}
    (first : ∀ c : Cursor, ∀ rest, c.rest = w ++ rest → scalar c = literal w value c)
    {c : Cursor} {rest : Text} (shape : c.rest = w ++ rest) :
    ∃ d, scalar c = .ok (value, d) ∧ d.rest = rest := by
  rw [first c rest shape]
  exact literal_word value shape

theorem scalar_int {n : Int} {c : Cursor} {rest : Text} (stops : Stops rest)
    (shape : c.rest = (toString n).toList ++ rest) :
    ∃ d, scalar c = .ok (int n, d) ∧ d.rest = rest := by
  obtain ⟨e, es, first, starts⟩ := head_int n
  have number : scalar c = number c := by
    unfold scalar
    rw [shape, first, List.cons_append]
    split
    case h_5 same =>
      cases same
      rw [if_pos starts]
    case h_6 same => cases same
    all_goals
      rename_i same
      cases same
      cases starts
  rw [number]
  exact number_int stops shape

theorem scalar_str {s : String} {c : Cursor} {rest : Text}
    (shape : c.rest = (quote s).toList ++ rest) :
    ∃ d, scalar c = .ok (str s, d) ∧ d.rest = rest := by
  obtain ⟨d, read, after⟩ := string_quote shape
  obtain ⟨more, first⟩ : ∃ more, c.rest = '"' :: more := by
    rw [shape]
    exact ⟨_, by simp [quote]; rfl⟩
  refine ⟨d, ?_, after⟩
  unfold scalar
  rw [first]
  simp only [read]
  rfl

theorem scalar_plain {j : Json} (plain : j.isPlain = true) {indent : String} {rest : Text}
    (stops : Stops rest) {c : Cursor} (shape : c.rest = (j.prettyAt indent).toList ++ rest) :
    ∃ d, scalar c = .ok (j, d) ∧ d.rest = rest := by
  cases j with
  | null =>
      rw [prettyAt] at shape
      refine scalar_word (w := ['n', 'u', 'l', 'l']) (fun c rest shape => ?_) shape
      unfold scalar
      rw [shape]
      rfl
  | bool b =>
      cases b with
      | true =>
          rw [prettyAt] at shape
          refine scalar_word (w := ['t', 'r', 'u', 'e']) (fun c rest shape => ?_) shape
          unfold scalar
          rw [shape]
          rfl
      | false =>
          rw [prettyAt] at shape
          refine scalar_word (w := ['f', 'a', 'l', 's', 'e']) (fun c rest shape => ?_) shape
          unfold scalar
          rw [shape]
          rfl
  | int n =>
      rw [prettyAt] at shape
      exact scalar_int stops shape
  | str s =>
      rw [prettyAt] at shape
      exact scalar_str shape
  | decimal _ | arr _ | obj _ => cases plain

/-! Brackets. -/

/-- The entries of a bracket behind the margin of the first one, a line each. -/
def spread (margin : Text) : List Text → Text
  | [] => []
  | [entry] => entry
  | entry :: next :: rest => entry ++ (',' :: '\n' :: (margin ++ spread margin (next :: rest)))

theorem toList_layout_nil (indent opening closing : String) :
    (layout indent opening closing []).toList = opening.toList ++ closing.toList := by
  simp [layout]

theorem toList_layout (indent opening closing : String) {entries : List String}
    (notEmpty : entries ≠ []) :
    (layout indent opening closing entries).toList =
      opening.toList ++ '\n' :: ((indent ++ "  ").toList ++
        (spread (indent ++ "  ").toList (entries.map String.toList) ++
          '\n' :: (indent.toList ++ closing.toList))) := by
  have lines :
      (String.intercalate ",\n" (entries.map fun entry => indent ++ "  " ++ entry)).toList =
      (indent ++ "  ").toList ++ spread (indent ++ "  ").toList (entries.map String.toList) := by
    induction entries with
    | nil => contradiction
    | cons entry rest ih =>
        cases rest with
        | nil => simp [spread]
        | cons next rest =>
            have ih := ih (List.cons_ne_nil _ _)
            simp only [List.map_cons, String.intercalate_cons_cons, String.toList_append] at ih ⊢
            rw [ih]
            simp [spread]
  have notEmpty : entries.isEmpty = false := by simpa using notEmpty
  unfold layout
  rw [notEmpty]
  simp only [Bool.false_eq_true, if_false, String.toList_append, lines]
  simp

theorem length_spread (margin : Text) {entries : List Text} (solid : ∀ e ∈ entries, e ≠ []) :
    entries.length ≤ (spread margin entries).length ∧
      ∀ e ∈ entries, e.length ≤ (spread margin entries).length := by
  induction entries with
  | nil => exact ⟨Nat.le_refl _, fun _ none => nomatch none⟩
  | cons entry rest ih =>
      obtain ⟨first, others⟩ := List.forall_mem_cons.1 solid
      obtain ⟨count, each⟩ := ih others
      have one : 0 < entry.length := List.length_pos_iff.2 first
      cases rest with
      | nil =>
          simp only [spread, List.mem_singleton, forall_eq, List.length_singleton]
          exact ⟨one, Nat.le_refl _⟩
      | cons next rest =>
          simp only [spread, List.length_append, List.length_cons] at count ⊢
          refine ⟨by omega, List.forall_mem_cons.2 ⟨by omega, fun e member => ?_⟩⟩
          have := each e member
          omega

theorem head_plain {j : Json} (plain : j.isPlain = true) (indent : String) :
    ∃ d ds, (j.prettyAt indent).toList = d :: ds ∧ isSpace d = false ∧ d ≠ '[' ∧ d ≠ ']' ∧
      d ≠ '\x7b' := by
  cases j with
  | null => exact ⟨'n', _, by rw [prettyAt]; rfl, by decide⟩
  | bool b =>
      cases b with
      | true => exact ⟨'t', _, by rw [prettyAt]; rfl, by decide⟩
      | false => exact ⟨'f', _, by rw [prettyAt]; rfl, by decide⟩
  | int n =>
      obtain ⟨d, ds, text, starts⟩ := head_int n
      have apart {e : Char} (other : (e == '-' || Text.isDigit e) = false) : d ≠ e := by
        rintro rfl
        rw [other] at starts
        cases starts
      refine ⟨d, ds, by rw [prettyAt, text], ?_, apart rfl, apart rfl, apart rfl⟩
      simp only [isSpace, Bool.or_eq_false_iff, beq_eq_false_iff_ne]
      exact ⟨⟨⟨apart rfl, apart rfl⟩, apart rfl⟩, apart rfl⟩
  | str s => exact ⟨'"', _, by rw [prettyAt, quote]; simp; rfl, by decide⟩
  | decimal _ | arr _ | obj _ => cases plain

theorem head_layout (indent opening closing : String) (entries : List String) {d : Char}
    (opens : opening.toList = [d]) :
    ∃ ds, (layout indent opening closing entries).toList = d :: ds := by
  unfold layout
  split <;> exact ⟨_, by simp [opens]; rfl⟩

/-- A written value begins at once, and not as the end of a list. -/
theorem head_prettyAt {n : Nat} {j : Json} (readable : Readable n j) (indent : String) :
    ∃ d ds, (j.prettyAt indent).toList = d :: ds ∧ isSpace d = false ∧ d ≠ ']' := by
  cases readable with
  | plain plain =>
      obtain ⟨d, ds, text, space, _, closing, _⟩ := head_plain plain indent
      exact ⟨d, ds, text, space, closing⟩
  | @arr n items _ =>
      have opens : "[".toList = ['['] := rfl
      obtain ⟨ds, text⟩ := head_layout indent "[" "]" (prettyItems (indent ++ "  ") items) opens
      exact ⟨'[', ds, by rw [prettyAt, text], by decide, by decide⟩
  | @obj n members _ =>
      have opens : "\x7b".toList = ['\x7b'] := rfl
      obtain ⟨ds, text⟩ :=
        head_layout indent "\x7b" "\x7d" (prettyMembers (indent ++ "  ") members) opens
      exact ⟨'\x7b', ds, by rw [prettyAt, text], by decide, by decide⟩

theorem prettyItems_eq (indent : String) (items : List Json) :
    prettyItems indent items = items.map (·.prettyAt indent) := by
  induction items with
  | nil => rw [prettyItems, List.map_nil]
  | cons item rest ih => rw [prettyItems, ih, List.map_cons]

theorem prettyMembers_eq (indent : String) (members : List (String × Json)) :
    prettyMembers indent members =
      members.map fun m => quote m.1 ++ ": " ++ m.2.prettyAt indent := by
  induction members with
  | nil => rw [prettyMembers, List.map_nil]
  | cons m rest ih => rw [prettyMembers, ih, List.map_cons]

/-- A key is read with its colon. -/
theorem key_quote {name : String} {c : Cursor} {rest : Text}
    (shape : c.rest = (quote name).toList ++ ':' :: rest) :
    ∃ k d, key c = .ok (k, d) ∧ k.name = name ∧ d.rest = rest := by
  obtain ⟨d, read, after⟩ := string_quote shape
  obtain ⟨more, first⟩ : ∃ more, c.rest = '"' :: more := by
    rw [shape]
    exact ⟨_, by simp [quote]; rfl⟩
  have behind : (skipSpace d).rest = ':' :: rest := by
    rw [skipSpace_stopped (by rw [after]; rfl), after]
  refine ⟨⟨name, (skipSpace d).offset⟩, (skipSpace d).advance 1, ?_, rfl,
    rest_next behind⟩
  unfold key
  rw [first]
  simp only [read, bind, Except.bind, behind]
  rfl

/-- What a reader makes of a value at most `n` brackets deep: it takes just the written text. -/
def Reads (size n : Nat) (text : Text) (j : Json) : Prop :=
  ∀ (c : Cursor) (rest : Text), Stops rest → (skipSpace c).rest = text ++ rest →
    ∃ t, grow size n c = (t, rest) ∧ t.Spells j

/-- Behind the last entry comes the end of the bracket. -/
theorem skipSpace_closing {indent : Text} (blank : ∀ d ∈ indent, isSpace d = true) {d : Char}
    (solid : isSpace d = false) (stop : Nat) (rest : Text) :
    (skipSpace ⟨stop, '\n' :: (indent ++ d :: rest)⟩).rest = d :: rest := by
  refine skipSpace_run ('\n' :: indent) rfl ?_ (by simpa using solid)
  exact List.forall_mem_cons.2 ⟨rfl, blank⟩

/-- Behind another entry comes a comma, and the next one on a line of its own. -/
theorem skipSpace_comma {margin : Text} (blank : ∀ d ∈ margin, isSpace d = true) {d : Char}
    (solid : isSpace d = false) (stop : Nat) (rest : Text) :
    ∃ c, skipSpace ⟨stop, ',' :: '\n' :: (margin ++ d :: rest)⟩ = c ∧
      c.rest = ',' :: '\n' :: (margin ++ d :: rest) ∧
      (skipSpace (c.advance 1)).rest = d :: rest := by
  have comma : (skipSpace ⟨stop, ',' :: '\n' :: (margin ++ d :: rest)⟩).rest =
      ',' :: '\n' :: (margin ++ d :: rest) := skipSpace_stopped rfl
  refine ⟨_, rfl, comma, ?_⟩
  refine skipSpace_run ('\n' :: margin) (rest_next comma) ?_
    (by simpa using solid)
  exact List.forall_mem_cons.2 ⟨rfl, blank⟩

theorem spread_append {margin entry tail : Text} {more : List Text} {d : Char} {ds : Text}
    (text : entry = d :: ds) :
    ∃ behind, spread margin (entry :: more) ++ tail = d :: behind := by
  subst text
  cases more with
  | nil => exact ⟨_, rfl⟩
  | cons next more => exact ⟨_, rfl⟩

section

variable {size n start : Nat} {indent margin : Text} {values : List Json}

/-- The items of a list are read one after the other. -/
theorem items_spread (blank : ∀ d ∈ indent, isSpace d = true)
    (margins : ∀ d ∈ margin, isSpace d = true) {text : Json → Text}
    (reads : ∀ j ∈ values, Reads size n (text j) j)
    (heads : ∀ j ∈ values, ∃ d ds, text j = d :: ds ∧ isSpace d = false ∧ d ≠ ']')
    (notEmpty : values ≠ []) {k : Nat} (enough : values.length ≤ k) (acc : List JsonTree)
    {c : Cursor} {rest : Text}
    (shape : c.rest = spread margin (values.map text) ++ '\n' :: (indent ++ ']' :: rest)) :
    ∃ ts stop, items size n start k acc c = (.arr start (acc.reverse ++ ts) (.ok stop), rest) ∧
      List.Forall₂ JsonTree.Spells values ts := by
  induction values generalizing k acc c with
  | nil => contradiction
  | cons j more ih =>
      obtain ⟨k, rfl⟩ := Nat.exists_eq_add_one_of_ne_zero
        (Nat.ne_of_gt (Nat.lt_of_lt_of_le (Nat.succ_pos _) enough))
      obtain ⟨first, others⟩ := List.forall_mem_cons.1 reads
      obtain ⟨⟨d, ds, begins, solid, _⟩, heads⟩ := List.forall_mem_cons.1 heads
      have settled : (skipSpace c).rest = c.rest := by
        obtain ⟨behind, starts⟩ := spread_append begins
        rw [skipSpace_stopped]
        rw [shape, List.map_cons, starts]
        simpa using solid
      rw [← settled] at shape
      cases more with
      | nil =>
          obtain ⟨t, grown, spells⟩ := first c _ (.line _) shape
          obtain ⟨stop, closed⟩ := spells.close
          have closing := skipSpace_closing blank (d := ']') rfl stop rest
          refine ⟨[t], (skipSpace ⟨stop, '\n' :: (indent ++ ']' :: rest)⟩).offset + 1, ?_,
            .cons spells .nil⟩
          rw [items]
          simp only [grown, closed, closing, List.reverse_cons]
      | cons next more =>
          obtain ⟨⟨e, es, nextBegins, nextSolid, inside⟩, _⟩ := List.forall_mem_cons.1 heads
          obtain ⟨behind, starts⟩ := @spread_append margin _
            ('\n' :: (indent ++ ']' :: rest)) (more.map text) _ _ nextBegins
          simp only [List.map_cons, spread, List.append_assoc, List.cons_append] at shape starts
          rw [starts] at shape
          obtain ⟨t, grown, spells⟩ := first c _ (.comma _) shape
          obtain ⟨stop, closed⟩ := spells.close
          obtain ⟨last, skipped, comma, on⟩ := skipSpace_comma margins nextSolid stop behind
          rw [← starts] at on
          obtain ⟨ts, stop, whole, all⟩ := ih others heads (List.cons_ne_nil _ _)
            (Nat.le_of_succ_le_succ enough) (t :: acc) on
          refine ⟨t :: ts, stop, ?_, .cons spells all⟩
          rw [List.reverse_cons, List.append_assoc, List.singleton_append] at whole
          rw [items, ← whole]
          simp only [grown, closed, skipped, comma, on, starts]
          split
          · next same =>
            cases same
            contradiction
          · rfl

/-- A member as it stands on its line. -/
def memberText (text : Json → Text) (m : String × Json) : Text :=
  (quote m.1).toList ++ ':' :: ' ' :: text m.2

/-- The members of an object are read one after the other, each with its key. -/
theorem members_spread (blank : ∀ d ∈ indent, isSpace d = true)
    (margins : ∀ d ∈ margin, isSpace d = true) {text : Json → Text}
    {pairs : List (String × Json)} (reads : ∀ m ∈ pairs, Reads size n (text m.2) m.2)
    (heads : ∀ m ∈ pairs, ∃ d ds, text m.2 = d :: ds ∧ isSpace d = false ∧ d ≠ ']')
    (notEmpty : pairs ≠ []) {k : Nat} (enough : pairs.length ≤ k)
    (acc : List (JsonKey × JsonTree)) {c : Cursor} {rest : Text}
    (shape : c.rest = spread margin (pairs.map (memberText text)) ++
      '\n' :: (indent ++ '\x7d' :: rest)) :
    ∃ ts stop, members size n start k acc c = (.obj start (acc.reverse ++ ts) (.ok stop), rest) ∧
      ts.map (·.1.name) = pairs.map (·.1) ∧
      List.Forall₂ JsonTree.Spells (pairs.map (·.2)) (ts.map (·.2)) := by
  induction pairs generalizing k acc c with
  | nil => contradiction
  | cons m more ih =>
      obtain ⟨k, rfl⟩ := Nat.exists_eq_add_one_of_ne_zero
        (Nat.ne_of_gt (Nat.lt_of_lt_of_le (Nat.succ_pos _) enough))
      obtain ⟨first, others⟩ := List.forall_mem_cons.1 reads
      obtain ⟨⟨d, ds, begins, solid, _⟩, heads⟩ := List.forall_mem_cons.1 heads
      -- The key, the colon and the blank are taken off; then the value begins.
      have opened {behind : Text} (shape : c.rest = memberText text m ++ behind) :
          ∃ name after, key c = .ok (name, after) ∧ name.name = m.1 ∧
            (skipSpace after).rest = text m.2 ++ behind := by
        rw [memberText, List.append_assoc, List.cons_append, List.cons_append] at shape
        obtain ⟨name, after, read, same, rest⟩ := key_quote shape
        refine ⟨name, after, read, same, skipSpace_run [' '] rest (fun e one => ?_) ?_⟩
        · rw [List.mem_singleton.1 one]
          rfl
        · rw [begins]
          simpa using solid
      cases more with
      | nil =>
          obtain ⟨name, after, read, same, value⟩ := opened shape
          obtain ⟨t, grown, spells⟩ := first after _ (.line _) value
          obtain ⟨stop, closed⟩ := spells.close
          have closing := skipSpace_closing blank (d := '\x7d') rfl stop rest
          refine ⟨[(name, t)],
            (skipSpace ⟨stop, '\n' :: (indent ++ '\x7d' :: rest)⟩).offset + 1, ?_, ?_,
            .cons spells .nil⟩
          · rw [members]
            simp only [read, grown, closed, closing, List.reverse_cons]
          · simp only [List.map_cons, same, List.map_nil]
      | cons next more =>
          have nextBegins : memberText text next = '"' :: (memberText text next).tail := by
            simp [memberText, quote]
          obtain ⟨behind, starts⟩ := @spread_append margin _
            ('\n' :: (indent ++ '\x7d' :: rest)) (more.map (memberText text)) _ _ nextBegins
          simp only [List.map_cons, spread, List.append_assoc, List.cons_append] at shape starts
          rw [starts] at shape
          obtain ⟨name, after, read, same, value⟩ := opened shape
          obtain ⟨t, grown, spells⟩ := first after _ (.comma _) value
          obtain ⟨stop, closed⟩ := spells.close
          obtain ⟨last, skipped, comma, on⟩ := skipSpace_comma margins (d := '"') rfl stop behind
          rw [← starts] at on
          obtain ⟨ts, stop, whole, names, all⟩ := ih others heads (List.cons_ne_nil _ _)
            (Nat.le_of_succ_le_succ enough) ((name, t) :: acc) on
          refine ⟨(name, t) :: ts, stop, ?_, ?_, .cons spells all⟩
          · rw [List.reverse_cons, List.append_assoc, List.singleton_append] at whole
            rw [members, ← whole]
            simp only [read, grown, closed, skipped, comma, on, starts]
            rfl
          · rw [List.map_cons, List.map_cons, same, names]

end

theorem margin_blank {indent : String} (blank : ∀ d ∈ indent.toList, isSpace d = true) :
    ∀ d ∈ (indent ++ "  ").toList, isSpace d = true := by
  intro d member
  have spaces : ∀ d ∈ "  ".toList, isSpace d = true := List.all_eq_true.1 rfl
  rw [String.toList_append, List.mem_append] at member
  exact member.elim (blank d) (spaces d)

section

variable {indent opening closing : String} {entries : List String} {o e k : Char} {es rest : Text}
  {c : Cursor}

/-- Behind its bracket and the margin the entries of a layout begin. -/
theorem skipSpace_layout (blank : ∀ d ∈ indent.toList, isSpace d = true)
    (opens : opening.toList = [o]) (closes : closing.toList = [k])
    (first : (entries.map String.toList).head? = some (e :: es)) (solid : isSpace e = false)
    (shape : (skipSpace c).rest = (layout indent opening closing entries).toList ++ rest) :
    (∃ behind, (skipSpace c).rest = o :: behind) ∧
      (∃ behind, (skipSpace ((skipSpace c).advance 1)).rest = e :: behind) ∧
      (skipSpace ((skipSpace c).advance 1)).rest =
        spread (indent ++ "  ").toList (entries.map String.toList) ++
          '\n' :: (indent.toList ++ k :: rest) := by
  obtain ⟨more, texts⟩ := List.head?_eq_some_iff.1 first
  have notEmpty : entries ≠ [] := by
    rintro rfl
    cases first
  rw [toList_layout indent opening closing notEmpty, opens, closes] at shape
  simp only [List.cons_append, List.append_assoc, List.nil_append] at shape
  obtain ⟨behind, begins⟩ := @spread_append (indent ++ "  ").toList _
    ('\n' :: (indent.toList ++ k :: rest)) more e es rfl
  rw [texts] at shape ⊢
  rw [begins] at shape ⊢
  have inner : (skipSpace ((skipSpace c).advance 1)).rest = e :: behind := by
    refine skipSpace_run ('\n' :: (indent ++ "  ").toList) (rest_next shape) ?_
      (by simpa using solid)
    exact List.forall_mem_cons.2 ⟨rfl, margin_blank blank⟩
  exact ⟨⟨_, shape⟩, ⟨_, inner⟩, inner⟩

/-- A layout is longer than it has entries, and than each of them. -/
theorem length_layout (indent opening closing : String) (solid : ∀ e ∈ entries, e.toList ≠ []) :
    entries.length ≤ (layout indent opening closing entries).toList.length ∧
      ∀ e ∈ entries, e.toList.length ≤ (layout indent opening closing entries).toList.length := by
  cases entries with
  | nil => exact ⟨Nat.zero_le _, fun _ none => nomatch none⟩
  | cons entry rest =>
      obtain ⟨count, each⟩ := length_spread (indent ++ "  ").toList
        (List.forall_mem_map.2 solid)
      rw [toList_layout indent opening closing (List.cons_ne_nil _ _)]
      simp only [List.length_append, List.length_cons, List.length_map] at count each ⊢
      refine ⟨by omega, fun e member => ?_⟩
      have := each e.toList (List.mem_map_of_mem member)
      omega

end

section

variable {size n : Nat} {c : Cursor} {behind rest : Text}

theorem grow_list (opened : (skipSpace c).rest = '[' :: behind) :
    ((skipSpace ((skipSpace c).advance 1)).rest = ']' :: rest →
      ∃ start stop, grow size (n + 2) c = (.arr start [] (.ok stop), rest)) ∧
    ∀ d, d ≠ ']' → (skipSpace ((skipSpace c).advance 1)).rest = d :: rest →
      ∃ start, grow size (n + 2) c =
        items size (n + 1) start size [] (skipSpace ((skipSpace c).advance 1)) := by
  constructor
  · intro closes
    rw [grow]
    simp only [opened, closes]
    exact ⟨_, _, rfl⟩
  · intro d other entry
    refine ⟨(skipSpace c).offset, ?_⟩
    rw [grow]
    simp only [opened, entry, Nat.succ_ne_zero, if_false]
    split
    · next same =>
      cases same
      contradiction
    · contradiction
    · rfl

theorem grow_object (opened : (skipSpace c).rest = '\x7b' :: behind) :
    ((skipSpace ((skipSpace c).advance 1)).rest = '\x7d' :: rest →
      ∃ start stop, grow size (n + 2) c = (.obj start [] (.ok stop), rest)) ∧
    ∀ d, d ≠ '\x7d' → (skipSpace ((skipSpace c).advance 1)).rest = d :: rest →
      ∃ start, grow size (n + 2) c =
        members size (n + 1) start size [] (skipSpace ((skipSpace c).advance 1)) := by
  constructor
  · intro closes
    rw [grow]
    simp only [opened, closes]
    exact ⟨_, _, rfl⟩
  · intro d other entry
    refine ⟨(skipSpace c).offset, ?_⟩
    rw [grow]
    simp only [opened, entry, Nat.succ_ne_zero, if_false]
    split
    · next same =>
      cases same
      contradiction
    · contradiction
    · rfl

theorem grow_plain {j : Json} (plain : j.isPlain = true) {indent : String} (stops : Stops rest)
    (shape : (skipSpace c).rest = (j.prettyAt indent).toList ++ rest) :
    ∃ start stop, grow size (n + 1) c = (.leaf j start stop, rest) := by
  obtain ⟨d, ds, text, _, list, _, object⟩ := head_plain plain indent
  obtain ⟨after, read, behind⟩ := scalar_plain plain stops shape
  refine ⟨(skipSpace c).offset, after.offset, ?_⟩
  rw [text, List.cons_append] at shape
  rw [grow]
  simp only [shape]
  split
  · next same =>
    cases same
    contradiction
  · next same =>
    cases same
    contradiction
  · simp only [read, behind]

end

/-- The reader takes the whole written text of a value, and nothing behind it. -/
theorem reads_prettyAt {n : Nat} {j : Json} (readable : Readable n j) {size : Nat}
    {indent : String} (blank : ∀ d ∈ indent.toList, isSpace d = true)
    (large : (j.prettyAt indent).toList.length ≤ size) :
    Reads size (n + 1) (j.prettyAt indent).toList j := by
  induction readable generalizing indent with
  | @plain n j plain =>
      intro c rest stops shape
      obtain ⟨start, stop, grown⟩ := grow_plain plain stops shape
      exact ⟨_, grown, .leaf plain⟩
  | @arr n values readable ih =>
      intro c rest stops shape
      have opens : "[".toList = ['['] := rfl
      have closes : "]".toList = [']'] := rfl
      rw [prettyAt, prettyItems_eq] at shape large
      cases values with
      | nil =>
          rw [List.map_nil, toList_layout_nil, opens, closes] at shape
          obtain ⟨start, stop, grown⟩ := (grow_list shape).1
            (skipSpace_run [] (rest_next shape) (fun _ none => nomatch none) rfl)
          exact ⟨_, grown, .arr .nil⟩
      | cons first more =>
          have heads : ∀ j ∈ first :: more, ∃ d ds, (j.prettyAt (indent ++ "  ")).toList = d :: ds ∧
              isSpace d = false ∧ d ≠ ']' :=
            fun j member => head_prettyAt (readable j member) (indent ++ "  ")
          obtain ⟨⟨d, ds, text, solid, other⟩, _⟩ := List.forall_mem_cons.1 heads
          obtain ⟨⟨_, opened⟩, ⟨_, begins⟩, inner⟩ := skipSpace_layout blank opens closes
            (by rw [List.map_cons, List.map_cons, List.head?_cons, text]) solid shape
          have notEmpty :
              ∀ e ∈ (first :: more).map (·.prettyAt (indent ++ "  ")), e.toList ≠ [] := by
            refine List.forall_mem_map.2 fun j member => ?_
            obtain ⟨d, ds, text, _⟩ := heads j member
            simp [text]
          obtain ⟨count, each⟩ := length_layout indent "[" "]" notEmpty
          rw [List.length_map] at count
          rw [List.map_map] at inner
          obtain ⟨start, grown⟩ := (grow_list opened).2 d other begins
          obtain ⟨ts, stop, read, all⟩ := items_spread blank (margin_blank blank)
            (fun j member => ih j member (margin_blank blank)
              (Nat.le_trans (each _ (List.mem_map_of_mem member)) large))
            heads (List.cons_ne_nil _ _) (Nat.le_trans count large) [] inner
          exact ⟨_, grown.trans read, .arr all⟩
  | @obj n pairs readable ih =>
      intro c rest stops shape
      have opens : "\x7b".toList = ['\x7b'] := rfl
      have closes : "\x7d".toList = ['\x7d'] := rfl
      have colon : ": ".toList = [':', ' '] := rfl
      rw [prettyAt, prettyMembers_eq] at shape large
      cases pairs with
      | nil =>
          rw [List.map_nil, toList_layout_nil, opens, closes] at shape
          obtain ⟨start, stop, grown⟩ := (grow_object shape).1
            (skipSpace_run [] (rest_next shape) (fun _ none => nomatch none) rfl)
          exact ⟨_, grown, .obj rfl .nil⟩
      | cons first more =>
          have heads : ∀ m ∈ first :: more, ∃ d ds,
              (m.2.prettyAt (indent ++ "  ")).toList = d :: ds ∧ isSpace d = false ∧ d ≠ ']' :=
            fun m member => head_prettyAt (readable m member) (indent ++ "  ")
          have texts : String.toList ∘ (fun m : String × Json =>
              quote m.1 ++ ": " ++ m.2.prettyAt (indent ++ "  ")) =
                memberText fun j => (j.prettyAt (indent ++ "  ")).toList := by
            funext m
            simp [memberText]
          have quoted (m : String × Json) : ∃ ds,
              memberText (fun j => (j.prettyAt (indent ++ "  ")).toList) m = '"' :: ds :=
            ⟨_, by simp [memberText, quote]; rfl⟩
          obtain ⟨ds, text⟩ := quoted first
          obtain ⟨⟨_, opened⟩, ⟨_, begins⟩, inner⟩ := skipSpace_layout blank opens closes
            (by rw [List.map_map, texts, List.map_cons, List.head?_cons, text]) (by rfl) shape
          have notEmpty : ∀ e ∈ (first :: more).map fun m =>
              quote m.1 ++ ": " ++ m.2.prettyAt (indent ++ "  "), e.toList ≠ [] := by
            refine List.forall_mem_map.2 fun m _ => ?_
            simp [quote]
          obtain ⟨count, each⟩ := length_layout indent "\x7b" "\x7d" notEmpty
          rw [List.length_map] at count
          rw [List.map_map, texts] at inner
          have short {m : String × Json} (member : m ∈ first :: more) :
              (m.2.prettyAt (indent ++ "  ")).toList.length ≤ size := by
            have entry := Nat.le_trans (each _ (List.mem_map_of_mem member)) large
            rw [String.toList_append, List.length_append] at entry
            omega
          obtain ⟨start, grown⟩ := (grow_object opened).2 '"' (by decide) begins
          obtain ⟨ts, stop, read, names, all⟩ := members_spread blank (margin_blank blank)
            (fun m member => ih m member (margin_blank blank) (short member)) heads
            (List.cons_ne_nil _ _) (Nat.le_trans count large) [] inner
          exact ⟨_, grown.trans read, .obj names all⟩

end Json

namespace JsonTree

/-- Whatever a reader makes of a tree of a value, it makes of the value's indented text. -/
theorem read_pretty {j : Json} (readable : j.Readable (Json.maxDepth - 1))
    {f : JsonTree → JsonRead α} {a : α} (reads : ∀ t : JsonTree, t.Spells j → f t = .ok a) :
    read f j.pretty = .ok a := by
  have large : (j.prettyAt "").toList.length ≤ j.pretty.toList.length + 1 := Nat.le_succ _
  have whole : (Cursor.ofText j.pretty.toList).rest = (j.prettyAt "").toList ++ [] :=
    (List.append_nil _).symm
  obtain ⟨d, ds, text, solid, _⟩ := Json.head_prettyAt readable ""
  obtain ⟨t, grown, spells⟩ := Json.reads_prettyAt readable (List.all_eq_true.1 rfl) large
    (.ofText j.pretty.toList) [] rfl (by
      rw [Json.skipSpace_stopped, whole]
      rw [whole, text]
      simpa using solid)
  obtain ⟨stop, closed⟩ := spells.close
  have ended : ending (t, []) = .ok () := by
    have behind : (Json.skipSpace ⟨stop, []⟩).rest = [] := Json.skipSpace_stopped rfl
    simp only [ending, closed, bind, Except.bind, behind]
    rfl
  have trees : ofText j.pretty.toList = (t, []) := grown
  unfold read
  simp only [trees, reads t spells, ended]
  rfl

end JsonTree

end SqlUnits
