import SqlUnits.Proofs.Sql.Transaction
/-!
Parsers stay within a statement: the tokens that they take are neither semicolons nor the end. Each
parser is an instance, which those that use it find.
-/

namespace SqlUnits.Sql

/-- A semicolon, which ends a statement. -/
def Token.isSemicolon (t : Token) : Bool :=
  t.kind == .sign && t.key == ";"

/-- A token that ends neither a statement nor the text. -/
class Token.Inner (t : Token) : Prop where
  more : t.kind ≠ .finish
  plain : t.isSemicolon = false

namespace Token.Inner

variable {t : Token}

theorem of_key (more : t.kind ≠ .finish) (other : t.key ≠ ";") : t.Inner :=
  ⟨more, by simp [isSemicolon, other]⟩

theorem of_kind (more : t.kind ≠ .finish) (other : t.kind ≠ .sign) : t.Inner :=
  ⟨more, by simp [isSemicolon, other]⟩

theorem of_word (word : t.kind = .word) : t.Inner :=
  of_kind (by simp [word]) (by simp [word])

theorem of_number (number : t.kind = .number) : t.Inner :=
  of_kind (by simp [number]) (by simp [number])

end Token.Inner

namespace Parser

/-- Tokens with the mark of the end behind the others. -/
inductive Ended : List Token → Prop
  | last {t : Token} : t.kind = .finish → Ended [t]
  | cons {t : Token} {rest : List Token} : t.kind ≠ .finish → Ended rest → Ended (t :: rest)

/-- What is left of tokens when inner ones have been taken off the front. -/
inductive Leaves : List Token → List Token → Prop
  | refl (tokens : List Token) : Leaves tokens tokens
  | take {t : Token} {rest left : List Token} : t.Inner → Leaves rest left →
      Leaves (t :: rest) left

theorem Leaves.trans {tokens mid left : List Token} (first : Leaves tokens mid)
    (second : Leaves mid left) : Leaves tokens left := by
  induction first with
  | refl => exact second
  | take inner _ ih => exact .take inner (ih second)

theorem Leaves.ended {tokens left : List Token} (leaves : Leaves tokens left)
    (ended : Ended tokens) : Ended left := by
  induction leaves with
  | refl => exact ended
  | take inner _ ih =>
      cases ended with
      | last finish => exact absurd finish inner.more
      | cons _ rest => exact ih rest

/-- A parser that takes only inner tokens. -/
class Enclosed (x : Parser α) : Prop where
  leaves : ∀ {tokens a left}, Ended tokens → x tokens = .ok (a, left) → Leaves tokens left

/-- A parser that takes only inner tokens where a certain one stands first. -/
class EnclosedAt (t : Token) (x : Parser α) : Prop where
  leaves : ∀ {rest a left}, Ended (t :: rest) → x (t :: rest) = .ok (a, left) →
    Leaves (t :: rest) left

section

variable {x y : Parser α} {k : α → Parser β} {t : Token}

theorem Ended.cons_cases {tokens : List Token} (ended : Ended tokens) :
    ∃ t rest, tokens = t :: rest ∧
      (t.kind = .finish ∧ rest = [] ∨ t.kind ≠ .finish ∧ Ended rest) := by
  cases ended with
  | last finish => exact ⟨_, _, rfl, .inl ⟨finish, rfl⟩⟩
  | cons more rest => exact ⟨_, _, rfl, .inr ⟨more, rest⟩⟩

theorem advance_run {rest : List Token} (more : t.kind ≠ .finish) :
    advance (t :: rest) = .ok (t, rest) := by
  rw [advance, if_neg more]

/-- An inner token may be taken; the end stays where it is. -/
theorem advance_leaves {rest : List Token} (ended : Ended (t :: rest))
    (inner : t.kind ≠ .finish → t.Inner) :
    ∃ left, advance (t :: rest) = .ok (t, left) ∧ Leaves (t :: rest) left := by
  cases ended with
  | last finish => exact ⟨_, by rw [advance, if_pos finish], .refl _⟩
  | cons more _ => exact ⟨_, advance_run more, .take (inner more) (.refl _)⟩

theorem EnclosedAt.advance (inner : t.kind ≠ .finish → t.Inner) {k : Token → Parser β}
    (rest : Enclosed (k t)) : EnclosedAt t (advance >>= k) where
  leaves ended run := by
    obtain ⟨_, first, leaves⟩ := advance_leaves ended inner
    rw [bind_run first] at run
    exact leaves.trans (rest.leaves (leaves.ended ended) run)

theorem EnclosedAt.bind (first : EnclosedAt t x) (second : ∀ a, Enclosed (k a)) :
    EnclosedAt t (x >>= k) where
  leaves ended run := by
    obtain ⟨a, mid, run, rest⟩ := bind_ok run
    have leaves := first.leaves ended run
    exact leaves.trans ((second a).leaves (leaves.ended ended) rest)

theorem EnclosedAt.secondKey {k : String → Parser β} (each : ∀ key, EnclosedAt t (k key)) :
    EnclosedAt t (secondKey >>= k) where
  leaves ended run := (each _).leaves ended run

instance [enclosed : Enclosed x] : EnclosedAt t x :=
  ⟨enclosed.leaves⟩

/-- Whatever tokens there are, one stands first. -/
theorem Enclosed.ofAt (each : ∀ t, EnclosedAt t x) : Enclosed x where
  leaves ended run := by
    obtain ⟨t, _, rfl, _⟩ := ended.cons_cases
    exact (each t).leaves ended run

theorem Enclosed.bind [Enclosed x] (second : ∀ a, Enclosed (k a)) : Enclosed (x >>= k) :=
  .ofAt fun _ => .bind inferInstance second

/-- A parser that looks at the first token, and goes on by what it is. -/
theorem Enclosed.peek {k : Token → Parser β} (each : ∀ t, EnclosedAt t (k t)) :
    Enclosed (peek >>= k) :=
  .ofAt fun t => ⟨(each t).leaves⟩

instance [Enclosed x] [∀ a, Enclosed (k a)] : Enclosed (x >>= k) :=
  .bind inferInstance

instance {k : Token → Parser β} [∀ t, EnclosedAt t (k t)] : Enclosed (peek >>= k) :=
  .peek inferInstance

instance [t.Inner] {k : Token → Parser β} [Enclosed (k t)] : EnclosedAt t (advance >>= k) :=
  .advance (fun _ => inferInstance) inferInstance

instance {a : α} : Enclosed (pure a : Parser α) where
  leaves _ run := by
    cases run
    exact .refl _

instance {f : α → β} [Enclosed x] : Enclosed (f <$> x) := by
  rw [map_eq_pure_bind]
  infer_instance

instance : Enclosed (unexpected : Parser α) where
  leaves _ run := nomatch run

instance : Enclosed ((unexpected : Parser α) >>= k) where
  leaves _ run := nomatch run

instance {message : String} {offset : Option Nat} :
    Enclosed (refuse message offset : Parser α) where
  leaves _ run := nomatch run

instance {c : Prop} [Decidable c] [Enclosed x] [Enclosed y] : Enclosed (if c then x else y) := by
  split <;> assumption

instance {c : Prop} [Decidable c] [EnclosedAt t x] [EnclosedAt t y] :
    EnclosedAt t (if c then x else y) := by
  split <;> assumption

/-- What is known of the first token may be used behind a test. -/
theorem EnclosedAt.ite {c : Prop} [Decidable c] (yes : c → EnclosedAt t x)
    (no : ¬c → EnclosedAt t y) : EnclosedAt t (if c then x else y) := by
  split
  · exact yes ‹c›
  · exact no ‹¬c›

/-- Where a word must stand first, an inner token does. -/
theorem EnclosedAt.ofWord [EnclosedAt t y] (word : t.Inner → EnclosedAt t x) :
    EnclosedAt t (if t.kind != .word then y else x) :=
  .ite (fun _ => inferInstance) fun isWord => word (.of_word (by simpa using isWord))

/-! The parsers that the others are made of. -/

instance : Enclosed peek where
  leaves _ run := by
    cases run
    exact .refl _

instance : Enclosed secondKey where
  leaves _ run := by
    cases run
    exact .refl _

instance : Enclosed countTokens where
  leaves _ run := by
    cases run
    exact .refl _

instance {w : String} : Enclosed (atWord w) := by
  unfold atWord
  infer_instance

instance {s : String} : Enclosed (atSign s) := by
  unfold atSign
  infer_instance

/-- A parser that goes on by a test of the first token. -/
theorem Enclosed.tested {test : Token → Bool} {k : Bool → Parser β}
    (each : ∀ t, EnclosedAt t (k (test t))) :
    Enclosed ((do let t ← Parser.peek; pure (test t) : Parser Bool) >>= k) :=
  .peek each

instance {w : String} : Enclosed (word? w) := by
  refine .tested fun t => .ite (fun found => ?_) fun _ => inferInstance
  have : t.Inner := .of_word (by simp_all)
  infer_instance

instance {s : String} [other : Fact (s ≠ ";")] : Enclosed (sign? s) := by
  refine .tested fun t => .ite (fun found => ?_) fun _ => inferInstance
  simp only [Bool.and_eq_true, beq_iff_eq] at found
  have : t.Inner := .of_key (by simp [found]) (found.2 ▸ other.out)
  infer_instance

instance {w : String} : Enclosed (word w) := by
  unfold word
  infer_instance

instance {s : String} [Fact (s ≠ ";")] : Enclosed (sign s) := by
  unfold sign
  infer_instance

/-! The signs of the grammar. -/

instance : Fact ("(" ≠ ";") := ⟨by decide⟩
instance : Fact (")" ≠ ";") := ⟨by decide⟩
instance : Fact ("," ≠ ";") := ⟨by decide⟩
instance : Fact ("." ≠ ";") := ⟨by decide⟩
instance : Fact ("*" ≠ ";") := ⟨by decide⟩
instance : Fact ("+" ≠ ";") := ⟨by decide⟩
instance : Fact ("-" ≠ ";") := ⟨by decide⟩
instance : Fact ("=" ≠ ";") := ⟨by decide⟩
instance : Fact ("==" ≠ ";") := ⟨by decide⟩

/-- A reading of a token that finds nothing in a semicolon, and nothing at the end. -/
class ReadsInner (read : Token → Option String) : Prop where
  inner : ∀ {t s}, read t = some s → t.Inner

instance : ReadsInner Token.plainName? where
  inner {t s} found := by
    unfold Token.plainName? at found
    split at found <;> rename_i kind
    · exact .of_word kind
    · exact .of_kind (by simp [kind]) (by simp [kind])
    · cases found

instance : ReadsInner Token.label? where
  inner {t s} found := by
    unfold Token.label? at found
    split at found <;> rename_i kind
    · exact .of_kind (by simp [kind]) (by simp [kind])
    · exact ReadsInner.inner found

instance : ReadsInner Token.name? where
  inner {t s} found := by
    unfold Token.name? at found
    split at found <;> rename_i kind
    · exact .of_word kind
    · exact ReadsInner.inner found

instance : ReadsInner Query.writtenName? where
  inner {t s} found := by
    unfold Query.writtenName? at found
    split at found
    · rename_i named
      obtain ⟨s, named⟩ := Option.isSome_iff_exists.1 named
      exact ReadsInner.inner named
    · cases found

instance {read : Token → Option String} [reads : ReadsInner read] : Enclosed (taken? read) := by
  refine .peek fun t => ?_
  cases found : read t with
  | none => infer_instance
  | some s =>
      have : t.Inner := reads.inner found
      infer_instance

instance : Enclosed name := by
  refine .bind fun found => ?_
  cases found <;> infer_instance

variable {item : Parser α}

instance [Enclosed item] {fuel : Nat} : Enclosed (commaSeparated item fuel) := by
  induction fuel with
  | zero => exact inferInstanceAs (Enclosed (pure _))
  | succ fuel ih =>
      unfold commaSeparated
      infer_instance

instance [Enclosed item] : Enclosed (list item) := by
  unfold list
  infer_instance

instance [Enclosed x] : Enclosed (parenthesised x) := by
  unfold parenthesised
  infer_instance

instance : Enclosed nameList := by
  unfold nameList
  infer_instance

instance : Enclosed tableName := by
  unfold tableName
  infer_instance

instance {item : Parser (Option α)} [Enclosed item] {fuel : Nat} : Enclosed (many item fuel) := by
  induction fuel with
  | zero => exact inferInstanceAs (Enclosed (pure _))
  | succ fuel ih =>
      refine .bind fun found => ?_
      cases found <;> infer_instance

instance {item : Parser (Option α)} [Enclosed item] : Enclosed (repeated item) := by
  unfold repeated
  infer_instance

instance {w : String} [Enclosed x] : Enclosed (after? w x) := by
  unfold after?
  infer_instance

/-- Two words that stand one behind the other are taken both, or none of them. -/
theorem Enclosed.twoWords {w v : String} (other : v ≠ ";") (both : Enclosed x)
    (none_ : Enclosed y) :
    Enclosed (do
      let first ← atWord w
      let second ← secondKey
      if (first && second == v) = true then do
        let _ ← advance
        let _ ← advance
        x
      else y) where
  leaves {tokens a left} ended run := by
    obtain ⟨t, rest, rfl, ends⟩ := ended.cons_cases
    rw [bind_run (show atWord w (t :: rest) = .ok (_, _) from rfl),
      bind_run (show secondKey (t :: rest) = .ok (_, _) from rfl)] at run
    split at run
    case isFalse => exact none_.leaves ended run
    case isTrue found =>
      simp only [Bool.and_eq_true, beq_iff_eq, List.drop_one, List.tail_cons] at found
      have inner : t.Inner := .of_word found.1.1
      obtain ⟨finish, _⟩ | ⟨more, ended⟩ := ends
      · exact absurd finish inner.more
      obtain ⟨u, rest, rfl, _⟩ := ended.cons_cases
      obtain ⟨left, second, leaves⟩ := advance_leaves ended fun more => .of_key more (found.2 ▸ other)
      rw [bind_run (advance_run more), bind_run second] at run
      exact .take inner (leaves.trans (both.leaves (leaves.ended ended) run))

instance {w v : String} [other : Fact (v ≠ ";")] [Enclosed x] [Enclosed y] :
    Enclosed (atWord w >>= fun first => secondKey >>= fun second =>
      if (first && second == v) = true then
        advance >>= fun _ => advance >>= fun _ => x
      else y) :=
  .twoWords other.out inferInstance inferInstance

end

end Parser

end SqlUnits.Sql
