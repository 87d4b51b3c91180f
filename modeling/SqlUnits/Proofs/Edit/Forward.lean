import SqlUnits.Proofs.Edit.Splice
/-!
Lists of edits as one splice from left to right. Whatever additions were tried, and in whatever
order, a list holds the edits that stood apart from those before them, by their offsets; applied to
a text, it puts their texts between the parts that stay.
-/

namespace SqlUnits

namespace Edit

/-- Edits that do not begin at one place, and of which the later one does not begin before the
earlier one ends. -/
def Apart (a b : Edit) : Prop :=
  a.span.start ≠ b.span.start ∧
    (a.span.start < b.span.start → a.span.stop ≤ b.span.start) ∧
    (b.span.start < a.span.start → b.span.stop ≤ a.span.start)

instance (a b : Edit) : Decidable (a.Apart b) :=
  inferInstanceAs (Decidable (_ ∧ _))

theorem compatible_iff_apart {a b : Edit} : a.Compatible b ↔ a.Apart b := by
  unfold Compatible conflictsWith Apart
  rcases Nat.lt_trichotomy a.span.start b.span.start with before | same | behind
  · simp [before, before.ne, before.not_gt]
  · simp [same]
  · simp [behind, behind.ne', behind.not_gt]

/-- Takes an edit if it stands apart from those taken before it. -/
def takeNext (before : List Edit) (edit : Edit) : List Edit :=
  if ∀ e ∈ before, e.Apart edit then before ++ [edit] else before

/-- The edits of a sequence that are taken, in the order in which they came. -/
def taken (edits : List Edit) : List Edit :=
  edits.foldl takeNext []

theorem taken_eq_self {edits : List Edit} (apart : edits.Pairwise Apart) : taken edits = edits := by
  have from_ (before more : List Edit) (apart : (before ++ more).Pairwise Apart) :
      more.foldl takeNext before = before ++ more := by
    induction more generalizing before with
    | nil => exact (List.append_nil before).symm
    | cons edit more ih =>
        have next : takeNext before edit = before ++ [edit] :=
          if_pos fun e member => (List.pairwise_append.1 apart).2.2 e member edit (.head more)
        rw [List.append_cons] at apart
        rw [List.foldl_cons, next, ih (before ++ [edit]) apart, ← List.append_cons]
  exact from_ [] edits apart

/-- The span of an edit can be cut out of a text. -/
structure Fits (source : Text) (edit : Edit) : Prop where
  ordered : edit.span.start ≤ edit.span.stop
  inRange : edit.span.stop ≤ Text.byteLength source
  start : Text.isBoundary source edit.span.start = true
  stop : Text.isBoundary source edit.span.stop = true

theorem checkSpan_eq_ok_iff {source : Text} {edit : Edit} :
    EditList.checkSpan source edit.span = .ok () ↔ edit.Fits source := by
  unfold EditList.checkSpan
  constructor
  · intro checked
    split at checked
    · cases checked
    · split at checked
      · cases checked
      · split at checked
        · cases checked
        · rename_i inside start stop
          simp only [gt_iff_lt, Bool.or_eq_true, decide_eq_true_eq, not_or, Nat.not_lt] at inside
          exact ⟨inside.1, inside.2, by simpa using start, by simpa using stop⟩
  · intro fits
    simp [Nat.not_lt.2 fits.ordered, Nat.not_lt.2 fits.inRange, fits.start, fits.stop]

end Edit

namespace EditList

/-- A list once an addition was tried. -/
def offer (list : EditList) (edit : Edit) : EditList :=
  (list.addAll [edit]).1

/-- The list that a sequence of additions leaves, whichever of them are refused. -/
def offered (edits : List Edit) : EditList :=
  edits.foldl offer {}

theorem offer_of_ok {list next : EditList} {edit : Edit} (added : list.add edit = .ok next) :
    list.offer edit = next := by
  simp [offer, addAll, added]

theorem offer_of_error {list : EditList} {edit : Edit} {refusal : EditError}
    (refused : list.add edit = .error refusal) : list.offer edit = list := by
  simp [offer, addAll, refused]

theorem offered_append (edits : List Edit) (edit : Edit) :
    offered (edits ++ [edit]) = (offered edits).offer edit :=
  List.foldl_append

theorem exists_add_eq_ok {list : EditList} {edit : Edit} :
    (∃ next, list.add edit = .ok next) ↔ ∀ e ∈ list.edits, e.Apart edit := by
  constructor
  · rintro ⟨next, added⟩ e member
    exact Edit.compatible_iff_apart.1 ((add_perm added).2 e member)
  · intro apart
    exact ⟨_, add_eq_ok fun e member => Edit.compatible_iff_apart.2 (apart e member)⟩

/-- A list that holds edits, by their offsets. -/
structure Holds (list : EditList) (edits : List Edit) : Prop where
  sorted : Sorted list.edits
  perm : list.edits.Perm edits
  apart : list.edits.Pairwise Edit.Compatible

namespace Holds

variable {list other : EditList} {edits others : List Edit}

theorem offer (holds : list.Holds edits) (edit : Edit) :
    (list.offer edit).Holds (Edit.takeNext edits edit) := by
  have known : (∀ e ∈ edits, e.Apart edit) ↔ ∀ e ∈ list.edits, e.Apart edit :=
    forall_congr' fun e => imp_congr_left holds.perm.mem_iff.symm
  unfold Edit.takeNext
  cases outcome : list.add edit with
  | ok next =>
      have apart := exists_add_eq_ok.1 ⟨next, outcome⟩
      obtain ⟨perm, compatible⟩ := add_perm outcome
      have added := add_eq_ok compatible
      rw [outcome, Except.ok.injEq] at added
      rw [offer_of_ok outcome, if_pos (known.2 apart)]
      refine ⟨?_, ?_, ?_⟩
      · rw [added]
        exact holds.sorted.insertSorted fun e member => (compatible e member).start_ne
      · exact perm.trans ((holds.perm.cons edit).trans (List.perm_append_singleton edit edits).symm)
      · refine (perm.pairwise_iff Edit.Compatible.symm).2 (List.pairwise_cons.2 ⟨?_, holds.apart⟩)
        exact fun e member => (compatible e member).symm
  | error refusal =>
      have stands : ¬∀ e ∈ edits, e.Apart edit := by
        intro apart
        obtain ⟨next, added⟩ := exists_add_eq_ok.2 (known.1 apart)
        rw [outcome] at added
        cases added
      rw [offer_of_error outcome, if_neg stands]
      exact holds

/-- What is held determines the list. -/
theorem unique (holds : list.Holds edits) (holds' : other.Holds others)
    (perm : others.Perm edits) : other = list := by
  obtain ⟨here⟩ := list
  obtain ⟨there⟩ := other
  congr 1
  exact holds'.sorted.unique holds.sorted (holds'.perm.trans (perm.trans holds.perm.symm))

end Holds

theorem offered_holds (edits : List Edit) : (offered edits).Holds (Edit.taken edits) := by
  have from_ {list : EditList} {before : List Edit} (holds : list.Holds before) :
      (edits.foldl offer list).Holds (edits.foldl Edit.takeNext before) := by
    induction edits generalizing list before with
    | nil => exact holds
    | cons edit edits ih => exact ih (holds.offer edit)
  exact from_ ⟨.nil, .refl [], .nil⟩

/-- A text with edits made in it from left to right: between their texts stand the parts of the
source that lie between their spans, the first of which begins at an offset. -/
def forward? (source : Text) : Nat → List Edit → Option Text
  | o, [] => Text.slice? source ⟨o, Text.byteLength source⟩
  | o, edit :: rest => do
      let between ← Text.slice? source ⟨o, edit.span.start⟩
      let more ← forward? source edit.span.stop rest
      pure (between ++ (edit.text.toList ++ more))

end EditList

theorem Cut.forward? {o : Nat} {es : List Edit} {t t' : Text} (cut : Cut o es t t')
    (before : Text) (here : Text.byteLength before = o) :
    EditList.forward? (before ++ t) o es = some t' := by
  induction cut generalizing before with
  | @done o t =>
      have whole := Text.slice?_append before t []
      rw [List.append_nil, ← Text.byteLength_append] at whole
      rw [← here]
      exact whole
  | @edit o lead old new t t' es _ ih =>
      subst here
      have between := Text.slice?_append before lead (old ++ t)
      have more := ih (before ++ lead ++ old) (by simp [Nat.add_assoc])
      simp only [List.append_assoc] at more
      simp only [EditList.forward?, between, more, String.toList_ofList]
      rfl

/-- Edits that fit a text, each behind the one before it, cut it. -/
theorem exists_cut {es : List Edit} (sorted : EditList.Sorted es)
    (apart : es.Pairwise Edit.Compatible) (before t : Text)
    (fits : ∀ e ∈ es, e.Fits (before ++ t))
    (behind : ∀ e ∈ es, Text.byteLength before ≤ e.span.start) :
    ∃ t', Cut (Text.byteLength before) es t t' := by
  induction es generalizing before t with
  | nil => exact ⟨t, .done⟩
  | cons e es ih =>
      obtain ⟨first, sorted⟩ := List.pairwise_cons.1 sorted
      obtain ⟨one, apart⟩ := List.pairwise_cons.1 apart
      have here := fits e (.head es)
      -- The text behind `before` is a part that stays, the span of the edit, and what follows it.
      obtain ⟨x, y, split, start⟩ := Text.isBoundary_iff.1 here.start
      obtain ⟨x', y', split', stop⟩ := Text.isBoundary_iff.1 here.stop
      obtain ⟨lead, rfl, rfl⟩ := Text.append_eq_of_byteLength_le split
        (start ▸ behind e (.head es))
      obtain ⟨old, rfl, rfl⟩ := Text.append_eq_of_byteLength_le (split.symm.trans split')
        (start ▸ stop ▸ here.ordered)
      rw [Text.byteLength_append] at start
      rw [Text.byteLength_append, Text.byteLength_append] at stop
      have whole : before ++ (lead ++ (old ++ y')) = before ++ lead ++ old ++ y' := by
        simp only [List.append_assoc]
      obtain ⟨t', cut⟩ := ih sorted apart (before ++ lead ++ old) y'
        (fun f member => whole ▸ fits f (.tail e member)) (by
          intro f member
          have later := (Edit.compatible_iff_apart.1 (one f member)).2.1 (first f member)
          rw [Text.byteLength_append, Text.byteLength_append]
          omega)
      rw [Text.byteLength_append, Text.byteLength_append] at cut
      have edit := @Cut.edit _ lead old e.text.toList y' t' es cut
      rw [stop, start, String.ofList_toList] at edit
      exact ⟨_, edit⟩

namespace EditList

theorem forM_eq_ok {source : Text} {edits : List Edit}
    (checked : edits.forM (fun e => checkSpan source e.span) = .ok ()) :
    ∀ e ∈ edits, e.Fits source := by
  induction edits with
  | nil => exact fun _ member => nomatch member
  | cons e edits ih =>
      unfold List.forM at checked
      cases one : checkSpan source e.span with
      | error refusal =>
          rw [one] at checked
          cases checked
      | ok _ =>
          rw [one] at checked
          intro f member
          rcases List.mem_cons.1 member with rfl | member
          · exact Edit.checkSpan_eq_ok_iff.1 one
          · exact ih checked f member

variable {list : EditList} {edits : List Edit}

/-- A list is applied if all its edits fit, and to the effect of one splice. -/
theorem Holds.apply_eq_ok (holds : list.Holds edits) (source text : String) :
    list.apply source = .ok text ↔
      (∀ e ∈ list.edits, e.Fits source.toList) ∧
        forward? source.toList 0 list.edits = some text.toList := by
  constructor
  · intro applied
    have fits : ∀ e ∈ list.edits, e.Fits source.toList := by
      unfold apply at applied
      cases checked : list.edits.forM fun e => checkSpan source.toList e.span with
      | error refusal => simp [checked, bind, Except.bind] at applied
      | ok _ => exact forM_eq_ok checked
    obtain ⟨t', cut⟩ := exists_cut holds.sorted holds.apart [] source.toList fits (by simp)
    have same := cut.apply
    rw [String.ofList_toList] at same
    obtain rfl := Except.ok.inj (applied.symm.trans same)
    exact ⟨fits, by rw [String.toList_ofList]; exact cut.forward? [] rfl⟩
  · rintro ⟨fits, spliced⟩
    obtain ⟨t', cut⟩ := exists_cut holds.sorted holds.apart [] source.toList fits (by simp)
    obtain rfl : t' = text.toList := Option.some.inj ((cut.forward? [] rfl).symm.trans spliced)
    have same := cut.apply
    rw [String.ofList_toList, String.ofList_toList] at same
    exact same

theorem Holds.exists_apply (holds : list.Holds edits) (source : String) :
    (∃ text, list.apply source = .ok text) ↔ ∀ e ∈ list.edits, e.Fits source.toList := by
  constructor
  · rintro ⟨text, applied⟩
    exact ((holds.apply_eq_ok source text).1 applied).1
  · intro fits
    obtain ⟨t', cut⟩ := exists_cut holds.sorted holds.apart [] source.toList fits (by simp)
    have same := cut.apply
    rw [String.ofList_toList] at same
    exact ⟨_, same⟩

/-- Whatever additions were tried, the list holds the edits that stood apart from those before them,
in order of their offsets. One more is accepted exactly if it stands apart from these, and a refusal
changes nothing. Edits that stand apart from each other lead to one list, in any order. A list is
applied exactly if all spans can be cut out of the text, and then as one splice. -/
theorem offered_spec (edits : List Edit) :
    Sorted (offered edits).edits ∧ (offered edits).edits.Perm (Edit.taken edits) ∧
      (∀ edit, ((∃ next, (offered edits).add edit = .ok next) ↔
            ∀ e ∈ Edit.taken edits, e.Apart edit) ∧
          (∀ next, (offered edits).add edit = .ok next → offered (edits ++ [edit]) = next) ∧
          ∀ refusal, (offered edits).add edit = .error refusal →
            offered (edits ++ [edit]) = offered edits) ∧
      (edits.Pairwise Edit.Apart → Edit.taken edits = edits ∧
        ∀ others : List Edit, others.Perm edits → offered others = offered edits) ∧
      ∀ source, ((∃ text, (offered edits).apply source = .ok text) ↔
            ∀ e ∈ (offered edits).edits, e.Fits source.toList) ∧
          ∀ text, (offered edits).apply source = .ok text →
            forward? source.toList 0 (offered edits).edits = some text.toList := by
  have holds := offered_holds edits
  refine ⟨holds.sorted, holds.perm, ?_, ?_, ?_⟩
  · intro edit
    refine ⟨exists_add_eq_ok.trans ?_, ?_, ?_⟩
    · exact forall_congr' fun e => imp_congr_left holds.perm.mem_iff
    · intro next added
      rw [offered_append, offer_of_ok added]
    · intro refusal refused
      rw [offered_append, offer_of_error refused]
  · intro apart
    have whole := Edit.taken_eq_self apart
    refine ⟨whole, fun others perm => ?_⟩
    have symm {a b : Edit} (apart : a.Apart b) : b.Apart a :=
      Edit.compatible_iff_apart.1 (Edit.compatible_iff_apart.2 apart).symm
    have whole' := Edit.taken_eq_self ((perm.pairwise_iff symm).2 apart)
    refine holds.unique (offered_holds others) ?_
    rw [whole, whole']
    exact perm
  · intro source
    exact ⟨holds.exists_apply source, fun text applied =>
      ((holds.apply_eq_ok source text).1 applied).2⟩

end EditList

end SqlUnits
