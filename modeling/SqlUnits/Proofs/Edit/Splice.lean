import Mathlib.Order.Nat
import SqlUnits.Edit.Basic
import SqlUnits.Proofs.Text.Offset
/-!
Lists of edits as one change of a text. Edits that do not conflict can be added in any order, and
what they make of a text is put together from what they make of its parts.
-/

namespace SqlUnits

namespace Edit

theorem conflictsWith_comm (a b : Edit) : a.conflictsWith b = b.conflictsWith a := by
  unfold conflictsWith
  rcases Nat.lt_trichotomy a.span.start b.span.start with before | same | behind
  · simp [before, before.ne, before.ne', before.not_gt]
  · simp [same]
  · simp [behind, behind.ne, behind.ne', behind.not_gt]

/-- Edits that may stand in one list. -/
def Compatible (a b : Edit) : Prop :=
  a.conflictsWith b = false

theorem Compatible.symm {a b : Edit} (compatible : a.Compatible b) : b.Compatible a := by
  unfold Compatible
  rw [conflictsWith_comm]
  exact compatible

theorem Compatible.start_ne {a b : Edit} (compatible : a.Compatible b) :
    a.span.start ≠ b.span.start := by
  intro same
  simp [Compatible, conflictsWith, same] at compatible

theorem compatible_of_lt {a b : Edit} (before : a.span.start < b.span.start)
    (apart : a.span.stop ≤ b.span.start) : a.Compatible b := by
  simp [Compatible, conflictsWith, before.ne, before, apart]

end Edit

namespace EditList

/-- The edits are in order of their offsets, which all differ. -/
def Sorted (edits : List Edit) : Prop :=
  edits.Pairwise fun a b => a.span.start < b.span.start

theorem Sorted.nil : Sorted [] :=
  List.Pairwise.nil

theorem insertSorted_perm (edit : Edit) (edits : List Edit) :
    (insertSorted edit edits).Perm (edit :: edits) := by
  induction edits with
  | nil => exact .refl _
  | cons e rest ih =>
      unfold insertSorted
      split
      · exact (ih.cons e).trans (.swap edit e rest)
      · exact .refl _

theorem Sorted.insertSorted {edit : Edit} {edits : List Edit} (sorted : Sorted edits)
    (fresh : ∀ e ∈ edits, e.span.start ≠ edit.span.start) :
    Sorted (insertSorted edit edits) := by
  induction edits with
  | nil => exact List.pairwise_singleton _ _
  | cons e rest ih =>
      obtain ⟨first, sorted'⟩ := List.pairwise_cons.1 sorted
      unfold EditList.insertSorted
      split
      · rename_i before
        refine List.pairwise_cons.2 ⟨?_, ih sorted' fun x member => fresh x (.tail e member)⟩
        intro x member
        rcases List.mem_cons.1 ((insertSorted_perm edit rest).mem_iff.1 member) with rfl | member
        · exact before
        · exact first x member
      · rename_i noBefore
        have here : edit.span.start < e.span.start :=
          Nat.lt_of_le_of_ne (Nat.le_of_not_lt noBefore) (fresh e (.head rest)).symm
        refine List.pairwise_cons.2 ⟨?_, sorted⟩
        intro x member
        rcases List.mem_cons.1 member with rfl | member
        · exact here
        · exact here.trans (first x member)

theorem Sorted.unique {edits others : List Edit} (sorted : Sorted edits)
    (sorted' : Sorted others) (perm : edits.Perm others) : edits = others := by
  refine perm.eq_of_pairwise ?_ sorted sorted'
  intro a b _ _ before behind
  exact absurd before behind.asymm

theorem add_eq_ok {list : EditList} {edit : Edit}
    (compatible : ∀ e ∈ list.edits, e.Compatible edit) :
    list.add edit = .ok ⟨insertSorted edit list.edits⟩ := by
  have none : list.edits.find? (·.conflictsWith edit) = none := by
    rw [List.find?_eq_none]
    exact fun e member => ne_true_of_eq_false (compatible e member)
  unfold add
  rw [none]

/-- Compatible edits are never refused, and end up in order. -/
theorem foldlM_add {edits more : List Edit} (sorted : Sorted edits)
    (compatible : (edits ++ more).Pairwise Edit.Compatible) :
    ∃ all, more.foldlM add ⟨edits⟩ = .ok ⟨all⟩ ∧ all.Perm (edits ++ more) ∧ Sorted all := by
  induction more generalizing edits with
  | nil => exact ⟨edits, rfl, by rw [List.append_nil], sorted⟩
  | cons edit more ih =>
      have apart (e : Edit) (member : e ∈ edits) : e.Compatible edit :=
        (List.pairwise_append.1 compatible).2.2 e member edit (.head more)
      have perm : (insertSorted edit edits ++ more).Perm (edits ++ edit :: more) :=
        ((insertSorted_perm edit edits).append_right more).trans List.perm_middle.symm
      obtain ⟨all, added, whole, sorted⟩ := ih
        (sorted.insertSorted fun e member => (apart e member).start_ne)
        ((perm.pairwise_iff Edit.Compatible.symm).2 compatible)
      refine ⟨all, ?_, whole.trans perm, sorted⟩
      rw [List.foldlM_cons, add_eq_ok apart]
      exact added

theorem extend_eq (list other : EditList) : list.extend other = other.edits.foldlM add list := by
  obtain ⟨edits⟩ := other
  unfold extend
  dsimp only
  induction edits generalizing list with
  | nil => rfl
  | cons edit rest ih =>
      rw [List.foldlM_cons]
      unfold addAll
      cases list.add edit with
      | error e => rfl
      | ok list => exact ih list

theorem add_perm {list next : EditList} {edit : Edit} (added : list.add edit = .ok next) :
    next.edits.Perm (edit :: list.edits) ∧ ∀ e ∈ list.edits, e.Compatible edit := by
  unfold add at added
  cases found : list.edits.find? (·.conflictsWith edit) with
  | some e => simp [found] at added
  | none =>
      simp only [found, Except.ok.injEq] at added
      subst added
      refine ⟨insertSorted_perm edit list.edits, fun e member => ?_⟩
      exact Bool.eq_false_iff.2 (List.find?_eq_none.1 found e member)

theorem foldlM_append_eq_ok {edits more : List Edit} {list last : EditList} :
    (edits ++ more).foldlM add list = .ok last ↔
      ∃ next, edits.foldlM add list = .ok next ∧ more.foldlM add next = .ok last := by
  rw [List.foldlM_append]
  cases edits.foldlM add list with
  | error e => simp [bind, Except.bind]
  | ok next => simp [bind, Except.bind]

/-- A list to which edits have been added. -/
def Extends (list next : EditList) : Prop :=
  ∃ edits : List Edit, edits.foldlM add list = .ok next

namespace Extends

theorem refl (list : EditList) : list.Extends list :=
  ⟨[], rfl⟩

theorem trans {list next last : EditList} (first : list.Extends next)
    (second : next.Extends last) : list.Extends last := by
  obtain ⟨edits, added⟩ := first
  obtain ⟨more, added'⟩ := second
  exact ⟨edits ++ more, foldlM_append_eq_ok.2 ⟨next, added, added'⟩⟩

theorem gathered {list next : EditList} (extended : list.Extends next) :
    (∀ e ∈ list.edits, e ∈ next.edits) ∧
      (list.edits.Pairwise Edit.Compatible → next.edits.Pairwise Edit.Compatible) := by
  obtain ⟨edits, added⟩ := extended
  induction edits generalizing list with
  | nil =>
      cases added
      exact ⟨fun _ member => member, id⟩
  | cons edit edits ih =>
      rw [List.foldlM_cons] at added
      cases one : list.add edit with
      | error e => simp [one, bind, Except.bind] at added
      | ok middle =>
          rw [one] at added
          obtain ⟨kept, compatible⟩ := ih added
          obtain ⟨perm, apart⟩ := add_perm one
          refine ⟨fun e member => kept e (perm.mem_iff.2 (.tail edit member)), fun before => ?_⟩
          refine compatible ((perm.pairwise_iff Edit.Compatible.symm).2 ?_)
          exact List.pairwise_cons.2 ⟨fun e member => (apart e member).symm, before⟩

end Extends

theorem apply_empty (source : String) : EditList.apply {} source = .ok source := by
  have kept : EditList.apply {} source = .ok (String.ofList source.toList) := rfl
  rw [kept, String.ofList_toList]

end EditList

/-- What edits in order make of a text that begins at an offset: each takes a part of the text away,
behind the one before it, and puts its own text there. -/
inductive Cut : Nat → List Edit → Text → Text → Prop
  | done {o : Nat} {t : Text} : Cut o [] t t
  | edit {o : Nat} {before old new t t' : Text} {es : List Edit} :
      Cut (o + Text.byteLength before + Text.byteLength old) es t t' →
      Cut o
        (⟨⟨o + Text.byteLength before, o + Text.byteLength before + Text.byteLength old⟩,
          String.ofList new⟩ :: es)
        (before ++ (old ++ t)) (before ++ (new ++ t'))

namespace Cut

variable {o : Nat} {es : List Edit} {t t' : Text}

theorem checkSpan_eq_ok (before old after : Text) :
    EditList.checkSpan (before ++ (old ++ after))
      ⟨Text.byteLength before, Text.byteLength before + Text.byteLength old⟩ = .ok () := by
  have start := Text.isBoundary_append before (old ++ after)
  have stop := Text.isBoundary_append (before ++ old) after
  rw [List.append_assoc, Text.byteLength_append] at stop
  unfold EditList.checkSpan
  simp only [start, stop, Text.byteLength_append]
  simp

theorem replaceSpan_eq (before old after new : Text) :
    EditList.replaceSpan
      ⟨Text.byteLength before, Text.byteLength before + Text.byteLength old⟩ new
      (before ++ (old ++ after)) = before ++ (new ++ after) := by
  have start := Text.splitAtByte?_append before (old ++ after)
  have stop := Text.splitAtByte?_append (before ++ old) after
  rw [List.append_assoc, Text.byteLength_append] at stop
  simp only [EditList.replaceSpan, start, stop, List.append_assoc]

/-- An edit behind a text that stays. -/
theorem behind (x : Text) (cut : Cut (o + Text.byteLength x) es t t') :
    Cut o es (x ++ t) (x ++ t') := by
  cases cut with
  | done => exact .done
  | @edit _ before old new t t' es rest =>
      have whole : o + Text.byteLength x + Text.byteLength before =
          o + Text.byteLength (x ++ before) := by
        rw [Text.byteLength_append, Nat.add_assoc]
      rw [whole] at rest ⊢
      rw [← List.append_assoc x, ← List.append_assoc x]
      exact .edit rest

theorem forM_checkSpan (cut : Cut o es t t') (before : Text) (here : Text.byteLength before = o) :
    es.forM (fun e => EditList.checkSpan (before ++ t) e.span) = .ok () := by
  induction cut generalizing before with
  | done => rfl
  | @edit o lead old new t t' es rest ih =>
      subst here
      have first := checkSpan_eq_ok (before ++ lead) old t
      have others := ih (before ++ lead ++ old) (by simp [Nat.add_assoc])
      simp only [List.append_assoc, Text.byteLength_append] at first others
      unfold List.forM
      rw [first]
      exact others

theorem foldr_replaceSpan (cut : Cut o es t t') (before : Text)
    (here : Text.byteLength before = o) :
    es.foldr (fun e text => EditList.replaceSpan e.span e.text.toList text) (before ++ t) =
      before ++ t' := by
  induction cut generalizing before with
  | done => rfl
  | @edit o lead old new t t' es rest ih =>
      subst here
      have others := ih (before ++ lead ++ old) (by simp [Nat.add_assoc])
      have last := replaceSpan_eq (before ++ lead) old t' new
      simp only [List.append_assoc, Text.byteLength_append] at others last
      rw [List.foldr_cons, others, String.toList_ofList]
      exact last

/-- From the last edit to the first, each one finds its span as it was. -/
theorem apply (cut : Cut 0 es t t') :
    EditList.apply ⟨es⟩ (String.ofList t) = .ok (String.ofList t') := by
  have checked := cut.forM_checkSpan [] rfl
  have replaced := cut.foldr_replaceSpan [] rfl
  rw [List.nil_append] at checked replaced
  unfold EditList.apply
  simp only [String.toList_ofList, checked, replaced]
  rfl

end Cut

/-- What sorted edits make of a text that begins at an offset. Each edit has something before it,
back to the one before. -/
inductive Spliced : Nat → List Edit → Text → Text → Prop
  | done {o : Nat} {t : Text} : Spliced o [] t t
  | edit {o : Nat} {before old new t t' : Text} {es : List Edit} : before ≠ [] →
      Spliced (o + Text.byteLength before + Text.byteLength old) es t t' →
      Spliced o
        (⟨⟨o + Text.byteLength before, o + Text.byteLength before + Text.byteLength old⟩,
          String.ofList new⟩ :: es)
        (before ++ (old ++ t)) (before ++ (new ++ t'))

namespace Spliced

variable {o : Nat} {es fs : List Edit} {t t' u u' : Text}

theorem behind (x : Text) (spliced : Spliced (o + Text.byteLength x) es t t') :
    Spliced o es (x ++ t) (x ++ t') := by
  cases spliced with
  | done => exact .done
  | @edit _ before old new t t' es some rest =>
      have whole : o + Text.byteLength x + Text.byteLength before =
          o + Text.byteLength (x ++ before) := by
        rw [Text.byteLength_append, Nat.add_assoc]
      rw [whole] at rest ⊢
      rw [← List.append_assoc x, ← List.append_assoc x]
      exact .edit (by simp [some]) rest

theorem append (first : Spliced o es t t') (second : Spliced (o + Text.byteLength t) fs u u') :
    Spliced o (es ++ fs) (t ++ u) (t' ++ u') := by
  induction first with
  | done => exact second.behind _
  | @edit o before old new t t' es some rest ih =>
      simp only [List.append_assoc, List.cons_append]
      refine .edit some (ih ?_)
      simpa only [Text.byteLength_append, Nat.add_assoc] using second

/-- Text inserted behind a text that is not empty. -/
theorem insertion {before : Text} (some : before ≠ []) (new after : Text) :
    Spliced o [.insertion (o + Text.byteLength before) (String.ofList new)] (before ++ after)
      (before ++ (new ++ after)) := by
  have spliced : Spliced o _ (before ++ ([] ++ after)) (before ++ (new ++ after)) :=
    .edit some .done
  exact spliced

theorem start_gt (spliced : Spliced o es t t') : ∀ e ∈ es, o < e.span.start := by
  induction spliced with
  | done => exact fun _ member => nomatch member
  | @edit o before old new t t' es some rest ih =>
      have positive : 0 < Text.byteLength before := by
        cases before with
        | nil => exact absurd rfl some
        | cons c before =>
            have size := c.utf8Size_pos
            rw [Text.byteLength_cons]
            omega
      intro e member
      rcases List.mem_cons.1 member with rfl | member
      · show o < o + Text.byteLength before
        omega
      · have later := ih e member
        omega

theorem sorted (spliced : Spliced o es t t') : EditList.Sorted es := by
  induction spliced with
  | done => exact .nil
  | edit _ rest ih =>
      refine List.pairwise_cons.2 ⟨fun e member => ?_, ih⟩
      have later := rest.start_gt e member
      dsimp only
      omega

theorem compatible (spliced : Spliced o es t t') : es.Pairwise Edit.Compatible := by
  induction spliced with
  | done => exact .nil
  | edit _ rest ih =>
      refine List.pairwise_cons.2 ⟨fun e member => ?_, ih⟩
      have later := rest.start_gt e member
      exact Edit.compatible_of_lt (by dsimp only; omega) (by dsimp only; omega)

theorem cut (spliced : Spliced o es t t') : Cut o es t t' := by
  induction spliced with
  | done => exact .done
  | edit _ _ ih => exact .edit ih

/-- The edits may be gathered in two lists, each in any order. -/
theorem extend_apply {fs gs : List Edit} (spliced : Spliced 0 es t t')
    (perm : (fs ++ gs).Perm es) :
    ∃ first second all, fs.foldlM EditList.add {} = .ok first ∧
      gs.foldlM EditList.add {} = .ok second ∧ first.extend second = .ok all ∧
      all.apply (String.ofList t) = .ok (String.ofList t') := by
  have compatible := (perm.pairwise_iff Edit.Compatible.symm).2 spliced.compatible
  obtain ⟨left, right, _⟩ := List.pairwise_append.1 compatible
  obtain ⟨first, added, whole, sorted⟩ := EditList.foldlM_add EditList.Sorted.nil left
  obtain ⟨second, added', whole', _⟩ := EditList.foldlM_add EditList.Sorted.nil right
  have together : (first ++ second).Perm (fs ++ gs) := whole.append whole'
  obtain ⟨all, extended, perm', sorted'⟩ := EditList.foldlM_add sorted
    ((together.pairwise_iff Edit.Compatible.symm).2 compatible)
  obtain rfl := sorted'.unique spliced.sorted ((perm'.trans together).trans perm)
  exact ⟨⟨first⟩, ⟨second⟩, ⟨all⟩, added, added', (EditList.extend_eq _ _).trans extended,
    spliced.cut.apply⟩

end Spliced

end SqlUnits
