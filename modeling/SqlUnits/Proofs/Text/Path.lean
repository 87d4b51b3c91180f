import Mathlib.Data.List.Basic
import SqlUnits.Text.Path
/-!
The last part of a path, and its extension.
-/

namespace SqlUnits.Path

/-- The path ends with a character that no step or separator ends with. -/
def EndsWith (path : String) (c : Char) : Prop :=
  path.toList.getLast? = some c ∧ c ≠ '/' ∧ c ≠ '.'

theorem splitSlashes_slash (part rest : Text) :
    splitSlashes part ('/' :: rest) = part.reverse :: splitSlashes [] rest :=
  rfl

theorem splitSlashes_other {c : Char} (other : c ≠ '/') (part rest : Text) :
    splitSlashes part (c :: rest) = splitSlashes (c :: part) rest := by
  rw [splitSlashes]
  exact other

theorem splitSlashes_last {cs : Text} {c : Char} (ends : cs.getLast? = some c) (other : c ≠ '/')
    (part : Text) :
    ∃ before last, splitSlashes part cs = before ++ [last] ∧ last.getLast? = some c := by
  induction cs generalizing part with
  | nil => cases ends
  | cons d cs ih =>
      cases cs with
      | nil =>
          obtain rfl : d = c := by simpa using ends
          refine ⟨[], (d :: part).reverse, ?_, by simp⟩
          unfold splitSlashes
          split
          · contradiction
          · next same =>
            cases same
            contradiction
          · next same =>
            cases same
            rfl
      | cons e cs =>
          rw [List.getLast?_cons_cons] at ends
          by_cases slash : d = '/'
          · subst slash
            obtain ⟨before, last, shape, ends⟩ := ih ends []
            refine ⟨part.reverse :: before, last, ?_, ends⟩
            rw [splitSlashes_slash, shape, List.cons_append]
          · rw [splitSlashes_other slash]
            exact ih ends _

variable {path : String} {c : Char}

theorem parts_last (ends : EndsWith path c) :
    ∃ before last, parts path = before ++ [last] ∧ EndsWith last c := by
  obtain ⟨ends, slash, point⟩ := ends
  obtain ⟨before, last, shape, lastEnds⟩ := splitSlashes_last ends slash []
  have named : (String.ofList last != "" && String.ofList last != ".") = true := by
    simp only [Bool.and_eq_true, bne_iff_ne]
    constructor
    · intro none_
      have none_ := congrArg String.toList none_
      rw [String.toList_ofList] at none_
      rw [none_] at lastEnds
      cases lastEnds
    · intro here
      have here := congrArg String.toList here
      rw [String.toList_ofList] at here
      rw [here] at lastEnds
      exact point (Option.some.inj lastEnds).symm
  refine ⟨(before.map String.ofList).filter fun p => p != "" && p != ".", String.ofList last, ?_,
    ⟨by rwa [String.toList_ofList], slash, point⟩⟩
  unfold parts
  rw [shape, List.map_append, List.filter_append]
  simp only [List.map_cons, List.map_nil, List.filter_cons, named, if_true, List.filter_nil]

/-- An extension ends as its path does. -/
theorem extension?_last {extension : String} (ends : EndsWith path c)
    (found : extension? path = some extension) : extension.toList.getLast? = some c := by
  obtain ⟨before, last, shape, lastEnds, _, point⟩ := parts_last ends
  unfold extension? at found
  rw [shape, List.getLast?_concat] at found
  simp only [bind, Option.bind] at found
  split at found
  · cases found
  · cases found
    obtain ⟨start, text⟩ := List.getLast?_eq_some_iff.1 lastEnds
    have first : (c != '.') = true := bne_iff_ne.2 point
    rw [String.toList_ofList, text, List.reverse_append, List.reverse_singleton,
      List.singleton_append, List.takeWhile_cons, first]
    simp

theorem EndsWith.append {text : String} (ends : EndsWith text c) (start : String) :
    EndsWith (start ++ text) c := by
  refine ⟨?_, ends.2⟩
  rw [String.toList_append, List.getLast?_append, ends.1, Option.some_or]

theorem EndsWith.join (ends : EndsWith path c) (base : String) : EndsWith (join base path) c := by
  unfold Path.join
  split
  · exact ends
  · split
    · exact ends.append base
    · exact ends.append (base ++ "/")

/-! Paths that are joined. -/

theorem splitSlashes_append (part cs ds : Text) :
    splitSlashes part (cs ++ '/' :: ds) = splitSlashes part cs ++ splitSlashes [] ds := by
  induction cs generalizing part with
  | nil => rfl
  | cons c cs ih =>
      rw [List.cons_append]
      by_cases slash : c = '/'
      · subst slash
        rw [splitSlashes_slash, splitSlashes_slash, ih, List.cons_append]
      · rw [splitSlashes_other slash, splitSlashes_other slash, ih]

theorem parts_append {start : Text} {base path : String}
    (ends : base.toList = start ++ ['/']) :
    parts (base ++ path) = parts (String.ofList start) ++ parts path := by
  have whole : (base ++ path).toList = start ++ '/' :: path.toList := by
    rw [String.toList_append, ends, List.append_assoc]
    rfl
  unfold parts
  rw [whole, splitSlashes_append, String.toList_ofList, List.map_append, List.filter_append]

/-- The parts of a path are the last ones of every path that it is joined to. -/
theorem parts_join (base path : String) :
    ∃ before, parts (join base path) = before ++ parts path := by
  unfold join
  split
  · exact ⟨[], rfl⟩
  · split
    · next ends =>
      obtain ⟨start, whole⟩ := List.getLast?_eq_some_iff.1 (beq_iff_eq.1 ends)
      exact ⟨_, parts_append whole⟩
    · exact ⟨_, parts_append String.toList_append⟩

theorem splitSlashes_of_noSlash {cs : Text} (noSlash : '/' ∉ cs) (part : Text) :
    splitSlashes part cs = [part.reverse ++ cs] := by
  induction cs generalizing part with
  | nil =>
      rw [List.append_nil]
      rfl
  | cons c cs ih =>
      rw [List.mem_cons, not_or] at noSlash
      rw [splitSlashes_other (Ne.symm noSlash.1), ih noSlash.2, List.reverse_cons,
        List.append_assoc]
      rfl

theorem noSlash_of_mem_splitSlashes {part cs piece : Text} (before : '/' ∉ part)
    (member : piece ∈ splitSlashes part cs) : '/' ∉ piece := by
  induction cs generalizing part with
  | nil =>
      obtain rfl := List.mem_singleton.1 member
      rwa [List.mem_reverse]
  | cons c cs ih =>
      by_cases slash : c = '/'
      · subst slash
        rcases List.mem_cons.1 member with rfl | later
        · rwa [List.mem_reverse]
        · exact ih List.not_mem_nil later
      · rw [splitSlashes_other slash] at member
        refine ih (fun inside => ?_) member
        exact (List.mem_cons.1 inside).elim (fun same => slash same.symm) before

/-- A name is its only part. -/
theorem parts_name {name : String} (noSlash : '/' ∉ name.toList) (ends : EndsWith name c) :
    parts name = [name] := by
  obtain ⟨ends, _, point⟩ := ends
  have some_ : name ≠ "" := by
    rintro rfl
    cases ends
  have step : name ≠ "." := by
    rintro rfl
    exact point (Option.some.inj ends).symm
  have named : (name != "" && name != ".") = true := by simp [some_, step]
  unfold parts
  rw [splitSlashes_of_noSlash noSlash, List.reverse_nil, List.nil_append, List.map_singleton,
    String.ofList_toList, List.filter_singleton, named, cond_true]

/-- A part of a path has no other part. -/
theorem parts_of_mem {part : String} (member : part ∈ parts path) : parts part = [part] := by
  obtain ⟨inside, named⟩ := List.mem_filter.1 member
  obtain ⟨piece, among, rfl⟩ := List.mem_map.1 inside
  have noSlash := noSlash_of_mem_splitSlashes List.not_mem_nil among
  unfold parts
  rw [String.toList_ofList, splitSlashes_of_noSlash noSlash, List.reverse_nil, List.nil_append,
    List.map_singleton, List.filter_singleton, named, cond_true]

/-- Paths with one last part have one extension. -/
theorem extension?_congr {other : String} (same : (parts path).getLast? = (parts other).getLast?) :
    extension? path = extension? other := by
  unfold extension?
  rw [same]

/-- What follows the point behind a name is its extension. -/
theorem extension?_append {name extension : String} (noSlash : '/' ∉ name.toList) (named : name ≠ "")
    (ends : EndsWith extension c) (plain : ∀ d ∈ extension.toList, d ≠ '/' ∧ d ≠ '.') :
    extension? (name ++ "." ++ extension) = some extension := by
  have whole : (name ++ "." ++ extension).toList = name.toList ++ '.' :: extension.toList := by
    simp
  have one : parts (name ++ "." ++ extension) = [name ++ "." ++ extension] := by
    refine parts_name ?_ (ends.append _)
    rw [whole, List.mem_append, List.mem_cons, not_or, not_or]
    exact ⟨noSlash, by decide, fun inside => (plain _ inside).1 rfl⟩
  have ending : (name ++ "." ++ extension).toList.reverse.takeWhile (· != '.') =
      extension.toList.reverse := by
    have all : ∀ d ∈ extension.toList.reverse, (d != '.') = true := fun d inside =>
      bne_iff_ne.2 (plain d (List.mem_reverse.1 inside)).2
    rw [whole, List.reverse_append, List.reverse_cons, List.append_assoc,
      List.takeWhile_append_of_pos all]
    simp
  have long : 0 < name.toList.length := List.length_pos_iff.2 (by simpa using named)
  have short : ¬(extension.toList.reverse.length + 1 ≥
      (name ++ "." ++ extension).toList.reverse.length) := by
    rw [whole]
    simp only [List.length_reverse, List.length_append, List.length_cons]
    omega
  have up : (name ++ "." ++ extension == "..") = false := by
    rw [beq_eq_false_iff_ne]
    intro same
    have last := (ends.append (name ++ ".")).1
    rw [same] at last
    exact ends.2.2 (Option.some.inj last).symm
  unfold extension?
  rw [one]
  simp only [List.getLast?_singleton, bind, Option.bind, ending, up, Bool.false_or, short,
    decide_false, Bool.false_eq_true, if_false]
  rw [List.reverse_reverse, String.ofList_toList]
  rfl

theorem extension?_join {extension : String} (known : extension? path = some extension)
    (base : String) : extension? (join base path) = some extension := by
  obtain ⟨before, whole⟩ := parts_join base path
  rw [← known]
  refine extension?_congr ?_
  cases found : (parts path).getLast? with
  | none =>
      rw [extension?, found] at known
      cases known
  | some last => rw [whole, List.getLast?_append, found, Option.some_or]

end SqlUnits.Path
