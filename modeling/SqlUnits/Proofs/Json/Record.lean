import SqlUnits.Proofs.Json.Writing
/-!
What the readers of records make of the tree of an object: every member is found under its name.
-/

namespace SqlUnits

namespace Json

/-- Members that are left out leave the others under their names. -/
theorem lookup_objSome {members : List (String × Option Json)}
    (distinct : (members.map (·.1)).Nodup) (name : String) :
    (members.filterMap fun (name, value?) => value?.map (name, ·)).lookup name =
      (members.lookup name).join := by
  induction members with
  | nil => rfl
  | cons m rest ih =>
      obtain ⟨first, value?⟩ := m
      obtain ⟨apart, distinct⟩ := List.nodup_cons.1 distinct
      have ih := ih distinct
      rw [List.lookup_cons]
      by_cases here : name = first
      · subst here
        have none_ : rest.lookup name = none := by
          rw [List.lookup_eq_none_iff]
          intro p member
          exact bne_iff_ne.2 fun same => apart (List.mem_map.2 ⟨p, member, same.symm⟩)
        rw [none_] at ih
        cases value? with
        | none => simpa using ih
        | some j => simp
      · have there : (name == first) = false := beq_eq_false_iff_ne.2 here
        cases value? with
        | none => simpa [there] using ih
        | some j => simpa [List.lookup_cons, there] using ih

theorem objSome_names {members : List (String × Option Json)}
    (distinct : (members.map (·.1)).Nodup) :
    ((members.filterMap fun (name, value?) => value?.map (name, ·)).map (·.1)).Nodup := by
  refine distinct.sublist ?_
  clear distinct
  induction members with
  | nil => exact .slnil
  | cons m rest ih =>
      obtain ⟨first, value?⟩ := m
      cases value? with
      | none => exact ih.cons first
      | some j => exact ih.cons_cons first

end Json

namespace JsonTree

namespace Members

/-- The members that an object has are found, and no others. -/
structure Holds (m : Members) (members : List (String × Json)) : Prop where
  close : ∃ stop, m.close = .ok stop
  present : ∀ {name j}, members.lookup name = some j → ∃ t, m.find? name = some t ∧ t.Spells j
  absent : ∀ {name}, members.lookup name = none → m.find? name = none

variable {m : Members} {members : List (String × Json)} {name : String} {j : Json}
  {read : JsonTree → JsonRead α} {a default : α}

theorem Holds.required (holds : m.Holds members) (found : members.lookup name = some j)
    (reads : ∀ t : JsonTree, t.Spells j → read t = .ok a) : m.required name read = .ok a := by
  obtain ⟨t, there, spells⟩ := holds.present found
  unfold Members.required
  rw [there]
  exact reads t spells

theorem Holds.orElse (holds : m.Holds members) (found : members.lookup name = some j)
    (reads : ∀ t : JsonTree, t.Spells j → read t = .ok a) :
    m.orElse name read default = .ok a := by
  obtain ⟨t, there, spells⟩ := holds.present found
  unfold Members.orElse
  rw [there]
  exact reads t spells

/-- A member that is left out if it has no value, and is never null. -/
theorem Holds.optional (holds : m.Holds members) {value : Option α} {write : α → Json}
    (found : members.lookup name = value.map write) (solid : ∀ a ∈ value, write a ≠ .null)
    (reads : ∀ a ∈ value, ∀ t : JsonTree, t.Spells (write a) → read t = .ok a) :
    m.optional name read = .ok value := by
  cases value with
  | none =>
      unfold Members.optional Members.orElse
      rw [holds.absent found]
  | some a =>
      refine holds.orElse found fun t spells => ?_
      have reads := reads a rfl t spells
      have solid := solid a rfl
      generalize write a = j at spells solid
      have same : JsonTree.optional read t = (some <$> read t : JsonRead (Option α)) := by
        unfold JsonTree.optional
        split
        · cases spells
          exact (solid rfl).elim
        · rfl
      rw [same, reads]
      rfl

theorem repeated?_eq_none (names : List String) {seen : List String}
    {trees : List (JsonKey × JsonTree)} (distinct : (trees.map (·.1.name)).Nodup)
    (fresh : ∀ t ∈ trees, t.1.name ∉ seen) : repeated? names seen trees = none := by
  induction trees generalizing seen with
  | nil => rfl
  | cons t rest ih =>
      obtain ⟨other, distinct⟩ := List.nodup_cons.1 distinct
      obtain ⟨first, fresh⟩ := List.forall_mem_cons.1 fresh
      have unseen : seen.contains t.1.name = false := by simpa using first
      rw [repeated?, unseen, Bool.false_and]
      refine ih distinct fun next member => ?_
      rw [List.mem_cons, not_or]
      exact ⟨fun same => other (List.mem_map.2 ⟨next, member, same⟩), fresh next member⟩

theorem find?_spells {trees : List (JsonKey × JsonTree)}
    (names : trees.map (·.1.name) = members.map (·.1))
    (values : List.Forall₂ Spells (members.map (·.2)) (trees.map (·.2))) (name : String) :
    (∀ j, members.lookup name = some j →
        ∃ t, (trees.find? (·.1.name == name)).map (·.2) = some t ∧ t.Spells j) ∧
      (members.lookup name = none → (trees.find? (·.1.name == name)).map (·.2) = none) := by
  induction members generalizing trees with
  | nil =>
      obtain rfl := List.map_eq_nil_iff.1 names
      exact ⟨fun _ found => (Option.some_ne_none _ found.symm).elim, fun _ => rfl⟩
  | cons m members ih =>
      obtain ⟨t, trees, rfl, same, names⟩ := List.map_eq_cons_iff.1 names
      obtain ⟨spells, values⟩ := List.forall₂_cons.1 values
      rw [List.lookup_cons, List.find?_cons, same]
      by_cases here : name = m.1
      · subst here
        simp only [beq_self_eq_true]
        exact ⟨fun j found => ⟨t.2, rfl, Option.some.inj found ▸ spells⟩, nofun⟩
      · have there : (name == m.1) = false := beq_eq_false_iff_ne.2 here
        have other : (m.1 == name) = false := beq_eq_false_iff_ne.2 fun same => here same.symm
        simp only [there, other]
        exact ih names values

end Members

variable {t : JsonTree} {members : List (String × Json)} {a : α}

theorem eq_ok_of_seqLeft {x : JsonRead α} {y : JsonRead β} (whole : x <* y = .ok a) :
    x = .ok a := by
  cases x with
  | error d => cases y <;> cases whole
  | ok b =>
      cases y with
      | error e => cases whole
      | ok _ =>
          cases whole
          rfl

theorem record_eq_ok {title : String} {names : List String} {read : Members → JsonRead α}
    (whole : t.record title names read = .ok a) : ∃ m, read m = .ok a := by
  cases t with
  | arr | obj => exact ⟨_, eq_ok_of_seqLeft whole⟩
  | leaf | marred | broken => cases whole

/-- A record is read from an object whose members have different names. -/
theorem Spells.record (spells : t.Spells (.obj members)) (distinct : (members.map (·.1)).Nodup)
    {title : String} {names : List String} {read : Members → JsonRead α}
    (reads : ∀ m : Members, m.Holds members → read m = .ok a) :
    t.record title names read = .ok a := by
  cases spells with
  | leaf plain => cases plain
  | @obj members trees start stop keys values =>
      have close : (Members.ofMembers names trees (.ok stop)).close = .ok stop := by
        have none_ : Members.repeated? names [] trees = none :=
          Members.repeated?_eq_none names (keys ▸ distinct) fun _ _ => List.not_mem_nil
        simp only [Members.ofMembers, none_]
      have holds : (Members.ofMembers names trees (.ok stop)).Holds members :=
        ⟨⟨stop, close⟩, fun {name j} found => (Members.find?_spells keys values name).1 j found,
          fun {name} none_ => (Members.find?_spells keys values name).2 none_⟩
      have whole := reads _ holds
      show (read (Members.ofMembers names trees (.ok stop)) <*
        (Members.ofMembers names trees (.ok stop)).close : JsonRead α) = _
      rw [whole, close]
      rfl

theorem Spells.string {s : String} (spells : t.Spells (.str s)) : t.string = .ok s := by
  cases spells
  rfl

theorem Spells.bool {b : Bool} (spells : t.Spells (.bool b)) : t.bool = .ok b := by
  cases spells
  rfl

theorem Spells.count {n : Nat} (spells : t.Spells (.nat n)) (small : n < twoPow 64) :
    t.count = .ok n := by
  cases spells
  have bounds : (0 : Int) ≤ n ∧ (n : Int) < twoPow 64 :=
    ⟨Int.natCast_nonneg n, Int.ofNat_lt.2 small⟩
  unfold JsonTree.count Json.nat
  dsimp only
  rw [if_pos bounds, Int.toNat_natCast]

theorem Spells.choice {names : List String} {ofName? : String → Option α} {name : String}
    (spells : t.Spells (.str name)) (known : ofName? name = some a) :
    t.choice names ofName? = .ok a := by
  cases spells
  show JsonTree.named names ofName? name _ = _
  unfold JsonTree.named
  rw [known]

/-- The items of a list are read in order. -/
theorem Spells.list {read : JsonTree → JsonRead α} {items : List Json} {values : List α}
    (spells : t.Spells (.arr items))
    (reads : List.Forall₂ (fun j a => ∀ t : JsonTree, t.Spells j → read t = .ok a) items values) :
    t.list read = .ok values := by
  cases spells with
  | leaf plain => cases plain
  | @arr items trees start stop spelled =>
      have all : JsonRead.all (trees.map read) = .ok values := by
        induction reads generalizing trees with
        | nil =>
            cases spelled
            rfl
        | cons first _ ih =>
            obtain ⟨tree, trees, spells, others, rfl⟩ := List.forall₂_cons_left_iff.1 spelled
            rw [List.map_cons, JsonRead.all, ih others, first tree spells]
            rfl
      show (JsonRead.all _ <* (.ok stop : JsonRead Nat) : JsonRead _) = _
      rw [all]
      rfl

/-- The entries of a dictionary are read in order. -/
theorem Spells.dictionary {read : JsonTree → JsonRead α} {entries : List (String × α)}
    (spells : t.Spells (.obj members))
    (reads : List.Forall₂ (fun m e => e.1 = m.1 ∧ ∀ t : JsonTree, t.Spells m.2 → read t = .ok e.2)
      members entries) : t.dictionary read = .ok entries := by
  cases spells with
  | leaf plain => cases plain
  | @obj members trees start stop keys values =>
      have all : JsonRead.all (trees.map fun m => (m.1.name, ·) <$> read m.2) = .ok entries := by
        induction reads generalizing trees with
        | nil =>
            obtain rfl := List.map_eq_nil_iff.1 keys
            rfl
        | @cons m e members entries first _ ih =>
            obtain ⟨⟨key, tree⟩, trees, rfl, same, keys⟩ := List.map_eq_cons_iff.1 keys
            obtain ⟨spells, values⟩ := List.forall₂_cons.1 values
            obtain ⟨name, value⟩ := first
            have key : key.name = e.1 := same.trans name.symm
            rw [List.map_cons, JsonRead.all, ih keys values]
            dsimp only
            rw [value tree spells, key]
            rfl
      show (JsonRead.all _ <* (.ok stop : JsonRead Nat) : JsonRead _) = _
      rw [all]
      rfl

end JsonTree

end SqlUnits
