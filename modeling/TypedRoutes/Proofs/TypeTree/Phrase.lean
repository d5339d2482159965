import TypedRoutes.Proofs.TypeTree

/-!
# Phrases

A `Phrase` is a type before its operators are grouped: operands joined by `&` form a group, and
groups are joined by `|`. `Phrase.tree` is its tree. That a text put together from texts has the
phrase put together from their phrases (`Phrase.allOf`, `Phrase.arrayed`) says nothing about trees:
the tree of a glued phrase is the meet of the trees exactly if no operand has an `|`
(`tree_glueAll_iff`), and that of a marked phrase is an array of the tree exactly if there is no
operator in it (`tree_arrayed_iff`).
-/

set_option autoImplicit false

namespace TypedRoutes

/-- A type whose operators are not grouped yet: groups joined by `|` of operands joined by `&`. -/
abbrev Phrase := List (List TypeTree)

namespace Phrase

open TypeTree

/-- The tree of a phrase. -/
def tree (p : Phrase) : TypeTree := unionOf (p.map intersectionOf)

/-- Puts an operand and an `&` before a phrase: it joins the first group. -/
def joinUnit (t : TypeTree) : Phrase → Phrase
  | [] => [[t]]
  | group :: rest => (t :: group) :: rest

/-- Puts an `&` between two phrases: the last group of the one and the first of the other become
one group. -/
def glue : Phrase → Phrase → Phrase
  | [], q => q
  | [group], q => group.foldr joinUnit q
  | group :: next :: rest, q => group :: glue (next :: rest) q

/-- Puts an `&` between the members of a list of phrases. -/
def glueAll : List Phrase → Phrase
  | [] => []
  | [p] => p
  | p :: q :: rest => glue p (glueAll (q :: rest))

/-- Marks the last operand of a group as an array. -/
def markLast : List TypeTree → List TypeTree
  | [] => []
  | [t] => [.array t]
  | t :: next :: rest => t :: markLast (next :: rest)

/-- Puts the mark of an array after a phrase: it marks the last operand only. -/
def arrayed : Phrase → Phrase
  | [] => []
  | [group] => [markLast group]
  | group :: next :: rest => group :: arrayed (next :: rest)

/-- The phrase of a union: phrases with an `|` between them, or a name for none. -/
def anyOf (ps : List Phrase) : Phrase := if ps.isEmpty then [[.never]] else ps.flatten

/-- The phrase of an intersection: phrases with an `&` between them, or a name for none. -/
def allOf (ps : List Phrase) : Phrase := if ps.isEmpty then [[.unknown]] else glueAll ps

/-- Does the phrase have an `|`? -/
def HasOr (p : Phrase) : Prop := 2 ≤ p.length

/-- Does the phrase have an `&`? -/
def HasAnd (p : Phrase) : Prop := ∃ group ∈ p, 2 ≤ group.length

/-- A phrase as texts have them: groups and phrases are not empty, and operands are units. -/
structure Proper (p : Phrase) : Prop where
  ne_nil : p ≠ []
  groups : ∀ group ∈ p, group ≠ [] ∧ ∀ t ∈ group, t.IsUnit

variable {p q : Phrase}

theorem Proper.singleton {t : TypeTree} (h : t.IsUnit) : Proper [[t]] :=
  ⟨by simp, by simpa using h⟩

theorem Proper.append (hp : Proper p) (hq : Proper q) : Proper (p ++ q) :=
  ⟨by simp [hp.ne_nil], List.forall_mem_append.2 ⟨hp.groups, hq.groups⟩⟩

theorem Proper.joinUnit {t : TypeTree} (ht : t.IsUnit) (hp : Proper p) : Proper (joinUnit t p) := by
  cases p with
  | nil => exact .singleton ht
  | cons group rest =>
    have hgroups := List.forall_mem_cons.1 hp.groups
    refine ⟨by simp [Phrase.joinUnit], List.forall_mem_cons.2 ⟨⟨by simp, ?_⟩, hgroups.2⟩⟩
    exact List.forall_mem_cons.2 ⟨ht, hgroups.1.2⟩

theorem Proper.of_cons {group : List TypeTree} (hp : Proper (group :: p)) :
    (group ≠ [] ∧ ∀ t ∈ group, t.IsUnit) ∧ (p ≠ [] → Proper p) := by
  have hgroups := List.forall_mem_cons.1 hp.groups
  exact ⟨hgroups.1, fun hne => ⟨hne, hgroups.2⟩⟩

theorem Proper.cons {group : List TypeTree} (hgroup : group ≠ [] ∧ ∀ t ∈ group, t.IsUnit)
    (hp : Proper p) : Proper (group :: p) :=
  ⟨by simp, List.forall_mem_cons.2 ⟨hgroup, hp.groups⟩⟩

theorem Proper.flatten {ps : List Phrase} (hps : ps ≠ []) (h : ∀ p ∈ ps, Proper p) :
    Proper ps.flatten := by
  obtain ⟨p, rest, rfl⟩ := List.exists_cons_of_ne_nil hps
  refine ⟨by simp [(h p (by simp)).ne_nil], ?_⟩
  intro group hgroup
  obtain ⟨q, hq, hgroup⟩ := List.mem_flatten.1 hgroup
  exact (h q hq).groups group hgroup

/-! ## Trees of phrases -/

theorem Proper.not_isUnion_map (hp : Proper p) :
    ∀ t ∈ p.map intersectionOf, ¬ t.IsUnion := by
  intro t ht
  obtain ⟨group, hgroup, rfl⟩ := List.mem_map.1 ht
  obtain ⟨hne, hunits⟩ := hp.groups group hgroup
  exact not_isUnion_intersectionOf hne hunits

/-- The alternatives of the tree are the groups. -/
theorem Proper.alternatives_tree (hp : Proper p) : p.tree.alternatives = p.map intersectionOf := by
  have hne : p.map intersectionOf ≠ [] := by simpa using hp.ne_nil
  have hmembers := hp.not_isUnion_map
  rw [tree]
  -- One alternative is the tree itself, several are the members of a union.
  generalize p.map intersectionOf = ts at *
  rcases eq_singleton_or_two_le hne with ⟨t, rfl⟩ | htwo
  · exact alternatives_of_not_isUnion (hmembers t (by simp))
  · rw [unionOf_of_two_le htwo]
    rfl

/-- Only a phrase with an `|` is a union. -/
theorem Proper.isUnion_tree_iff (hp : Proper p) : p.tree.IsUnion ↔ p.HasOr := by
  rcases eq_singleton_or_two_le hp.ne_nil with ⟨group, rfl⟩ | htwo
  · have hmembers := hp.not_isUnion_map
    constructor
    · intro h
      exact absurd h (hmembers (intersectionOf group) (by simp))
    · intro h
      exact absurd h (by simp [HasOr])
  · rw [tree, unionOf_of_two_le (by simpa using htwo)]
    exact ⟨fun _ => htwo, fun _ => trivial⟩

/-- Only a phrase without operators is an operand. -/
theorem Proper.isUnit_tree_iff (hp : Proper p) : p.tree.IsUnit ↔ ¬ p.HasOr ∧ ¬ p.HasAnd := by
  rcases eq_singleton_or_two_le hp.ne_nil with ⟨group, rfl⟩ | htwo
  · obtain ⟨hne, hunits⟩ := hp.groups group (by simp)
    rcases eq_singleton_or_two_le hne with ⟨t, rfl⟩ | htwo
    · have hunit : (tree [[t]]).IsUnit := hunits t (by simp)
      simp [hunit, HasOr, HasAnd]
    -- One group of several operands is an intersection, which is no operand.
    · have htree : tree [group] = .intersection group := intersectionOf_of_two_le htwo
      have hand : HasAnd [group] := ⟨group, by simp, htwo⟩
      rw [htree]
      exact ⟨fun h => absurd trivial h.2, fun h => absurd hand h.2⟩
  · exact ⟨fun h => absurd (hp.isUnion_tree_iff.2 htwo) h.1, fun h => absurd htwo h.1⟩

/-- The tree of a list of phrases, one after another, is the union of their trees. -/
theorem tree_flatten {ps : List Phrase} (h : ∀ p ∈ ps, Proper p) :
    tree ps.flatten = join (ps.map tree) := by
  have halternatives : (ps.map tree).flatMap alternatives = ps.flatten.map intersectionOf := by
    induction ps with
    | nil => rfl
    | cons p rest ih =>
      rw [List.forall_mem_cons] at h
      rw [List.map_cons, List.flatMap_cons, h.1.alternatives_tree, ih h.2, List.flatten_cons,
        List.map_append]
  rw [join, halternatives, tree]

/-! ## The mark of an array -/

theorem isUnit_array (t : TypeTree) : (TypeTree.array t).IsUnit := ⟨id, id⟩

theorem length_markLast : ∀ group : List TypeTree, (markLast group).length = group.length
  | [] => rfl
  | [_] => rfl
  | _ :: next :: rest => by
    rw [markLast, List.length_cons, length_markLast (next :: rest)]
    rfl

/-- Marking the last unit of a group leaves units. -/
theorem isUnit_of_mem_markLast : ∀ {group : List TypeTree}, (∀ t ∈ group, t.IsUnit) →
    ∀ t ∈ markLast group, t.IsUnit
  | [], h => h
  | [t], _ => by simpa [markLast] using isUnit_array t
  | t :: next :: rest, h => by
    rw [List.forall_mem_cons] at h
    exact List.forall_mem_cons.2 ⟨h.1, isUnit_of_mem_markLast h.2⟩

/-- The mark of an array changes nothing about the operators. -/
theorem map_length_arrayed : ∀ p : Phrase, (arrayed p).map List.length = p.map List.length
  | [] => rfl
  | [group] => by simp [arrayed, length_markLast]
  | group :: next :: rest => by
    rw [arrayed, List.map_cons, map_length_arrayed (next :: rest)]
    rfl

theorem length_arrayed (p : Phrase) : (arrayed p).length = p.length := by
  simpa using congrArg List.length (map_length_arrayed p)

theorem hasOr_arrayed : (arrayed p).HasOr ↔ p.HasOr := by
  rw [HasOr, length_arrayed, HasOr]

/-- A phrase has an intersection exactly when some group has two members or more. -/
theorem hasAnd_iff : p.HasAnd ↔ ∃ n ∈ p.map List.length, 2 ≤ n := by
  simp [HasAnd]

theorem hasAnd_arrayed : (arrayed p).HasAnd ↔ p.HasAnd := by
  rw [hasAnd_iff, map_length_arrayed, hasAnd_iff]

theorem Proper.arrayed : ∀ {p : Phrase}, Proper p → Proper (Phrase.arrayed p)
  | [], hp => hp
  | [group], hp => by
    obtain ⟨hne, hunits⟩ := hp.of_cons.1
    have hmarked : markLast group ≠ [] := by
      rw [← List.length_pos_iff, length_markLast]
      exact List.length_pos_of_ne_nil hne
    exact ⟨by simp [Phrase.arrayed],
      List.forall_mem_singleton.2 ⟨hmarked, isUnit_of_mem_markLast hunits⟩⟩
  | group :: next :: rest, hp => .cons hp.of_cons.1 (hp.of_cons.2 (by simp)).arrayed

/-- Only a phrase of one operand becomes an array as a whole. -/
theorem tree_arrayed_iff (hp : Proper p) :
    (arrayed p).tree = .array p.tree ↔ p.tree.IsUnit := by
  rcases eq_singleton_or_two_le hp.ne_nil with ⟨group, rfl⟩ | htwo
  · obtain ⟨hne, hunits⟩ := hp.groups group (by simp)
    rcases eq_singleton_or_two_le hne with ⟨t, rfl⟩ | htwo
    · exact ⟨fun _ => hunits t (by simp), fun _ => rfl⟩
    · -- The mark stays inside the intersection.
      have hmarked : (arrayed [group]).tree = .intersection (markLast group) :=
        intersectionOf_of_two_le (by rw [length_markLast]; exact htwo)
      have htree : tree [group] = .intersection group := intersectionOf_of_two_le htwo
      rw [hmarked, htree]
      constructor
      · intro h
        cases h
      · intro h
        exact absurd trivial h.2
  · have hmarked : (arrayed p).tree = .union ((arrayed p).map intersectionOf) :=
      unionOf_of_two_le (by rw [List.length_map, length_arrayed]; exact htwo)
    have hunion := hp.isUnion_tree_iff.2 htwo
    rw [hmarked]
    constructor
    · intro h
      cases h
    · intro h
      exact absurd hunion h.1

/-! ## Glued phrases -/

/-- Joining units one by one to the first group puts them in front of it. -/
theorem foldr_joinUnit (group next : List TypeTree) (rest : Phrase) :
    group.foldr joinUnit (next :: rest) = (group ++ next) :: rest := by
  induction group with
  | nil => rfl
  | cons t group ih =>
    rw [List.foldr_cons, ih]
    rfl

/-- Gluing two phrases makes one group of the last and the first. -/
theorem length_glue (hp : p ≠ []) (hq : q ≠ []) :
    (glue p q).length + 1 = p.length + q.length := by
  obtain ⟨next, rest, rfl⟩ := List.exists_cons_of_ne_nil hq
  induction p with
  | nil => exact absurd rfl hp
  -- The last group of the one and the first of the other are counted once.
  | cons group others ih =>
    cases others with
    | nil =>
      rw [glue, foldr_joinUnit]
      simp only [List.length_cons, List.length_nil]
      omega
    | cons next' rest' =>
      have ih := ih (by simp)
      rw [glue]
      simp only [List.length_cons] at ih ⊢
      omega

theorem Proper.glue : ∀ {p : Phrase}, Proper p → Proper q → Proper (Phrase.glue p q)
  | [], _, hq => hq
  | [group], hp, hq => by
    obtain ⟨next, rest, rfl⟩ := List.exists_cons_of_ne_nil hq.ne_nil
    obtain ⟨-, hunits⟩ := hp.of_cons.1
    obtain ⟨hne, hothers⟩ := hq.of_cons.1
    rw [Phrase.glue, foldr_joinUnit]
    refine ⟨by simp, List.forall_mem_cons.2 ⟨⟨by simp [hne], ?_⟩, ?_⟩⟩
    · exact List.forall_mem_append.2 ⟨hunits, hothers⟩
    · exact (List.forall_mem_cons.1 hq.groups).2
  | group :: next :: rest, hp, hq => .cons hp.of_cons.1 ((hp.of_cons.2 (by simp)).glue hq)

/-- There is an `|` in phrases with an `&` between them if there is one in either. -/
theorem hasOr_glue (hp : Proper p) (hq : Proper q) : (glue p q).HasOr ↔ p.HasOr ∨ q.HasOr := by
  have hlength := length_glue hp.ne_nil hq.ne_nil
  have hleft := List.length_pos_of_ne_nil hp.ne_nil
  have hright := List.length_pos_of_ne_nil hq.ne_nil
  unfold HasOr
  omega

/-- Gluing puts an intersection into every phrase. -/
theorem hasAnd_glue : ∀ {p : Phrase}, Proper p → Proper q → (glue p q).HasAnd
  | [], hp, _ => absurd rfl hp.ne_nil
  | [group], hp, hq => by
    obtain ⟨next, rest, rfl⟩ := List.exists_cons_of_ne_nil hq.ne_nil
    have hgroup := List.length_pos_of_ne_nil hp.of_cons.1.1
    have hnext := List.length_pos_of_ne_nil hq.of_cons.1.1
    rw [glue, foldr_joinUnit]
    exact ⟨group ++ next, by simp, by rw [List.length_append]; omega⟩
  | group :: next :: rest, hp, hq => by
    obtain ⟨found, hfound, htwo⟩ := hasAnd_glue (hp.of_cons.2 (by simp)) hq
    exact ⟨found, List.mem_cons_of_mem _ hfound, htwo⟩

theorem Proper.glueAll {ps : List Phrase} (hps : ps ≠ []) (h : ∀ p ∈ ps, Proper p) :
    Proper (Phrase.glueAll ps) := by
  induction ps using Phrase.glueAll.induct with
  | case1 => exact absurd rfl hps
  | case2 p => exact h p (by simp)
  | case3 p q rest ih =>
    rw [List.forall_mem_cons] at h
    exact h.1.glue (ih (by simp) h.2)

theorem hasOr_glueAll {ps : List Phrase} (h : ∀ p ∈ ps, Proper p) :
    (glueAll ps).HasOr ↔ ∃ p ∈ ps, p.HasOr := by
  induction ps using glueAll.induct with
  | case1 => simp [glueAll, HasOr]
  | case2 p => simp [glueAll]
  | case3 p q rest ih =>
    rw [List.forall_mem_cons] at h
    rw [glueAll, hasOr_glue h.1 (.glueAll (by simp) h.2), ih h.2]
    exact (List.exists_mem_cons_iff HasOr p (q :: rest)).symm

/-- Glued phrases have an intersection exactly when there are two or more, or one of them has. -/
theorem hasAnd_glueAll {ps : List Phrase} (h : ∀ p ∈ ps, Proper p) :
    (glueAll ps).HasAnd ↔ 2 ≤ ps.length ∨ ∃ p ∈ ps, p.HasAnd := by
  match ps with
  | [] => simp [glueAll, HasAnd]
  | [p] => simp [glueAll]
  | p :: q :: rest =>
    rw [List.forall_mem_cons] at h
    exact ⟨fun _ => .inl (by simp), fun _ => hasAnd_glue h.1 (.glueAll (by simp) h.2)⟩

/-- Phrases without `|` become one group. -/
theorem glueAll_groups (groups : List (List TypeTree)) (h : groups ≠ []) :
    glueAll (groups.map fun group => [group]) = [groups.flatten] := by
  induction groups with
  | nil => exact absurd rfl h
  | cons group rest ih =>
    cases rest with
    | nil => simp [glueAll]
    | cons next rest =>
      have ih := ih (by simp)
      rw [List.map_cons] at ih
      rw [List.map_cons, List.map_cons, glueAll, ih, glue, foldr_joinUnit]
      rfl

theorem operands_tree_ne_nil (hp : Proper p) : p.tree.operands ≠ [] := by
  rcases eq_singleton_or_two_le hp.ne_nil with ⟨group, rfl⟩ | htwo
  · obtain ⟨hne, hunits⟩ := hp.groups group (by simp)
    have htree : tree [group] = intersectionOf group := rfl
    rw [htree, operands_intersectionOf hne hunits]
    exact hne
  · rw [tree, unionOf_of_two_le (by simpa using htwo)]
    exact List.cons_ne_nil _ _

theorem meet_singleton (hp : Proper p) : meet [p.tree] = p.tree := by
  rcases eq_singleton_or_two_le hp.ne_nil with ⟨group, rfl⟩ | htwo
  · obtain ⟨hne, hunits⟩ := hp.groups group (by simp)
    have htree : tree [group] = intersectionOf group := rfl
    rw [htree, meet, List.flatMap_singleton, operands_intersectionOf hne hunits]
  · rw [tree, unionOf_of_two_le (by simpa using htwo)]
    rfl

/-- A phrase without `|` is one group. -/
theorem Proper.eq_singleton (hp : Proper p) (h : ¬ p.tree.IsUnion) : p = [p.flatten] := by
  rcases eq_singleton_or_two_le hp.ne_nil with ⟨group, rfl⟩ | htwo
  · simp
  · exact absurd (hp.isUnion_tree_iff.2 htwo) h

theorem flatMap_operands {groups : List (List TypeTree)}
    (h : ∀ p ∈ groups.map fun group => [group], Proper p) :
    ((groups.map fun group => [group]).map tree).flatMap operands = groups.flatten := by
  induction groups with
  | nil => rfl
  | cons group rest ih =>
    rw [List.map_cons, List.forall_mem_cons] at h
    obtain ⟨hne, hunits⟩ := h.1.groups group (by simp)
    have htree : tree [group] = intersectionOf group := rfl
    rw [List.map_cons, List.map_cons, List.flatMap_cons, htree,
      operands_intersectionOf hne hunits, ih h.2, List.flatten_cons]

/-- Without a union among them, the glued phrases are the intersection of their trees. -/
theorem tree_glueAll {ps : List Phrase} (hps : ps ≠ []) (h : ∀ p ∈ ps, Proper p)
    (hunion : ∀ p ∈ ps, ¬ p.tree.IsUnion) : (glueAll ps).tree = meet (ps.map tree) := by
  -- Without a union every phrase is one group, so gluing appends the groups.
  have hsingle : ∀ p ∈ ps, [p.flatten] = p := fun p hp => ((h p hp).eq_singleton (hunion p hp)).symm
  have hgroups : ps = (ps.map List.flatten).map fun group => [group] := by
    rw [List.map_map]
    exact ((List.map_congr_left hsingle).trans (List.map_id ps)).symm
  rw [hgroups] at h hps ⊢
  rw [glueAll_groups _ (by simpa using hps), meet, flatMap_operands h]
  rfl

theorem length_le_flatMap_operands {ps : List Phrase} (h : ∀ p ∈ ps, Proper p) :
    ps.length ≤ ((ps.map tree).flatMap operands).length := by
  induction ps with
  | nil => exact Nat.le_refl 0
  | cons p rest ih =>
    rw [List.forall_mem_cons] at h
    have hp := List.length_pos_of_ne_nil (operands_tree_ne_nil h.1)
    have hrest := ih h.2
    rw [List.map_cons, List.flatMap_cons, List.length_append, List.length_cons]
    omega

/-- Several glued phrases are the intersection of their trees exactly if there is no `|` in
them. -/
theorem tree_glueAll_iff {ps : List Phrase} (hps : ps ≠ []) (h : ∀ p ∈ ps, Proper p) :
    (glueAll ps).tree = meet (ps.map tree) ↔ ps.length = 1 ∨ ∀ p ∈ ps, ¬ p.HasOr := by
  -- A single phrase is glued to nothing, whatever its operators.
  rcases eq_singleton_or_two_le hps with ⟨p, rfl⟩ | htwo
  · exact ⟨fun _ => .inl rfl, fun _ => (meet_singleton (h p (by simp))).symm⟩
  constructor
  · intro heq
    apply Or.inr
    intro p hp hor
    -- An `|` stays on the outermost level, where the meet has an `&`.
    have hlength : 2 ≤ (glueAll ps).length := (hasOr_glueAll h).2 ⟨p, hp, hor⟩
    have hoperands : 2 ≤ ((ps.map tree).flatMap operands).length :=
      Nat.le_trans htwo (length_le_flatMap_operands h)
    rw [tree, unionOf_of_two_le (by simpa using hlength), meet,
      intersectionOf_of_two_le hoperands] at heq
    cases heq
  · rintro (hone | hor)
    · omega
    · exact tree_glueAll hps h fun p hp hunion => hor p hp ((h p hp).isUnion_tree_iff.1 hunion)

/-! ## Phrases of unions and intersections -/

section Operators

variable {ps : List Phrase}

theorem Proper.anyOf (h : ∀ p ∈ ps, Proper p) : Proper (Phrase.anyOf ps) := by
  unfold Phrase.anyOf
  split
  · exact .singleton ⟨id, id⟩
  · next hne => exact .flatten (by simpa using hne) h

theorem Proper.allOf (h : ∀ p ∈ ps, Proper p) : Proper (Phrase.allOf ps) := by
  unfold Phrase.allOf
  split
  · exact .singleton ⟨id, id⟩
  · next hne => exact .glueAll (by simpa using hne) h

theorem length_le_flatten (h : ∀ p ∈ ps, Proper p) : ps.length ≤ ps.flatten.length := by
  induction ps with
  | nil => exact Nat.le_refl 0
  | cons p rest ih =>
    rw [List.forall_mem_cons] at h
    have hp := List.length_pos_of_ne_nil h.1.ne_nil
    have hrest := ih h.2
    rw [List.flatten_cons, List.length_append, List.length_cons]
    omega

/-- Alternatives have a union exactly when there are two or more, or one of them has. -/
theorem hasOr_anyOf (h : ∀ p ∈ ps, Proper p) :
    (anyOf ps).HasOr ↔ 2 ≤ ps.length ∨ ∃ p ∈ ps, p.HasOr := by
  match ps with
  | [] => simp [anyOf, HasOr]
  | [p] => simp [anyOf]
  | p :: q :: rest =>
    have hlength := length_le_flatten h
    refine ⟨fun _ => .inl (by simp), ?_⟩
    intro _
    rw [anyOf, if_neg (by simp), HasOr]
    simp only [List.length_cons] at hlength
    omega

theorem hasAnd_anyOf : (anyOf ps).HasAnd ↔ ∃ p ∈ ps, p.HasAnd := by
  unfold anyOf
  split
  · next hempty =>
    obtain rfl := List.isEmpty_iff.1 hempty
    simp [HasAnd]
  · constructor
    · rintro ⟨group, hgroup, htwo⟩
      obtain ⟨p, hp, hgroup⟩ := List.mem_flatten.1 hgroup
      exact ⟨p, hp, group, hgroup, htwo⟩
    · rintro ⟨p, hp, group, hgroup, htwo⟩
      exact ⟨group, List.mem_flatten.2 ⟨p, hp, hgroup⟩, htwo⟩

theorem hasOr_allOf (h : ∀ p ∈ ps, Proper p) : (allOf ps).HasOr ↔ ∃ p ∈ ps, p.HasOr := by
  unfold allOf
  split
  · next hempty =>
    obtain rfl := List.isEmpty_iff.1 hempty
    simp [HasOr]
  · exact hasOr_glueAll h

/-- Intersected phrases have an intersection exactly when there are two or more, or one of them
has. -/
theorem hasAnd_allOf (h : ∀ p ∈ ps, Proper p) :
    (allOf ps).HasAnd ↔ 2 ≤ ps.length ∨ ∃ p ∈ ps, p.HasAnd := by
  unfold allOf
  split
  · next hempty =>
    obtain rfl := List.isEmpty_iff.1 hempty
    simp [HasAnd]
  · exact hasAnd_glueAll h

end Operators

end Phrase
end TypedRoutes
