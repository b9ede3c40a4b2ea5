import Mathlib.Data.List.Basic

/-! # Syntax trees

A tree whose nodes have a class and children under keys.  A key that holds a list has
its elements as several children in order; `arg?` returns the first child under a key.
`walk` lists a node and all its descendants, level by level.
-/
namespace QueryCraft

variable {C : Type}

mutual

/-- A node. -/
inductive SyntaxTree (C : Type) where
  | node (cls : C) (args : SyntaxArgs C)

/-- The children of a node. -/
inductive SyntaxArgs (C : Type) where
  | nil
  | cons (key : String) (child : SyntaxTree C) (rest : SyntaxArgs C)

end

namespace SyntaxTree

/-- The class of a node. -/
def cls : SyntaxTree C → C
  | .node c _ => c

@[simp] theorem cls_node (c : C) (args : SyntaxArgs C) : (SyntaxTree.node c args).cls = c := rfl

/-- The first child under a key. -/
def argOf? (key : String) : SyntaxArgs C → Option (SyntaxTree C)
  | .nil => none
  | .cons k child rest => if k = key then some child else argOf? key rest

/-- The first child of a node under a key. -/
def arg? (key : String) : SyntaxTree C → Option (SyntaxTree C)
  | .node _ args => argOf? key args

/-- Two sequences of levels side by side. -/
def mergeLevels {α : Type*} : List (List α) → List (List α) → List (List α)
  | [], ys => ys
  | xs, [] => xs
  | x :: xs, y :: ys => (x ++ y) :: mergeLevels xs ys

mutual

/-- The node, its children, their children and so on. -/
def levels : SyntaxTree C → List (List (SyntaxTree C))
  | .node c args => [.node c args] :: argLevels args

/-- The levels below a node. -/
def argLevels : SyntaxArgs C → List (List (SyntaxTree C))
  | .nil => []
  | .cons _ child rest => mergeLevels (levels child) (argLevels rest)

end

/-- The node and its descendants, breadth first. -/
def walk (n : SyntaxTree C) : List (SyntaxTree C) := n.levels.flatten

/-- The descendants in a list of children. -/
def argWalk (args : SyntaxArgs C) : List (SyntaxTree C) := (argLevels args).flatten

variable {m n x : SyntaxTree C} {args : SyntaxArgs C} {key : String}

theorem mem_flatten_mergeLevels {α : Type*} {x : α} {xs ys : List (List α)} :
    x ∈ (mergeLevels xs ys).flatten ↔ x ∈ xs.flatten ∨ x ∈ ys.flatten := by
  induction xs, ys using mergeLevels.induct with
  | case1 ys => simp [mergeLevels]
  | case2 xs hxs => simp [mergeLevels]
  | case3 a xs b ys ih =>
    simp only [mergeLevels, List.flatten_cons, List.mem_append, ih]
    tauto

@[simp] theorem mem_walk_node {c : C} :
    x ∈ (SyntaxTree.node c args).walk ↔ x = .node c args ∨ x ∈ argWalk args := by
  simp [walk, levels, argWalk]

@[simp] theorem argWalk_nil : argWalk (.nil : SyntaxArgs C) = [] := rfl

@[simp] theorem mem_argWalk_cons {child : SyntaxTree C} {rest : SyntaxArgs C} :
    x ∈ argWalk (.cons key child rest) ↔ x ∈ child.walk ∨ x ∈ argWalk rest :=
  mem_flatten_mergeLevels

theorem self_mem_walk (n : SyntaxTree C) : n ∈ n.walk := by
  cases n
  simp

mutual

/-- A descendant of a descendant is a descendant. -/
theorem walk_trans : ∀ {n : SyntaxTree C}, m ∈ n.walk → x ∈ m.walk → x ∈ n.walk
  | .node c args, hm, hx => by
    rcases mem_walk_node.mp hm with rfl | hm
    · exact hx
    · exact mem_walk_node.mpr (.inr (argWalk_trans hm hx))

theorem argWalk_trans : ∀ {args : SyntaxArgs C}, m ∈ argWalk args → x ∈ m.walk → x ∈ argWalk args
  | .nil, hm, _ => by simp at hm
  | .cons key child rest, hm, hx => by
    rcases mem_argWalk_cons.mp hm with hm | hm
    · exact mem_argWalk_cons.mpr (.inl (walk_trans hm hx))
    · exact mem_argWalk_cons.mpr (.inr (argWalk_trans hm hx))

end

theorem mem_argWalk_of_argOf? : ∀ {args : SyntaxArgs C}, argOf? key args = some x →
    x ∈ argWalk args
  | .nil, h => by cases h
  | .cons k child rest, h => by
    rw [argOf?] at h
    split at h
    · obtain rfl := Option.some.inj h
      exact mem_argWalk_cons.mpr (.inl (self_mem_walk _))
    · exact mem_argWalk_cons.mpr (.inr (mem_argWalk_of_argOf? h))

theorem mem_walk_of_arg? (h : n.arg? key = some x) : x ∈ n.walk := by
  obtain ⟨c, args⟩ := n
  exact mem_walk_node.mpr (.inr (mem_argWalk_of_argOf? h))

/-! ## Places -/

/-- A list of children with their keys. -/
def argPairs : SyntaxArgs C → List (String × SyntaxTree C)
  | .nil => []
  | .cons key child rest => (key, child) :: argPairs rest

/-- The children of a node, with their keys. -/
def children : SyntaxTree C → List (String × SyntaxTree C)
  | .node _ args => argPairs args

mutual

/-- The nodes below a node, each with the class of its parent and the key it stands under. -/
def places : SyntaxTree C → List ((C × String) × SyntaxTree C)
  | .node c args => argPlaces c args

/-- The places in a list of children of a node of class `c`. -/
def argPlaces (c : C) : SyntaxArgs C → List ((C × String) × SyntaxTree C)
  | .nil => []
  | .cons key child rest => ((c, key), child) :: (places child ++ argPlaces c rest)

end

mutual

/-- A descendant is the node itself or has a place below it. -/
theorem mem_walk_iff_places : ∀ {n : SyntaxTree C},
    x ∈ n.walk ↔ x = n ∨ ∃ p, (p, x) ∈ n.places
  | .node c args => by
    rw [mem_walk_node, places, mem_argWalk_iff_places (c := c)]

theorem mem_argWalk_iff_places {c : C} : ∀ {args : SyntaxArgs C},
    x ∈ argWalk args ↔ ∃ p, (p, x) ∈ argPlaces c args
  | .nil => by simp [argPlaces]
  | .cons key child rest => by
    rw [mem_argWalk_cons, mem_walk_iff_places, mem_argWalk_iff_places (c := c)]
    simp only [argPlaces, List.mem_cons, List.mem_append, Prod.mk.injEq]
    constructor
    · rintro ((rfl | ⟨p, hp⟩) | ⟨p, hp⟩)
      · exact ⟨_, .inl ⟨rfl, rfl⟩⟩
      · exact ⟨p, .inr (.inl hp)⟩
      · exact ⟨p, .inr (.inr hp)⟩
    · rintro ⟨p, ⟨-, rfl⟩ | hp | hp⟩
      · exact .inl (.inl rfl)
      · exact .inl (.inr ⟨p, hp⟩)
      · exact .inr ⟨p, hp⟩

end

mutual

/-- The parent of a place is the node or one of its descendants. -/
theorem exists_parent_of_mem_places : ∀ {n : SyntaxTree C} {p : (C × String) × SyntaxTree C},
    p ∈ n.places → ∃ m ∈ n.walk, m.cls = p.1.1
  | .node c args, p, h => by
    rcases exists_parent_of_mem_argPlaces h with hc | ⟨m, hm, hcls⟩
    · exact ⟨_, self_mem_walk _, hc.symm⟩
    · exact ⟨m, mem_walk_node.mpr (.inr hm), hcls⟩

theorem exists_parent_of_mem_argPlaces {c : C} : ∀ {args : SyntaxArgs C}
    {p : (C × String) × SyntaxTree C}, p ∈ argPlaces c args →
      p.1.1 = c ∨ ∃ m ∈ argWalk args, m.cls = p.1.1
  | .nil, _, h => by simp [argPlaces] at h
  | .cons key child rest, p, h => by
    rcases List.mem_cons.mp h with rfl | h
    · exact .inl rfl
    · rcases List.mem_append.mp h with h | h
      · obtain ⟨m, hm, hcls⟩ := exists_parent_of_mem_places h
        exact .inr ⟨m, mem_argWalk_cons.mpr (.inl hm), hcls⟩
      · refine (exists_parent_of_mem_argPlaces h).imp_right ?_
        rintro ⟨m, hm, hcls⟩
        exact ⟨m, mem_argWalk_cons.mpr (.inr hm), hcls⟩

end

theorem mem_argPairs_of_argOf? : ∀ {args : SyntaxArgs C}, argOf? key args = some x →
    (key, x) ∈ argPairs args
  | .nil, h => by cases h
  | .cons k child rest, h => by
    rw [argOf?] at h
    rw [argPairs]
    split at h
    · rename_i hkey
      obtain rfl := Option.some.inj h
      exact List.mem_cons.mpr (.inl (by rw [hkey]))
    · exact List.mem_cons_of_mem _ (mem_argPairs_of_argOf? h)

theorem mem_children_of_arg? (h : n.arg? key = some x) : (key, x) ∈ n.children := by
  obtain ⟨c, args⟩ := n
  exact mem_argPairs_of_argOf? h

theorem mem_argPlaces_of_mem_argPairs {c : C} : ∀ {args : SyntaxArgs C},
    (key, x) ∈ argPairs args → ((c, key), x) ∈ argPlaces c args
  | .nil, h => by cases h
  | .cons k child rest, h => by
    rw [argPlaces]
    rcases List.mem_cons.mp h with heq | hrest
    · cases heq
      exact List.mem_cons_self
    · exact List.mem_cons_of_mem _ (List.mem_append_right _ (mem_argPlaces_of_mem_argPairs hrest))

/-- A child has a place below its parent. -/
theorem mem_places_of_mem_children (h : (key, x) ∈ n.children) : ((n.cls, key), x) ∈ n.places := by
  obtain ⟨c, args⟩ := n
  exact mem_argPlaces_of_mem_argPairs h

mutual

/-- A place below a descendant is a place below the node. -/
theorem places_subset_of_mem_walk : ∀ {n : SyntaxTree C}, x ∈ n.walk → x.places ⊆ n.places
  | .node c args, h => by
    rcases mem_walk_node.mp h with rfl | h
    · exact fun _ hp => hp
    · exact places_subset_of_mem_argWalk h

theorem places_subset_of_mem_argWalk {c : C} : ∀ {args : SyntaxArgs C}, x ∈ argWalk args →
    x.places ⊆ argPlaces c args
  | .nil, h => by simp at h
  | .cons key child rest, h => by
    intro p hp
    rw [argPlaces]
    refine List.mem_cons_of_mem _ (List.mem_append.mpr ?_)
    rcases mem_argWalk_cons.mp h with h | h
    · exact .inl (places_subset_of_mem_walk h hp)
    · exact .inr (places_subset_of_mem_argWalk h hp)

end

/-! ## Sizes -/

variable [SizeOf C]

mutual

theorem sizeOf_le_of_mem_walk : ∀ {n : SyntaxTree C}, x ∈ n.walk → sizeOf x ≤ sizeOf n
  | .node c args, hx => by
    rcases mem_walk_node.mp hx with rfl | hx
    · exact Nat.le_refl _
    · have := sizeOf_le_of_mem_argWalk hx
      simp only [SyntaxTree.node.sizeOf_spec]
      omega

theorem sizeOf_le_of_mem_argWalk : ∀ {args : SyntaxArgs C}, x ∈ argWalk args →
    sizeOf x ≤ sizeOf args
  | .nil, hx => by simp at hx
  | .cons key child rest, hx => by
    simp only [SyntaxArgs.cons.sizeOf_spec]
    rcases mem_argWalk_cons.mp hx with hx | hx
    · have := sizeOf_le_of_mem_walk hx
      omega
    · have := sizeOf_le_of_mem_argWalk hx
      omega

end

/-- A child is smaller. -/
theorem sizeOf_lt_of_arg? (h : n.arg? key = some x) : sizeOf x < sizeOf n := by
  obtain ⟨c, args⟩ := n
  have := sizeOf_le_of_mem_argWalk (mem_argWalk_of_argOf? (show argOf? key args = some x from h))
  simp only [SyntaxTree.node.sizeOf_spec]
  omega

end SyntaxTree
end QueryCraft
