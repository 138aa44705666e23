import Mathlib.Data.Set.Function
import Mathlib.Data.List.Induction
import Mathlib.Data.Set.Card
import Mathlib.Data.Set.Finite.List
import Mathlib.Order.CompletePartialOrder

/-! Forests of bounded depth whose nodes live in a heap and name their children by index. -/

namespace RadixForest

variable {Node Index : Type*}

/-- The node a path of child indices leads to. -/
def walk (child : Node → Index → Option Node) : Node → List Index → Option Node
  | node, [] => some node
  | node, index :: path => (child node index).bind fun next => walk child next path

section Walk

variable (child : Node → Index → Option Node)

/-- The empty path stays at the node. -/
@[simp] theorem walk_nil (node : Node) : walk child node [] = some node := rfl

/-- A path begins with a pointer of the node. -/
@[simp] theorem walk_cons (node : Node) (index : Index) (path : List Index) :
    walk child node (index :: path) =
      (child node index).bind fun next => walk child next path := rfl

/-- A path is followed one part after the other. -/
theorem walk_append (node : Node) (path rest : List Index) :
    walk child node (path ++ rest) =
      (walk child node path).bind fun middle => walk child middle rest := by
  induction path generalizing node with
  | nil => simp
  | cons index path ih => simp [ih, Option.bind_assoc]

/-- The last index of a path selects a child of the node reached before it. -/
theorem walk_snoc (node : Node) (path : List Index) (index : Index) :
    walk child node (path ++ [index]) =
      (walk child node path).bind fun last => child last index := by
  rw [walk_append]
  congr 1
  funext last
  cases found : child last index <;> simp [found]

end Walk

/-- The nodes of a tree, down to the given depth. -/
def nodes (child : Node → Index → Option Node) (depth : Nat) (root : Node) : Set Node :=
  { node | ∃ path : List Index, path.length ≤ depth ∧ walk child root path = some node }

/-- The nodes whose children are looked at: those above the given depth. -/
def tables (child : Node → Index → Option Node) (depth : Nat) (root : Node) : Set Node :=
  { node | ∃ path : List Index, path.length < depth ∧ walk child root path = some node }

/-- No node is reached twice, neither inside one tree nor from two roots. -/
def Separate (child : Node → Index → Option Node) (depth : Nat) (roots : Set Node) : Prop :=
  ∀ ⦃root⦄, root ∈ roots → ∀ ⦃other⦄, other ∈ roots → ∀ ⦃path rest : List Index⦄ ⦃node : Node⦄,
    path.length ≤ depth → rest.length ≤ depth →
    walk child root path = some node → walk child other rest = some node →
    root = other ∧ path = rest

section Laws

variable {child next : Node → Index → Option Node} {depth : Nat} {roots : Set Node}

/-- A root is one of its own nodes. -/
theorem root_mem_nodes (root : Node) : root ∈ nodes child depth root :=
  ⟨[], Nat.zero_le _, rfl⟩

/-- Tables are nodes. -/
theorem tables_subset_nodes (root : Node) : tables child depth root ⊆ nodes child depth root :=
  fun _ ⟨path, short, reached⟩ => ⟨path, Nat.le_of_lt short, reached⟩

/-- A heap that keeps the children of every table keeps every path. -/
theorem walk_congr {root : Node} (same : Set.EqOn next child (tables child depth root)) :
    ∀ path : List Index, path.length ≤ depth → walk next root path = walk child root path := by
  -- The induction extends a path at its end, where the last table is already known.
  intro path
  induction path using List.reverseRecOn with
  | nil => intro _; rfl
  | append_singleton path index ih =>
    intro short
    simp only [List.length_append, List.length_singleton] at short
    rw [walk_snoc, walk_snoc, ih (by omega)]
    cases reached : walk child root path with
    | none => rfl
    | some last =>
      have kept : next last = child last := same ⟨path, by omega, reached⟩
      simp [kept]

/-- Trees with the same pointers in their tables have the same nodes. -/
theorem nodes_congr {root : Node} (same : Set.EqOn next child (tables child depth root)) :
    nodes next depth root = nodes child depth root := by
  ext node
  constructor
  · rintro ⟨path, short, reached⟩
    exact ⟨path, short, walk_congr same path short ▸ reached⟩
  · rintro ⟨path, short, reached⟩
    exact ⟨path, short, (walk_congr same path short).trans reached⟩

/-- Separation is inherited by fewer roots. -/
theorem Separate.mono {fewer : Set Node} (separate : Separate child depth roots)
    (subset : fewer ⊆ roots) : Separate child depth fewer :=
  fun _ member _ memberOther => separate (subset member) (subset memberOther)

/-- Separation survives every change of the heap that keeps the tables. -/
theorem Separate.congr (separate : Separate child depth roots)
    (same : ∀ root ∈ roots, Set.EqOn next child (tables child depth root)) :
    Separate next depth roots := by
  intro root member other memberOther path rest node short shortRest reached reachedRest
  rw [walk_congr (same root member) path short] at reached
  rw [walk_congr (same other memberOther) rest shortRest] at reachedRest
  exact separate member memberOther short shortRest reached reachedRest

/-- Trees of different roots have no node in common. -/
theorem Separate.disjoint (separate : Separate child depth roots) {root other : Node}
    (member : root ∈ roots) (memberOther : other ∈ roots) (distinct : root ≠ other) {node : Node}
    (mine : node ∈ nodes child depth root) : node ∉ nodes child depth other := by
  rintro ⟨rest, shortRest, reachedRest⟩
  obtain ⟨path, short, reached⟩ := mine
  exact distinct (separate member memberOther short shortRest reached reachedRest).1

/-- A leaf is never a table. -/
theorem Separate.leaf_not_table (separate : Separate child depth roots) {root other : Node}
    (member : root ∈ roots) (memberOther : other ∈ roots) {path : List Index} {node : Node}
    (deep : path.length = depth) (reached : walk child root path = some node) :
    node ∉ tables child depth other := by
  rintro ⟨rest, shortRest, reachedRest⟩
  have same := separate member memberOther (Nat.le_of_eq deep) (Nat.le_of_lt shortRest)
    reached reachedRest
  rw [same.2] at deep
  omega

/-- A childless root owns nothing but itself. -/
theorem walk_childless {root : Node} (childless : ∀ index, child root index = none)
    {path : List Index} (nonempty : path ≠ []) : walk child root path = none := by
  cases path with
  | nil => exact absurd rfl nonempty
  | cons index path => simp [childless index]

/-- A childless fresh root joins a forest without touching another node. -/
theorem Separate.insert_childless (separate : Separate child depth roots) {root : Node}
    (childless : ∀ index, child root index = none)
    (fresh : ∀ other ∈ roots, root ∉ nodes child depth other) :
    Separate child depth (insert root roots) := by
  -- A path from the new root is empty, so a shared node would be the new root itself.
  have only : ∀ {path : List Index} {node : Node},
      walk child root path = some node → path = [] ∧ node = root := by
    intro path node reached
    by_cases empty : path = []
    · subst empty
      exact ⟨rfl, (Option.some.inj reached).symm⟩
    · rw [walk_childless childless empty] at reached
      cases reached
  -- A shared node belongs to the new root twice, to an old root twice, or to one of each.
  intro first memberFirst second memberSecond path rest node short shortRest reached reachedRest
  rcases memberFirst with rfl | memberFirst <;> rcases memberSecond with rfl | memberSecond
  · exact ⟨rfl, (only reached).1.trans (only reachedRest).1.symm⟩
  · -- The node is the new root, which no other tree contains.
    obtain ⟨-, rfl⟩ := only reached
    exact absurd ⟨rest, shortRest, reachedRest⟩ (fresh second memberSecond)
  · obtain ⟨-, rfl⟩ := only reachedRest
    exact absurd ⟨path, short, reached⟩ (fresh first memberFirst)
  · exact separate memberFirst memberSecond short shortRest reached reachedRest

end Laws

/-- The paths of a tree, down to the given depth. -/
def places (child : Node → Index → Option Node) (depth : Nat) (root : Node) : Set (List Index) :=
  { path | path.length ≤ depth ∧ (walk child root path).isSome }

section Places

variable {child : Node → Index → Option Node} {depth : Nat}

/-- Finitely many indices make finitely many paths. -/
theorem places_finite [Finite Index] (root : Node) : (places child depth root).Finite :=
  (List.finite_length_le Index depth).subset fun _ place => place.1

/-- Every node has a place. -/
theorem nodes_eq_image (root : Node) :
    nodes child depth root = (fun path => (walk child root path).getD root) '' places child depth root := by
  ext node
  constructor
  · rintro ⟨path, short, reached⟩
    exact ⟨path, ⟨short, by simp [reached]⟩, by simp [reached]⟩
  · rintro ⟨path, ⟨short, found⟩, rfl⟩
    obtain ⟨node, reached⟩ := Option.isSome_iff_exists.mp found
    exact ⟨path, short, by simp [reached]⟩

/-- A tree has finitely many nodes. -/
theorem nodes_finite [Finite Index] (root : Node) : (nodes child depth root).Finite := by
  rw [nodes_eq_image]
  exact (places_finite root).image _

/-- A separate tree has as many nodes as places. -/
theorem Separate.ncard_nodes {root : Node} (separate : Separate child depth {root}) :
    (nodes child depth root).ncard = (places child depth root).ncard := by
  rw [nodes_eq_image]
  refine Set.InjOn.ncard_image ?_
  rintro path ⟨short, found⟩ rest ⟨shortRest, foundRest⟩ same
  obtain ⟨node, reached⟩ := Option.isSome_iff_exists.mp found
  obtain ⟨other, reachedRest⟩ := Option.isSome_iff_exists.mp foundRest
  simp only [reached, reachedRest, Option.getD_some] at same
  subst same
  exact (separate rfl rfl short shortRest reached reachedRest).2

end Places

/-- The nodes of the subtrees that hang below chosen indices of a table. -/
def branches (child : Node → Index → Option Node) (depth : Nat) (table : Node)
    (chosen : Set Index) : Set Node :=
  { node | ∃ index ∈ chosen, ∃ next, child table index = some next ∧
    node ∈ nodes child depth next }

section Branches

variable {child : Node → Index → Option Node} {depth : Nat} {table : Node}

/-- A tree is its root and the subtrees below it. -/
theorem nodes_succ : nodes child (depth + 1) table =
    insert table (branches child depth table Set.univ) := by
  ext node
  constructor
  · rintro ⟨path, short, reached⟩
    cases path with
    | nil => exact Or.inl (Option.some.inj reached).symm
    | cons index path =>
      obtain ⟨next, found, below⟩ := Option.bind_eq_some_iff.mp reached
      exact Or.inr ⟨index, Set.mem_univ _, next, found, path, Nat.le_of_succ_le_succ short, below⟩
  · rintro (rfl | ⟨index, -, next, found, path, short, below⟩)
    · exact root_mem_nodes node
    · exact ⟨index :: path, Nat.succ_le_succ short, by simp [found, below]⟩

/-- A tree of depth zero is its root. -/
theorem nodes_zero (root : Node) : nodes child 0 root = {root} := by
  ext node
  constructor
  · rintro ⟨path, short, reached⟩
    obtain rfl := List.length_eq_zero_iff.mp (Nat.le_zero.mp short)
    exact (Option.some.inj reached).symm
  · rintro rfl
    exact root_mem_nodes node

/-- What lies below a table belongs to its tree. -/
theorem branches_subset (chosen : Set Index) :
    branches child depth table chosen ⊆ nodes child (depth + 1) table := by
  rintro node ⟨index, -, below⟩
  rw [nodes_succ]
  exact Or.inr ⟨index, Set.mem_univ _, below⟩

/-- Below no pointer there is nothing. -/
@[simp] theorem branches_empty : branches child depth table ∅ = ∅ := by
  ext node
  simp [branches]

/-- One more chosen index adds one more subtree. -/
theorem branches_insert (depth : Nat) {index : Index} {next : Node} (found : child table index = some next)
    (chosen : Set Index) : branches child depth table (insert index chosen) =
      branches child depth table chosen ∪ nodes child depth next := by
  ext node
  constructor
  · rintro ⟨other, rfl | member, below, foundOther, inside⟩
    · rw [found] at foundOther
      exact Or.inr (Option.some.inj foundOther ▸ inside)
    · exact Or.inl ⟨other, member, below, foundOther, inside⟩
  · rintro (⟨other, member, below⟩ | inside)
    · exact ⟨other, Set.mem_insert_of_mem _ member, below⟩
    · exact ⟨index, Set.mem_insert _ _, next, found, inside⟩

/-- An index without a child adds nothing. -/
theorem branches_insert_none (depth : Nat) {index : Index} (vacant : child table index = none)
    (chosen : Set Index) : branches child depth table (insert index chosen) =
      branches child depth table chosen := by
  ext node
  constructor
  · rintro ⟨other, rfl | member, below, foundOther, inside⟩
    · rw [vacant] at foundOther
      cases foundOther
    · exact ⟨other, member, below, foundOther, inside⟩
  · rintro ⟨other, member, below⟩
    exact ⟨other, Set.mem_insert_of_mem _ member, below⟩

/-- A subtree of a separate tree is separate. -/
theorem Separate.below (separate : Separate child (depth + 1) {table}) {index : Index}
    {next : Node} (found : child table index = some next) : Separate child depth {next} := by
  rintro first rfl second rfl path rest node short shortRest reached reachedRest
  have same := @separate table rfl table rfl (index :: path) (index :: rest) node
    (Nat.succ_le_succ short) (Nat.succ_le_succ shortRest) (by simpa [found] using reached)
    (by simpa [found] using reachedRest)
  exact ⟨rfl, (List.cons.inj same.2).2⟩

/-- The root of a separate tree is in none of its subtrees. -/
theorem Separate.root_not_branch (separate : Separate child (depth + 1) {table})
    (chosen : Set Index) : table ∉ branches child depth table chosen := by
  rintro ⟨index, -, next, found, path, short, reached⟩
  have same := @separate table rfl table rfl (index :: path) [] table (Nat.succ_le_succ short)
    (Nat.zero_le _) (by simpa [found] using reached) rfl
  simp at same

/-- Subtrees below different indices have no node in common. -/
theorem Separate.branch_disjoint (separate : Separate child (depth + 1) {table}) {index : Index}
    {next : Node} (found : child table index = some next) {chosen : Set Index}
    (unchosen : index ∉ chosen) {node : Node} (inside : node ∈ nodes child depth next) :
    node ∉ branches child depth table chosen := by
  rintro ⟨other, member, below, foundOther, rest, shortRest, reachedRest⟩
  obtain ⟨path, short, reached⟩ := inside
  have same := @separate table rfl table rfl (index :: path) (other :: rest) node
    (Nat.succ_le_succ short) (Nat.succ_le_succ shortRest) (by simpa [found] using reached)
    (by simpa [foundOther] using reachedRest)
  exact unchosen ((List.cons.inj same.2).1 ▸ member)

end Branches

section Replace

variable {child next : Node → Index → Option Node} {depth : Nat} {roots : Set Node}
  [DecidableEq Node] [DecidableEq Index]

/-- What it takes to replace one child pointer of one table of a separate forest. -/
structure Replaces (child next : Node → Index → Option Node) (depth : Nat) (roots : Set Node)
    (root : Node) (path : List Index) (index : Index) (value : Option Node) : Prop where
  /-- The root is one of the forest. -/
  live : root ∈ roots
  /-- The table is above the leaves. -/
  short : path.length < depth
  /-- The table holds the new pointer, and its other pointers are kept. -/
  table : ∃ node, walk child root path = some node ∧ next node index = value ∧
    (∀ other, other ≠ index → next node other = child node other) ∧
    (path.length + 1 = depth ∨ child node index = none)
  /-- Every other table keeps its pointers. -/
  others : ∀ owner ∈ roots, ∀ rest : List Index, rest.length < depth → ∀ node,
    walk child owner rest = some node → ¬ (owner = root ∧ rest = path) → next node = child node
  /-- A new node is owned by nobody, and has no children unless it is a leaf. -/
  fresh : ∀ node, value = some node → (∀ owner ∈ roots, node ∉ nodes child depth owner) ∧
    (path.length + 1 = depth ∨ ∀ other, next node other = none)

/-- Replacing one pointer changes the forest at one path only. -/
theorem Replaces.walk_eq {root : Node} {path : List Index} {index : Index} {value : Option Node}
    (replaces : Replaces child next depth roots root path index value)
    {owner : Node} (member : owner ∈ roots) :
    ∀ rest : List Index, rest.length ≤ depth → walk next owner rest =
      if owner = root ∧ rest = path ++ [index] then value else walk child owner rest := by
  obtain ⟨table, reachedTable, holds, keeps, bottom⟩ := replaces.table
  intro rest
  -- The induction extends the path at its end: only the last step can meet the changed table.
  induction rest using List.reverseRecOn with
  | nil => intro _; simp
  | append_singleton rest last ih =>
    intro short
    simp only [List.length_append, List.length_singleton] at short
    rw [walk_snoc, ih (by omega)]
    by_cases below : owner = root ∧ rest = path ++ [index]
    · -- Below the changed pointer there was nothing, and a new node has no children.
      obtain ⟨rfl, rfl⟩ := below
      have deeper : ¬ path.length + 1 = depth := by
        simp only [List.length_append, List.length_singleton] at short
        omega
      have nothing : walk child owner (path ++ [index] ++ [last]) = none := by
        have vacant := bottom.resolve_left deeper
        rw [walk_snoc, walk_snoc, reachedTable]
        simp [vacant]
      have longer : path ++ [index] ++ [last] ≠ path ++ [index] := by simp
      rw [if_pos ⟨rfl, rfl⟩, if_neg (fun same => longer same.2), nothing]
      cases value with
      | none => rfl
      | some node => exact (replaces.fresh node rfl).2.resolve_left deeper last
    · -- Elsewhere the step before the last is as it was, unless it meets the changed table.
      rw [if_neg below]
      by_cases atTable : owner = root ∧ rest = path
      · -- The changed table answers with the new pointer at one index.
        obtain ⟨rfl, rfl⟩ := atTable
        rw [reachedTable, walk_snoc, reachedTable]
        by_cases sameIndex : last = index
        · subst sameIndex
          simp [holds]
        · simp [keeps last sameIndex, sameIndex]
      · -- Any other table still has the pointers it had.
        have elsewhere : ¬ (owner = root ∧ rest ++ [last] = path ++ [index]) := by
          rintro ⟨sameRoot, samePath⟩
          exact atTable ⟨sameRoot, (List.append_inj' samePath rfl).1⟩
        rw [if_neg elsewhere, walk_snoc]
        cases reached : walk child owner rest with
        | none => rfl
        | some node =>
          have kept := replaces.others owner member rest (by omega) node reached atTable
          simp [kept]

/-- Separation survives the replacement of one pointer by nothing or by a fresh node. -/
theorem Replaces.separate {root : Node} {path : List Index} {index : Index}
    {value : Option Node} (replaces : Replaces child next depth roots root path index value)
    (separate : Separate child depth roots) : Separate next depth roots := by
  -- A shared node is either shared already or the fresh one, which has a single place.
  intro first memberFirst second memberSecond mine rest node short shortRest reached reachedRest
  rw [replaces.walk_eq memberFirst mine short] at reached
  rw [replaces.walk_eq memberSecond rest shortRest] at reachedRest
  split at reached <;> split at reachedRest
  · rename_i here there
    exact ⟨here.1.trans there.1.symm, here.2.trans there.2.symm⟩
  · exact absurd ⟨rest, shortRest, reachedRest⟩ ((replaces.fresh node reached).1 _ memberSecond)
  · exact absurd ⟨mine, short, reached⟩ ((replaces.fresh node reachedRest).1 _ memberFirst)
  · exact separate memberFirst memberSecond short shortRest reached reachedRest

end Replace

end RadixForest
