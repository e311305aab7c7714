import ConditionalAssignment.Proofs.Tree.Outline
import Mathlib

/-!
# What the lines of an outline draw

The address of a node counts one child after another from the root on.  Ordered
as in a dictionary, the addresses of all nodes put parents before children and
children from left to right.

The outline of a tree draws its nodes in this order, one on each line.  The
title of a node stands behind a connector, which tells whether the node is the
last child of its parent, and behind a margin for each ancestor below the root,
which tells the same of that ancestor.  This is said here of the whole tree and
of an address alone, while the lines are made from the inside out: each line
passes through the blocks of all its ancestors and gets the margin of one in
each.
-/

namespace ConditionalAssignment.Tree

/-! ## Addresses -/

/-- The node at an address, if there is one. -/
def nodeAt? (tree : Tree) : List Nat → Option Tree
  | [] => some tree
  | index :: steps =>
      tree.children[index]?.bind fun child => child.nodeAt? steps

/-- The addresses of all nodes, parents before children. -/
def addresses : Tree → List (List Nat)
  | .node _ children =>
      [] ::
        ((children.map addresses).mapIdx fun index below =>
          below.map (index :: ·)).flatten

@[simp] theorem nodeAt?_nil (tree : Tree) : tree.nodeAt? [] = some tree :=
  rfl

@[simp] theorem nodeAt?_cons
    (label : Option String)
    (children : List Tree)
    (index : Nat)
    (steps : List Nat) :
    (node label children).nodeAt? (index :: steps) =
      children[index]?.bind fun child => child.nodeAt? steps :=
  rfl

/-- Numbering the images of a list is numbering the list. -/
theorem mapIdx_map
    {first second third : Type}
    (toSecond : first → second)
    (toThird : Nat → second → third)
    (items : List first) :
    (items.map toSecond).mapIdx toThird =
      items.mapIdx fun index found => toThird index (toSecond found) := by
  apply List.ext_getElem?
  intro index
  rw [List.getElem?_mapIdx, List.getElem?_mapIdx, List.getElem?_map,
    Option.map_map]
  rfl

/-- Below the root, an address is the number of a child and an address in it. -/
theorem addresses_node (label : Option String) (children : List Tree) :
    (node label children).addresses =
      [] ::
        (children.mapIdx fun index child =>
          child.addresses.map (index :: ·)).flatten := by
  rw [addresses, mapIdx_map]

theorem mem_addresses_cons
    {label : Option String}
    {children : List Tree}
    {index : Nat}
    {steps : List Nat} :
    index :: steps ∈ (node label children).addresses ↔
      ∃ child, children[index]? = some child ∧ steps ∈ child.addresses := by
  rw [addresses_node, List.mem_cons, List.mem_flatten]
  simp only [reduceCtorEq, false_or, List.mem_mapIdx]
  constructor
  · rintro ⟨_, ⟨found, bound, rfl⟩, member⟩
    obtain ⟨_, stepsMember, address_eq⟩ := List.mem_map.mp member
    cases address_eq
    exact ⟨children[index], List.getElem?_eq_getElem bound, stepsMember⟩
  · rintro ⟨child, found, member⟩
    obtain ⟨bound, rfl⟩ := List.getElem?_eq_some_iff.mp found
    exact ⟨_, ⟨index, bound, rfl⟩, List.mem_map_of_mem member⟩

/-- The addresses of a tree are those at which it has a node. -/
theorem mem_addresses_iff {tree : Tree} {address : List Nat} :
    address ∈ tree.addresses ↔ (tree.nodeAt? address).isSome = true := by
  induction address generalizing tree with
  | nil =>
      obtain ⟨label, children⟩ := tree
      simp [addresses_node]
  | cons index steps inductionHypothesis =>
      obtain ⟨label, children⟩ := tree
      rw [mem_addresses_cons, nodeAt?_cons]
      cases children[index]? with
      | none => simp
      | some child => simpa using inductionHypothesis

/-- The addresses behind that of the root all take a step. -/
theorem exists_cons_of_mem_tail_addresses
    {tree : Tree}
    {address : List Nat}
    (member : address ∈ tree.addresses.tail) :
    ∃ index steps, address = index :: steps := by
  obtain ⟨label, children⟩ := tree
  rw [addresses_node, List.tail_cons] at member
  obtain ⟨_, blockMember, addressMember⟩ := List.mem_flatten.mp member
  obtain ⟨index, bound, rfl⟩ := List.mem_mapIdx.mp blockMember
  obtain ⟨steps, _, rfl⟩ := List.mem_map.mp addressMember
  exact ⟨index, steps, rfl⟩

/-- Addresses are listed as in a dictionary, each of them once. -/
theorem pairwise_addresses (tree : Tree) :
    tree.addresses.Pairwise (List.Lex (· < ·)) := by
  induction tree using Tree.induction with
  | node label children inductionHypothesis =>
      have stepBelowRoot :=
        @exists_cons_of_mem_tail_addresses (node label children)
      rw [addresses_node] at stepBelowRoot ⊢
      rw [List.pairwise_cons, List.pairwise_flatten]
      refine ⟨?_, ?_, ?_⟩
      · intro address member
        obtain ⟨index, steps, rfl⟩ := stepBelowRoot member
        exact .nil
      · intro block member
        obtain ⟨index, bound, rfl⟩ := List.mem_mapIdx.mp member
        rw [List.pairwise_map]
        exact (inductionHypothesis _ (List.getElem_mem bound)).imp .cons
      · -- Addresses in different children differ in their first step.
        rw [List.pairwise_iff_getElem]
        intro first second firstBound secondBound isBefore
        rw [List.getElem_mapIdx, List.getElem_mapIdx, List.forall_mem_map]
        intro firstSteps _
        rw [List.forall_mem_map]
        intro secondSteps _
        exact .rel isBefore

/-! ## Lines -/

/-- The label of a node, or what stands in its place. -/
def title (tree : Tree) : String :=
  tree.label.getD untitled

/-- The node at an address is the last child of its parent. -/
def isLastAt (tree : Tree) (address : List Nat) : Bool :=
  match address.getLast?, tree.nodeAt? address.dropLast with
  | some index, some parent => index + 1 = parent.children.length
  | _, _ => false

/-- The addresses of the ancestors of a node, from the outermost on and without
the root. -/
def ancestorsBelowRoot (address : List Nat) : List (List Nat) :=
  address.inits.tail.dropLast

/-- What stands before the title of the node at an address. -/
def indent (tree : Tree) (address : List Nat) : String :=
  String.join
      ((ancestorsBelowRoot address).map fun ancestor =>
        margin (tree.isLastAt ancestor)) ++
    connector (tree.isLastAt address)

/-- The line that draws the node at an address. -/
def lineAt (tree : Tree) : List Nat → String
  | [] => tree.title
  | index :: steps =>
      tree.indent (index :: steps) ++
        ((tree.nodeAt? (index :: steps)).map title).getD ""

theorem ancestorsBelowRoot_cons_cons (index next : Nat) (steps : List Nat) :
    ancestorsBelowRoot (index :: next :: steps) =
      [index] :: (ancestorsBelowRoot (next :: steps)).map (index :: ·) := by
  have nonempty : steps.inits ≠ [] :=
    List.ne_nil_of_mem ((List.mem_inits [] steps).mpr List.nil_prefix)
  unfold ancestorsBelowRoot
  rw [List.inits_cons, List.tail_cons, List.inits_cons, List.tail_cons,
    List.map_cons, List.dropLast_cons_of_ne_nil (by simpa using nonempty),
    List.map_dropLast]

section Child

variable
  {label : Option String}
  {children : List Tree}
  {index : Nat}
  {child : Tree}

theorem isLastAt_singleton :
    (node label children).isLastAt [index] =
      decide (index + 1 = children.length) :=
  rfl

theorem isLastAt_cons_cons
    (found : children[index]? = some child)
    (next : Nat)
    (steps : List Nat) :
    (node label children).isLastAt (index :: next :: steps) =
      child.isLastAt (next :: steps) := by
  simp [isLastAt, found]

theorem indent_singleton :
    (node label children).indent [index] =
      connector (index + 1 = children.length) := by
  rw [indent, isLastAt_singleton]
  exact String.empty_append

/-- Below a child, every indent starts with the margin of that child. -/
theorem indent_cons_cons
    (found : children[index]? = some child)
    (next : Nat)
    (steps : List Nat) :
    (node label children).indent (index :: next :: steps) =
      margin (index + 1 = children.length) ++ child.indent (next :: steps) := by
  have margins_eq :
      ((ancestorsBelowRoot (next :: steps)).map (index :: ·)).map
          (fun ancestor => margin ((node label children).isLastAt ancestor)) =
        (ancestorsBelowRoot (next :: steps)).map fun ancestor =>
          margin (child.isLastAt ancestor) := by
    -- An ancestor below the root of the child takes a step in the child, so it
    -- is the last one there exactly if it is in the whole tree.
    rw [List.map_map]
    apply List.map_congr_left
    intro ancestor member
    have tailMember := List.mem_of_mem_dropLast member
    rw [List.inits_cons, List.tail_cons] at tailMember
    obtain ⟨front, _, rfl⟩ := List.mem_map.mp tailMember
    exact congrArg margin (isLastAt_cons_cons found next front)
  rw [indent, indent, ancestorsBelowRoot_cons_cons, List.map_cons, margins_eq,
    String.join_cons, isLastAt_singleton, isLastAt_cons_cons found,
    String.append_assoc]

theorem lineAt_singleton (found : children[index]? = some child) :
    (node label children).lineAt [index] =
      connector (index + 1 = children.length) ++ child.lineAt [] := by
  simp [lineAt, indent_singleton, found]

theorem lineAt_cons_cons
    (found : children[index]? = some child)
    (next : Nat)
    (steps : List Nat) :
    (node label children).lineAt (index :: next :: steps) =
      margin (index + 1 = children.length) ++ child.lineAt (next :: steps) := by
  rw [lineAt, lineAt, indent_cons_cons found, nodeAt?_cons, found,
    String.append_assoc]
  rfl

/-- The block of a child that hangs below its parent draws the nodes of the
child where they are in the whole tree. -/
theorem hang_lines_child
    (found : children[index]? = some child)
    (lines_eq : child.lines = child.addresses.map child.lineAt) :
    hang (connector (index + 1 = children.length))
        (margin (index + 1 = children.length)) child.lines =
      (child.addresses.map (index :: ·)).map (node label children).lineAt := by
  have stepBelowRoot := @exists_cons_of_mem_tail_addresses child
  have addresses_eq : child.addresses = [] :: child.addresses.tail := by
    cases child
    rw [addresses_node]
    rfl
  rw [lines_eq, addresses_eq, List.map_cons, hang, List.map_cons, List.map_cons,
    lineAt_singleton found, List.map_map, List.map_map]
  -- The first lines agree, and every other one draws a node below the child.
  congr 1
  apply List.map_congr_left
  intro address member
  obtain ⟨next, steps, rfl⟩ := stepBelowRoot member
  exact (lineAt_cons_cons found next steps).symm

end Child

/-- Blocks hang below their parent one after the other, the last one as such. -/
theorem hangAll_eq (blocks : List (List String)) :
    hangAll blocks =
      (blocks.mapIdx fun index block =>
        hang (connector (index + 1 = blocks.length))
          (margin (index + 1 = blocks.length)) block).flatten := by
  induction blocks with
  | nil => rfl
  | cons block others inductionHypothesis =>
      have isLast_eq : others.isEmpty = decide (0 + 1 = others.length + 1) := by
        cases others <;> simp
      rw [hangAll_cons, inductionHypothesis, List.mapIdx_cons,
        List.flatten_cons, List.length_cons, isLast_eq]
      simp only [Nat.add_right_cancel_iff]

/-- The lines of an outline draw the nodes at all addresses, in their order. -/
theorem lines_eq_map_lineAt (tree : Tree) :
    tree.lines = tree.addresses.map tree.lineAt := by
  induction tree using Tree.induction with
  | node label children inductionHypothesis =>
      rw [lines, hangAll_eq, mapIdx_map, addresses_node, List.map_cons,
        List.map_flatten, List.length_map]
      congr 2
      apply List.ext_getElem?
      intro index
      rw [List.getElem?_mapIdx, List.getElem?_map, List.getElem?_mapIdx,
        Option.map_map]
      cases found : children[index]? with
      | none => rfl
      | some child =>
          have lines_eq :=
            inductionHypothesis child (List.mem_of_getElem? found)
          exact congrArg some (hang_lines_child found lines_eq)

/-- The outline of a tree whose labels are lines has as many lines as the tree
has nodes.  They draw the nodes at all addresses of the tree, which are listed
in the order of a dictionary. -/
theorem outline_draws_nodes
    {tree : Tree}
    (areLines : ∀ label ∈ tree.labels, IsLine label) :
    ∃ drawn : List String,
      tree.outline = String.join (drawn.map (· ++ "\n")) ∧
        (∀ line ∈ drawn, IsLine line) ∧
          drawn.length = tree.size ∧
            drawn = tree.addresses.map tree.lineAt ∧
              (∀ address,
                address ∈ tree.addresses ↔
                  (tree.nodeAt? address).isSome = true) ∧
                tree.addresses.Pairwise (List.Lex (· < ·)) := by
  refine ⟨tree.lines, rfl, isLine_of_mem_lines areLines, length_lines tree,
    lines_eq_map_lineAt tree, ?_, pairwise_addresses tree⟩
  intro address
  exact mem_addresses_iff

/-- The first child has neither a label nor children, and the second one has
both. -/
theorem outline_draws_nodes_mixed :
    ∃ tree : Tree, ∃ drawn : List String,
      (∀ label ∈ tree.labels, IsLine label) ∧
        tree.outline = "*\n├── *\n├── b\n│   └── *\n│       └── c\n└── d\n" ∧
          tree.outline = String.join (drawn.map (· ++ "\n")) ∧
            drawn.length = tree.size ∧
              drawn = tree.addresses.map tree.lineAt ∧
                tree.addresses = [[], [0], [1], [1, 0], [1, 0, 0], [2]] ∧
                  tree.lineAt [1, 0, 0] = "│       └── c" := by
  let tree : Tree :=
    .group
      [.group [], .node (some "b") [.group [.leaf "c"]], .leaf "d"]
  have areLines : ∀ label ∈ tree.labels, IsLine label := by
    have labels_eq : tree.labels = ["b", "c", "d"] := by
      cbv
    rw [labels_eq]
    decide
  obtain ⟨drawn, outline_eq, _, length_eq, drawn_eq, _, _⟩ :=
    outline_draws_nodes areLines
  refine ⟨tree, drawn, areLines, ?_, outline_eq, length_eq, drawn_eq, ?_, ?_⟩
  · cbv
  · cbv
  · cbv

end ConditionalAssignment.Tree
