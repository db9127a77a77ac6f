import ShiftReduce.Proofs.Parser.Homomorphism
import ShiftReduce.Proofs.Parser.Termination

/-!
# Trees without chains

A tree has a chain where an inner node has exactly one child.  If such nodes are replaced by their
children, from the leaves up, no chain is left and the leaves stay the same.  This is what parses
that build trees without chains make of the trees that other parses build
(`ParseTable.Generated.abstracts_collapsed`): where no rule has an action and no lexeme carries a
value, collapsing is a homomorphism from the one interpretation to the other.
-/

namespace ShiftReduce

namespace ParseTree

/-! ### Collapsing -/

/-- The only tree there is, or else the node with the given subtrees. -/
def join (kind : Symbol) : List ParseTree → ParseTree
  | [tree] => tree
  | trees => node kind trees

mutual

/-- The tree in which each inner node with one child is replaced by its child, from the leaves
up. -/
def collapse : ParseTree → ParseTree
  | leaf kind text => leaf kind text
  | node kind children => join kind (collapseForest children)

/-- Several trees, each of them collapsed. -/
def collapseForest : List ParseTree → List ParseTree
  | [] => []
  | tree :: trees => collapse tree :: collapseForest trees

end

mutual

/-- No inner node has exactly one child. -/
def Unchained : ParseTree → Prop
  | leaf _ _ => True
  | node _ children => children.length ≠ 1 ∧ UnchainedForest children

/-- No inner node of several trees has exactly one child. -/
def UnchainedForest : List ParseTree → Prop
  | [] => True
  | tree :: trees => Unchained tree ∧ UnchainedForest trees

end

theorem collapseForest_eq_map (trees : List ParseTree) :
  collapseForest trees = trees.map collapse
  := by
  induction trees with
  | nil => rfl
  | cons tree trees ih => rw [collapseForest, ih, List.map_cons]

theorem leaves_join (kind : Symbol) (trees : List ParseTree) :
  (join kind trees).leaves = leavesOfForest trees
  := by
  rcases trees with _ | ⟨tree, _ | ⟨tree', trees⟩⟩
  · rfl
  · apply (leavesOfForest_singleton tree).symm
  · rfl

/-- A node is not joined to a chain. -/
theorem unchained_join (kind : Symbol) {trees : List ParseTree} (h : UnchainedForest trees) :
  (join kind trees).Unchained
  := by
  rcases trees with _ | ⟨tree, _ | ⟨tree', trees⟩⟩
  · exact ⟨nofun, h⟩
  · exact h.1
  · exact ⟨by simp, h⟩

/-- Collapsing keeps the leaves of several trees. -/
theorem leavesOfForest_collapseForest (trees : List ParseTree) :
  leavesOfForest (collapseForest trees) = leavesOfForest trees
  := by
  induction trees using forest_induction with
  | nil => rfl
  | leaf kind text trees ih =>
      rw [collapseForest, leavesOfForest, ih, collapse, leavesOfForest]
  | node kind children trees ihchildren ih =>
      rw [collapseForest, leavesOfForest, ih, collapse, leaves_join, ihchildren, leavesOfForest,
        leaves]

/-- Collapsing leaves no chain in several trees. -/
theorem unchainedForest_collapseForest (trees : List ParseTree) :
  UnchainedForest (collapseForest trees)
  := by
  induction trees using forest_induction with
  | nil => trivial
  | leaf kind text trees ih => exact ⟨trivial, ih⟩
  | node kind children trees ihchildren ih => exact ⟨unchained_join kind ihchildren, ih⟩

theorem leaves_collapse (tree : ParseTree) :
  tree.collapse.leaves = tree.leaves
  := by
  rw [← leavesOfForest_singleton, ← leavesOfForest_singleton tree]
  apply leavesOfForest_collapseForest [tree]

theorem unchained_collapse (tree : ParseTree) :
  tree.collapse.Unchained
  := (unchainedForest_collapseForest [tree]).1

theorem collapseForest_of_unchained {trees : List ParseTree} (h : UnchainedForest trees) :
  collapseForest trees = trees
  := by
  induction trees using forest_induction with
  | nil => rfl
  | leaf kind text trees ih => rw [collapseForest, ih h.2, collapse]
  | node kind children trees ihchildren ih =>
      obtain ⟨⟨hlength, hchildren⟩, htrees⟩ := h
      rw [collapseForest, ih htrees, collapse, ihchildren hchildren]
      rcases children with _ | ⟨child, _ | ⟨child', children⟩⟩
      · rfl
      · cases hlength rfl
      · rfl

/-- Collapsing changes exactly the trees with chains. -/
theorem collapse_eq_self_iff {tree : ParseTree} :
  tree.collapse = tree ↔ tree.Unchained
  := by
  constructor
  · intro h
    exact h ▸ unchained_collapse tree
  · intro h
    have hforest : UnchainedForest [tree] := ⟨h, trivial⟩
    apply List.head_eq_of_cons_eq (collapseForest_of_unchained hforest)

end ParseTree

/-! ### Building trees without chains -/

namespace Interpretation

/-- Without an action the value of a reduction is the joined tree. -/
theorem abstractNode_eq_join {rule : Production ParseTree} (h : rule.action = none)
    (children : List ParseTree) :
  abstractNode rule children = .ok (.join rule.lhs children)
  := by
  obtain ⟨lhs, rhs, action⟩ := rule
  obtain rfl : action = none := h
  rcases children with _ | ⟨child, _ | ⟨child', children⟩⟩ <;> rfl

/-- Collapsing is a homomorphism from the interpretation that builds trees to the one that builds
trees without chains, where there are no actions and no values. -/
theorem trees_maps {σ : Type} {rules : List (Production ParseTree)}
    (h : ∀ rule ∈ rules, rule.action = none) :
  (trees (σ := σ)).Maps ParseTree.collapse rules (fun lexeme => lexeme.value = none) abstractTrees
  := by
  constructor
  · intro lexeme context hlexeme
    simp only [abstractTrees, trees, pure, hlexeme]
    rfl
  · intro rule hrule children context
    simp only [abstractTrees, trees, pure, abstractNode_eq_join (h rule hrule),
      ← ParseTree.collapseForest_eq_map]
    rfl

end Interpretation

namespace ParseTable.Generated

section Library

variable [PatternLibrary] {σ E : Type} {p : Parser σ ParseTree E} {strategy : Strategy}

/-- Where no rule has an action and no lexeme carries a value, a parse that builds trees without
chains ends after as many steps as one that builds trees, and in the same context.  Either both
fail with the same error, or the tree of the first one is that of the second one, collapsed: it has
the same leaves, and no inner node with exactly one child. -/
theorem abstracts_collapsed (hp : p.table.Generated strategy)
    (hrules : ∀ rule ∈ p.language.rules, rule.action = none)
    {lexemes : List (Lexeme ParseTree)} (hlexemes : ∀ lexeme ∈ lexemes, lexeme.value = none)
    (context : σ) :
  ∃ n built abstracted,
    (p.interpreted .trees).engine.run n (.initial lexemes context) = some built
      ∧ (p.interpreted .abstractTrees).engine.run n (.initial lexemes context) = some abstracted
      ∧ (p.interpreted .trees).parseLexemes lexemes context = built
      ∧ (p.interpreted .abstractTrees).parseLexemes lexemes context = abstracted
      ∧ abstracted.context = built.context
      ∧ ((∃ e, built.value = .error e ∧ abstracted.value = .error e)
        ∨ ∃ tree, built.value = .ok tree ∧ abstracted.value = .ok tree.collapse
          ∧ tree.collapse.leaves = tree.leaves ∧ tree.collapse.Unchained)
  := by
  have hbuilds : (p.interpreted .trees).table.Generated strategy := hp
  have hsimulates : (p.interpreted .trees).engine.Simulates (p.interpreted .abstractTrees).engine
      (Interpretation.Maps.Image ParseTree.collapse fun lexeme => lexeme.value = none)
      (Parsed.map ParseTree.collapse) :=
    (Interpretation.trees_maps hrules).simulates (fun _ => rfl) p.table
  have hinitial : Interpretation.Maps.Image ParseTree.collapse (fun lexeme => lexeme.value = none)
      (Configuration.initial lexemes context) (.initial lexemes context) :=
    ⟨.initial (fun _ => rfl) hlexemes context, rfl⟩
  obtain ⟨n, hn⟩ := hbuilds.ends_parseLexemes lexemes context
  have hparse : (p.interpreted .abstractTrees).parseLexemes lexemes context
      = ((p.interpreted .trees).parseLexemes lexemes context).map ParseTree.collapse :=
    hsimulates.parse_eq hinitial rfl
  have hrun : (p.interpreted .abstractTrees).engine.run n (.initial lexemes context)
      = some (((p.interpreted .trees).parseLexemes lexemes context).map ParseTree.collapse) := by
    rw [hsimulates.run_eq hinitial, hn]
    rfl
  refine ⟨n, _, _, hn, hrun, rfl, hparse, rfl, ?_⟩
  obtain ⟨e | tree, context'⟩ := (p.interpreted .trees).parseLexemes lexemes context
  · apply Or.inl ⟨e, rfl, rfl⟩
  · apply Or.inr ⟨tree, rfl, rfl, tree.leaves_collapse, tree.unchained_collapse⟩

end Library

/-- The tree of a word of the small language has a chain.  Without it both lexemes are children of
one node. -/
theorem abstracts_collapsed_small :
  ∃ tree,
    (((Parser.small .mergedFirst).interpreted .trees).parseLexemes Language.smallWord ()).value
        = .ok tree
      ∧ (((Parser.small .mergedFirst).interpreted .abstractTrees).parseLexemes
          Language.smallWord ()).value = .ok tree.collapse
      ∧ tree.collapse
        = .node (.label "s") [.leaf (.label "a") "a", .leaf (.label "b") "b"]
  := by
  have hrules : ∀ rule ∈ Language.small.rules, rule.action = none := by decide
  have hlexemes : ∀ lexeme ∈ Language.smallWord, lexeme.value = none := by decide
  have hchain := ((Parser.small .mergedFirst).interpreted .trees).engine.value_of_run
    Language.smallWord () 5
    (v := .node (.label "s")
      [.node (.label "s") [.leaf (.label "a") "a"], .leaf (.label "b") "b"]) (by decide +kernel)
  obtain ⟨-, _, _, -, -, rfl, rfl, -, ⟨e, he, -⟩ | ⟨tree, htree, habstracted, -⟩⟩ :=
    abstracts_collapsed (Parser.small_generated .mergedFirst).table_generated hrules hlexemes ()
  · rw [Parser.parseLexemes, hchain] at he
    cases he
  · refine ⟨tree, htree, habstracted, ?_⟩
    rw [Parser.parseLexemes, hchain] at htree
    cases htree
    rfl

end ParseTable.Generated

end ShiftReduce
