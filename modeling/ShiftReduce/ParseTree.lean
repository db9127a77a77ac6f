import ShiftReduce.Symbol

/-!
# Parse trees

A leaf carries a symbol and the text it was read from; an inner node carries a symbol and
a list of subtrees.  `ParseTree.flatten` lists the nodes in the order they are met from
the top and from the left, with their depths, and `ParseTree.display` shows them in that
order, one on a line.
-/

namespace ShiftReduce

/-- A tree whose leaves carry texts. -/
inductive ParseTree where
  | leaf (kind : Symbol) (text : String)
  | node (kind : Symbol) (children : List ParseTree)

namespace ParseTree

/-- The symbol at the root. -/
def kind : ParseTree → Symbol
  | leaf kind _ => kind
  | node kind _ => kind

/-- Whether the root is a leaf. -/
def isLeaf : ParseTree → Bool
  | leaf _ _ => true
  | node _ _ => false

/-! ### Equality -/

mutual

/-- Equality of trees is decided from the roots down. -/
protected def decEq : (s t : ParseTree) → Decidable (s = t)
  | leaf a x, leaf b y => decidable_of_iff (a = b ∧ x = y) (by simp)
  | leaf _ _, node _ _ => isFalse nofun
  | node _ _, leaf _ _ => isFalse nofun
  | node a xs, node b ys =>
    match decEqForest xs ys with
    | isTrue h => decidable_of_iff (a = b) (by simp [h])
    | isFalse h => isFalse (by simp [h])

/-- Equality of lists of trees is decided tree by tree. -/
def decEqForest : (xs ys : List ParseTree) → Decidable (xs = ys)
  | [], [] => isTrue rfl
  | [], _ :: _ => isFalse nofun
  | _ :: _, [] => isFalse nofun
  | x :: xs, y :: ys =>
    match ParseTree.decEq x y with
    | isFalse h => isFalse (by simp [h])
    | isTrue h =>
      match decEqForest xs ys with
      | isTrue hs => isTrue (by rw [h, hs])
      | isFalse hs => isFalse (by simp [hs])

end

instance : DecidableEq ParseTree := ParseTree.decEq

/-! ### Views -/

/-- A node seen on its own: its depth below the root of the tree it is met in, its symbol
and, if it is a leaf, its text. -/
structure Visit where
  depth : Nat
  kind : Symbol
  text? : Option String

mutual

/-- The nodes of a tree whose root is at the given depth, each before its subtrees, and
these from left to right. -/
def flattenAt (depth : Nat) : ParseTree → List Visit
  | leaf kind text => [⟨depth, kind, some text⟩]
  | node kind children => ⟨depth, kind, none⟩ :: flattenForestAt (depth + 1) children

/-- The nodes of several trees whose roots are at the given depth. -/
def flattenForestAt (depth : Nat) : List ParseTree → List Visit
  | [] => []
  | tree :: trees => flattenAt depth tree ++ flattenForestAt depth trees

end

/-- The nodes of a tree, each before its subtrees, and these from left to right. -/
def flatten (tree : ParseTree) : List Visit :=
  flattenAt 0 tree

/-- A node as a line: two blanks for each level above it, its symbol, and the text of a
leaf in quotes. -/
def Visit.display (visit : Visit) : String :=
  let indent := String.ofList (List.replicate (2 * visit.depth) ' ')
  match visit.text? with
  | some text => s!"{indent}{visit.kind.text} {Text.quoted text}"
  | none => s!"{indent}{visit.kind.text}"

/-- A tree as text, one node on a line. -/
def display (tree : ParseTree) : String :=
  Text.lines (tree.flatten.map Visit.display)

end ParseTree

end ShiftReduce
