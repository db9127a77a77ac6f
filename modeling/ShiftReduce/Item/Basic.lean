import ShiftReduce.Grammar.Basic

/-!
# Items

An item is a rule with a dot somewhere in its right-hand side, and a set of lookaheads: the
symbols before the dot have been read, and one of the lookaheads may follow once the rest
has been.  The rule and the place of the dot are the core of the item.
-/

namespace ShiftReduce

/-! ### Cores -/

/-- A rule and the number of symbols of its right-hand side that are before the dot. -/
structure Core where
  rule : RuleId
  dot : Nat
  deriving DecidableEq

namespace Core

/-- Cores are ordered by their rules, the accepting one being the first, and then by their
dots. -/
protected def lt (a b : Core) : Prop :=
  a.rule.rank < b.rule.rank ∨ a.rule.rank = b.rule.rank ∧ a.dot < b.dot

instance : LT Core := ⟨Core.lt⟩

instance (a b : Core) : Decidable (a < b) :=
  inferInstanceAs (Decidable (_ ∨ _))

theorem lt_def {a b : Core} :
  a < b ↔ a.rule.rank < b.rule.rank ∨ a.rule.rank = b.rule.rank ∧ a.dot < b.dot
  := Iff.rfl

theorem lt_irrefl (a : Core) :
  ¬ a < a
  := by
  rw [lt_def]
  omega

theorem lt_trans {a b c : Core} (hab : a < b) (hbc : b < c) :
  a < c
  := by
  rw [lt_def] at *
  omega

theorem lt_of_not_lt {a b : Core} (h : ¬ a < b) (hne : a ≠ b) :
  b < a
  := by
  have hcases : a.rule.rank = b.rule.rank → a.dot ≠ b.dot := by
    intro hrank hdot
    apply hne
    obtain ⟨r, d⟩ := a
    obtain ⟨r', d'⟩ := b
    obtain rfl := RuleId.rank_injective hrank
    simp_all
  rw [lt_def] at *
  omega

end Core

/-! ### Items -/

/-- A core with its lookaheads. -/
structure Item where
  core : Core
  lookaheads : SymbolSet
  deriving DecidableEq

/-- Why there is no such item. -/
inductive ItemError where
  /-- The grammar has no such rule. -/
  | ruleOutOfRange (rule : RuleId)
  /-- The right-hand side of the rule has fewer symbols than should be before the dot. -/
  | dotOutOfRange (rule : RuleId) (dot length : Nat)
  /-- An item has at least one lookahead. -/
  | emptyLookaheads (rule : RuleId) (dot : Nat)
  /-- Only items with the same core are merged. -/
  | coreMismatch
  deriving DecidableEq

/-- The wording of an error. -/
def ItemError.message : ItemError → String
  | ruleOutOfRange rule => s!"rule id {rule.text} is out of range"
  | dotOutOfRange rule dot length =>
    s!"dot index {dot} is past the end of rule {rule.text} (length {length})"
  | emptyLookaheads rule dot => s!"item ({rule.text}, {dot}) has no lookahead symbols"
  | coreMismatch => "cannot merge items with different LR(0) cores"

namespace Item

/-- The item with the given parts, if the grammar has such a rule, the rule is long enough
for the dot, and there is a lookahead. -/
def make (g : Grammar) (rule : RuleId) (dot : Nat) (lookaheads : SymbolSet) :
    Except ItemError Item :=
  match g.rule? rule with
  | none => .error (.ruleOutOfRange rule)
  | some r =>
    if dot > r.rhs.length then .error (.dotOutOfRange rule dot r.rhs.length)
    else if lookaheads.isEmpty then .error (.emptyLookaheads rule dot)
    else .ok ⟨⟨rule, dot⟩, lookaheads⟩

/-- The symbols after the dot. -/
def remaining (g : Grammar) (item : Item) : List SymbolId :=
  match g.rule? item.core.rule with
  | some r => r.rhs.drop item.core.dot
  | none => []

/-- The symbol right after the dot. -/
def next? (g : Grammar) (item : Item) : Option SymbolId :=
  (item.remaining g).head?

/-- Whether the rule is one of the grammar and no symbol is after the dot. -/
def isComplete (g : Grammar) (item : Item) : Bool :=
  (g.rule? item.core.rule).isSome && (item.remaining g).isEmpty

/-- The item with the dot moved over one symbol. -/
def advance (item : Item) : Item :=
  ⟨⟨item.core.rule, item.core.dot + 1⟩, item.lookaheads⟩

/-- The item with the lookaheads of both, if they have the same core. -/
def merge (a b : Item) : Except ItemError Item :=
  if a.core = b.core then .ok ⟨a.core, a.lookaheads ∪ b.lookaheads⟩
  else .error .coreMismatch

/-- The items that an item calls for: when the symbol after the dot is a nonterminal, its
rules with the dot at the front, followed by what can follow that symbol in the item. -/
def predicted (g : Grammar) (item : Item) : List Item :=
  match item.remaining g with
  | [] => []
  | y :: rest =>
    if g.isNonterminal y then
      let lookaheads := g.firstSets.ofSequence rest item.lookaheads
      (g.rulesFor y).map fun r => ⟨⟨r, 0⟩, lookaheads⟩
    else
      []

/-- The right-hand side of a rule as text, with the dot in its place. -/
def dottedText (g : Grammar) (rhs : List SymbolId) (dot : Nat) : String :=
  let symbols := rhs.map fun i => " " ++ g.symbolText i
  if dot ≤ rhs.length then
    String.join (symbols.take dot) ++ " ." ++ String.join (symbols.drop dot)
  else
    String.join symbols

/-- An item as text. -/
def display (g : Grammar) (item : Item) : String :=
  match g.rule? item.core.rule with
  | none => s!"(<unknown rule {item.core.rule.text}>)"
  | some r =>
    "(" ++ g.symbolText r.lhs ++ " :=" ++ dottedText g r.rhs item.core.dot ++ ") [" ++
      Text.joined " " (item.lookaheads.members.map g.symbolText) ++ "]"

end Item

end ShiftReduce
