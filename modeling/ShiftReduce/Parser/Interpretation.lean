import ShiftReduce.Lexeme
import ShiftReduce.ParseTree
import ShiftReduce.Production

/-!
# Interpretations

An interpretation gives values to what a parse does: to each lexeme that is read, and to
each rule that is reduced by, from the values of its right-hand side.  It may fail with a
message.  It also threads a context of a type `σ` through its calls, which it hands on
whether it fails or not.

There are interpretations that build trees, and those that run the actions of the rules.
-/

namespace ShiftReduce

/-- A way to give values to lexemes and to reductions, from one context to the next. -/
structure Interpretation (σ V : Type) where
  /-- The value of a lexeme. -/
  terminal : Lexeme V → σ → Except String V × σ
  /-- The value of a reduction by a rule, from the values of its right-hand side. -/
  nonterminal : Production V → List V → σ → Except String V × σ

/-- A call of an interpretation. -/
inductive Call (V : Type) where
  | terminal (lexeme : Lexeme V)
  | nonterminal (rule : Production V) (children : List V)

namespace Interpretation

variable {σ V : Type}

/-- The interpretation that leaves the context alone. -/
def pure (terminal : Lexeme V → Except String V)
    (nonterminal : Production V → List V → Except String V) : Interpretation σ V where
  terminal lexeme context := (terminal lexeme, context)
  nonterminal rule children context := (nonterminal rule children, context)

/-- The interpretation that tells `note` of each call before it makes it.  A call is not
made if `note` answers with a message, and fails with that message instead. -/
def watched (note : Call V → σ → Option String × σ) (inner : Interpretation σ V) :
    Interpretation σ V where
  terminal lexeme context :=
    match note (.terminal lexeme) context with
    | (some message, context) => (.error message, context)
    | (none, context) => inner.terminal lexeme context
  nonterminal rule children context :=
    match note (.nonterminal rule children) context with
    | (some message, context) => (.error message, context)
    | (none, context) => inner.nonterminal rule children context

/-! ### Trees -/

/-- A leaf for each lexeme and a node for each reduction. -/
def trees : Interpretation σ ParseTree :=
  pure (fun lexeme => .ok (.leaf lexeme.symbol lexeme.text))
    (fun rule children => .ok (.node rule.lhs children))

/-- The value of a reduction in a tree without chains: the action of the rule is run if
there is one, and a tree that stands alone on the right-hand side is taken as it is. -/
def abstractNode (rule : Production ParseTree) (children : List ParseTree) :
    Except String ParseTree :=
  match rule.action, children with
  | some action, children => action children
  | none, [child] => .ok child
  | none, children => .ok (.node rule.lhs children)

/-- Trees without chains.  The values that lexemes carry take the place of leaves. -/
def abstractTrees : Interpretation σ ParseTree :=
  pure (fun lexeme => .ok (lexeme.value.getD (.leaf lexeme.symbol lexeme.text))) abstractNode

end Interpretation

/-! ### Actions -/

/-- What is needed besides the actions of the rules: the values of lexemes that carry none,
from their symbols and texts, and the value of empty reductions by rules without actions,
if they have one. -/
structure RuleActions (V : Type) where
  terminal : Symbol → String → Except String V
  empty : Option (Except String V) := none

namespace RuleActions

variable {σ V : Type}

/-- The value of every lexeme is its text. -/
def texts : RuleActions String where
  terminal _ text := .ok text

/-- Rule actions as text, which shows nothing of them. -/
def inspect (_ : RuleActions V) : String :=
  Text.partialRecord "RuleActions" []

/-- The value of a lexeme. -/
def ofLexeme (actions : RuleActions V) (lexeme : Lexeme V) : Except String V :=
  match lexeme.value with
  | some value => .ok value
  | none => actions.terminal lexeme.symbol lexeme.text

/-- The value of a reduction.  A rule without an action passes the value of its right-hand
side on if there is exactly one. -/
def ofReduction (actions : RuleActions V) (rule : Production V) (children : List V) :
    Except String V :=
  match rule.action, children, actions.empty with
  | some action, children, _ => action children
  | none, [child], _ => .ok child
  | none, [], some value => value
  | none, _, _ => .error s!"no action for rule `{rule.text}'"

/-- The interpretation that runs the actions of the rules. -/
def interpretation (actions : RuleActions V) : Interpretation σ V :=
  .pure actions.ofLexeme actions.ofReduction

end RuleActions

end ShiftReduce
