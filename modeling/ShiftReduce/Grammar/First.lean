import ShiftReduce.Fixpoint
import ShiftReduce.Grammar.SymbolSet

/-!
# Nullable symbols and first sets

A symbol is nullable when the rules derive the empty sequence from it.  The first set of a
symbol holds the terminals that begin the sequences derived from it.  Both are least
solutions of conditions on the rules, and they are reached from below: a round goes through
all rules once, and the rounds end when one of them changes nothing.
-/

namespace ShiftReduce

/-- A symbol is expanded by the rules or stands for itself. -/
inductive SymbolKind where
  | terminal
  | nonterminal
  deriving DecidableEq

/-- A production rule on numbered symbols. -/
structure Rule where
  lhs : SymbolId
  rhs : List SymbolId
  deriving DecidableEq

/-! ### Nullable symbols -/

/-- One round: the left-hand side of each rule joins once all symbols of the right-hand
side have. -/
def nullableRound (rules : List Rule) (s : SymbolSet) : SymbolSet :=
  rules.foldl (fun s r => if r.rhs.all s.contains then s.insert r.lhs else s) s

/-- The symbols from which the rules derive the empty sequence.  Each round but the last adds
a left-hand side, so there are no more rounds than rules, and one. -/
def nullableSymbols (rules : List Rule) : SymbolSet :=
  stabilize (nullableRound rules) (rules.length + 1) ∅

/-! ### First sets -/

/-- The nullable symbols and, by the number of a symbol, its first set. -/
structure FirstSets where
  nullable : SymbolSet
  sets : Array SymbolSet
  deriving DecidableEq

namespace FirstSets

/-- The first set of a symbol. -/
def first (f : FirstSets) (i : SymbolId) : SymbolSet :=
  f.sets[i]?.getD ∅

/-- Whether a symbol is nullable. -/
def isNullable (f : FirstSets) (i : SymbolId) : Bool :=
  f.nullable.contains i

/-- The terminals that begin what is derived from a sequence of symbols, together with
`lookaheads` if the whole sequence is nullable. -/
def ofSequence (f : FirstSets) (sequence : List SymbolId) (lookaheads : SymbolSet) :
    SymbolSet :=
  match sequence with
  | [] => lookaheads
  | i :: rest =>
    if f.isNullable i then f.first i ∪ f.ofSequence rest lookaheads else f.first i

/-- The first sets before any rule has been considered: a terminal begins with itself. -/
def initial (kinds : Array SymbolKind) (rules : List Rule) : FirstSets where
  nullable := nullableSymbols rules
  sets := kinds.mapIdx fun i kind =>
    match kind with
    | .terminal => SymbolSet.singleton i
    | .nonterminal => ∅

/-- What begins the right-hand side of a rule begins the left-hand side. -/
def extend (f : FirstSets) (r : Rule) : FirstSets :=
  { f with sets := f.sets.modify r.lhs (· ∪ f.ofSequence r.rhs ∅) }

/-- One round: each rule in turn extends the first set of its left-hand side. -/
def round (rules : List Rule) (f : FirstSets) : FirstSets :=
  rules.foldl extend f

/-- The first sets of symbols of the given kinds, which are those of the symbols by their
numbers.  Each round but the last adds a member to some set, so there are no more rounds
than pairs of symbols, and one. -/
def compute (kinds : Array SymbolKind) (rules : List Rule) : FirstSets :=
  stabilize (round rules) (kinds.size * kinds.size + 1) (initial kinds rules)

end FirstSets

end ShiftReduce
