import ShiftReduce.Grammar.First
import ShiftReduce.Grammar.SymbolTable
import ShiftReduce.Language

/-!
# Grammars

A grammar is made from a language by numbering its symbols.  The two reserved symbols come
first, then the symbols of the rules as they are met from the first rule on.  Besides the
rules of the language there is the accepting rule, which expands the reserved start symbol
to the start symbol of the language.
-/

namespace ShiftReduce

/-! ### Classes of symbols -/

/-- The symbols of a list of rules, in the order in which they are met: those that some
rule expands, and the others. -/
structure SymbolClasses where
  nonterminals : SymbolTable
  terminals : SymbolTable

namespace SymbolClasses

/-- The symbols that are left-hand sides, and the other symbols of right-hand sides. -/
def ofRules {V : Type} (rules : List (Production V)) : SymbolClasses :=
  let nonterminals := SymbolTable.ofList (rules.map Production.lhs)
  let others := (rules.flatMap Production.rhs).filter (! nonterminals.contains ·)
  { nonterminals, terminals := SymbolTable.ofList others }

/-- The kind of a symbol, if it occurs in some rule. -/
def kind? (c : SymbolClasses) (s : Symbol) : Option SymbolKind :=
  if c.nonterminals.contains s then some .nonterminal
  else if c.terminals.contains s then some .terminal
  else none

end SymbolClasses

/-! ### Rule numbers -/

/-- A rule of a grammar: the accepting rule, or a rule of the language by its place. -/
inductive RuleId where
  | accept
  | user (index : Nat)
  deriving DecidableEq

namespace RuleId

/-- The number of different places a rule number can name. -/
def capacity : Nat := 65536

/-- The rule at a place in the language.  Places are counted modulo the capacity. -/
def ofIndex (index : Nat) : RuleId :=
  user (index % capacity)

/-- The place of a rule in the language. -/
def index? : RuleId → Option Nat
  | accept => none
  | user index => some index

/-- The place of a rule among all rules, the accepting one being the first. -/
def rank : RuleId → Nat
  | accept => 0
  | user index => index + 1

/-- A rule number as text. -/
def text : RuleId → String
  | accept => "-1"
  | user index => Nat.repr index

theorem rank_injective {r s : RuleId} (h : r.rank = s.rank) :
  r = s
  := by cases r <;> cases s <;> simp_all [rank]

end RuleId

/-! ### Grammars -/

/-- Why a language makes no grammar. -/
inductive GrammarError where
  /-- No rule expands the start symbol. -/
  | startNotNonterminal (symbol : Symbol)
  /-- There are more symbols than numbers for them. -/
  | tooManySymbols
  /-- There are more rules than numbers for them. -/
  | tooManyRules
  deriving DecidableEq

/-- The wording of an error. -/
def GrammarError.message : GrammarError → String
  | startNotNonterminal symbol =>
    s!"the start symbol `{symbol.text}' is not defined by any rule"
  | tooManySymbols => "too many symbols"
  | tooManyRules => "too many rules"

/-- A symbol that does not occur in the grammar. -/
structure UnknownSymbol where
  symbol : Symbol

/-- The wording of an error. -/
def UnknownSymbol.message (e : UnknownSymbol) : String :=
  s!"the symbol `{e.symbol.text}' does not occur in the grammar"

/-- The number of the end of the input. -/
def endOfInputId : SymbolId := 0

/-- The number of the left-hand side of the accepting rule. -/
def startId : SymbolId := 1

/-- The kinds of symbols by their numbers: the reserved start symbol and the left-hand sides
of the rules are nonterminals, and all other symbols are terminals. -/
def kindsOf (size : Nat) (rules : Array Rule) : Array SymbolKind :=
  rules.foldl (fun kinds r => kinds.setIfInBounds r.lhs .nonterminal)
    ((Array.replicate size .terminal).setIfInBounds startId .nonterminal)

/-- The accepting rule of a grammar with the given start symbol. -/
def acceptingRule (start : SymbolId) : Rule :=
  ⟨startId, [start]⟩

/-- A numbering of the symbols of a language, and its rules and its start symbol as
numbers.  The kinds of the symbols and the first sets are those that the rules make. -/
structure Grammar where
  symbols : SymbolTable
  rules : Array Rule
  start : SymbolId
  kinds : Array SymbolKind := kindsOf symbols.size rules
  firstSets : FirstSets := FirstSets.compute kinds (acceptingRule start :: rules.toList)
  kinds_eq : kinds = kindsOf symbols.size rules := by rfl
  firstSets_eq :
    firstSets = FirstSets.compute kinds (acceptingRule start :: rules.toList) := by rfl

namespace Grammar

/-- The table of the two reserved symbols. -/
def reservedSymbols : SymbolTable :=
  SymbolTable.ofList [.endOfInput, .start]

/-- The greatest number of symbols of a grammar, the reserved ones included. -/
def maxSymbols : Nat := 65536

/-- A grammar has fewer rules than this, the accepting one not counted. -/
def ruleLimit : Nat := 65534

/-- The rules on numbered symbols, and the table that gives the numbers. -/
def numberRules {V : Type} (rules : List (Production V)) : SymbolTable × Array Rule :=
  rules.foldl
    (fun (table, numbered) rule =>
      let (table, lhs) := table.intern rule.lhs
      let (table, rhs) := table.internMany rule.rhs
      (table, numbered.push ⟨lhs, rhs⟩))
    (reservedSymbols, #[])

/-- The grammar of a language. -/
def ofLanguage {V E : Type} (language : Language V E) : Except GrammarError Grammar := do
  unless language.rules.any (·.lhs = language.start) do
    throw (.startNotNonterminal language.start)
  let (table, rules) := numberRules language.rules
  if table.size > maxSymbols then
    throw .tooManySymbols
  if rules.size ≥ ruleLimit then
    throw .tooManyRules
  let (symbols, start) := table.intern language.start
  return { symbols, rules, start }

/-! ### Symbols -/

/-- The number of symbols. -/
def symbolCount (g : Grammar) : Nat :=
  g.symbols.size

/-- The numbers of all symbols. -/
def symbolIds (g : Grammar) : List SymbolId :=
  List.range g.symbolCount

/-- The number of a symbol. -/
def symbolId? (g : Grammar) (s : Symbol) : Option SymbolId :=
  g.symbols.id? s

/-- The kind of a symbol; a number without a symbol counts as a terminal. -/
def kind (g : Grammar) (i : SymbolId) : SymbolKind :=
  g.kinds[i]?.getD .terminal

/-- Whether a symbol is a terminal. -/
def isTerminal (g : Grammar) (i : SymbolId) : Bool :=
  g.kind i = .terminal

/-- Whether a symbol is a nonterminal. -/
def isNonterminal (g : Grammar) (i : SymbolId) : Bool :=
  g.kind i = .nonterminal

/-- The numbers of the terminals. -/
def terminals (g : Grammar) : List SymbolId :=
  g.symbolIds.filter g.isTerminal

/-- The numbers of the nonterminals. -/
def nonterminals (g : Grammar) : List SymbolId :=
  g.symbolIds.filter g.isNonterminal

/-- The text of the symbol with a number, or the number where there is none. -/
def symbolText (g : Grammar) (i : SymbolId) : String :=
  match g.symbols.symbol? i with
  | some s => s.text
  | none => s!"#{i}"

/-! ### Rules -/

/-- The rule that expands the reserved start symbol. -/
def accept (g : Grammar) : Rule :=
  acceptingRule g.start

/-- The rule with a number. -/
def rule? (g : Grammar) : RuleId → Option Rule
  | .accept => some g.accept
  | .user index => g.rules[index]?

/-- All rules with their numbers, the accepting one first. -/
def numberedRules (g : Grammar) : List (RuleId × Rule) :=
  (.accept, g.accept) :: g.rules.toList.mapIdx fun i r => (.user i, r)

/-- The rules that expand a symbol, in the order of their numbers. -/
def rulesFor (g : Grammar) (lhs : SymbolId) : List RuleId :=
  g.numberedRules.filterMap fun (id, r) => if r.lhs = lhs then some id else none

/-! ### First sets -/

/-- Whether the empty sequence is derived from a symbol. -/
def isNullable (g : Grammar) (i : SymbolId) : Bool :=
  g.firstSets.isNullable i

/-- The terminals that begin what is derived from a symbol. -/
def first (g : Grammar) (i : SymbolId) : SymbolSet :=
  g.firstSets.first i

/-- The terminals that begin what is derived from a sequence of symbols, provided that all
of them occur in the grammar. -/
def firstOf (g : Grammar) (sequence : List Symbol) : Except UnknownSymbol SymbolSet := do
  let ids ← sequence.mapM fun s =>
    match g.symbolId? s with
    | some i => .ok i
    | none => .error ⟨s⟩
  return g.firstSets.ofSequence ids ∅

/-! ### Text -/

/-- A rule as text. -/
def ruleText (g : Grammar) (r : Rule) : String :=
  g.symbolText r.lhs ++ " :=" ++ String.join (r.rhs.map fun i => " " ++ g.symbolText i)

/-- A grammar as text: its terminals, its nonterminals and its rules. -/
def display (g : Grammar) : String :=
  Text.line "## terminals:" ++
  Text.lines (g.terminals.map g.symbolText) ++
  Text.line "" ++
  Text.line "## nonterminals:" ++
  Text.lines (g.nonterminals.map fun i =>
    g.symbolText i ++ if g.isNullable i then " (nullable)" else "") ++
  Text.line "" ++
  Text.line "## rules:" ++
  Text.lines (g.numberedRules.map fun (id, r) => s!"{id.text}: {g.ruleText r}")

end Grammar

end ShiftReduce
