import ShiftReduce.Grammar.Basic
import ShiftReduce.OrderedMap

/-!
# Registries

A registry numbers the symbols and the rules of a language with 16 bits.  The symbols are
entered one by one as they are met, each with its kind when it is met for the first time.
The rules come next, and then the numbers of the rules by their left-hand sides.  The
accepting rule has the number 0, and the rule at a place of the language has the number
after that place.
-/

namespace ShiftReduce

/-- A rule on numbers of symbols with 16 bits. -/
structure RegisteredRule where
  lhs : UInt16
  rhs : List UInt16
  deriving DecidableEq

/-- Why a language is not registered. -/
inductive RegistryError where
  /-- The language makes no grammar. -/
  | grammar (error : GrammarError)
  /-- A symbol that is entered occurs in no rule. -/
  | unclassified (symbol : Symbol)

/-- The symbols that have been entered, and their kinds. -/
structure Registration where
  symbols : SymbolTable
  kinds : Array SymbolKind

namespace Registration

/-- Programs that enter symbols, and fail or return. -/
abbrev Registering := StateT Registration (Except RegistryError)

/-- The two reserved symbols. -/
def reserved : Registration where
  symbols := Grammar.reservedSymbols
  kinds := #[.terminal, .nonterminal]

/-- The number of a symbol.  A symbol that is met for the first time is entered with its
kind. -/
def enter (classes : SymbolClasses) (symbol : Symbol) : Registering UInt16 := do
  let registered ← get
  let (symbols, index) := registered.symbols.intern symbol
  unless registered.symbols.contains symbol do
    match classes.kind? symbol with
    | some kind => set { symbols, kinds := registered.kinds.push kind : Registration }
    | none => throw (.unclassified symbol)
  unless index < UInt16.size do
    throw (.grammar .tooManySymbols)
  return .ofNat index

/-- The numbers of the symbols of a rule. -/
def enterRule {V : Type} (classes : SymbolClasses) (rule : Production V) :
    Registering RegisteredRule := do
  let lhs ← enter classes rule.lhs
  let rhs ← rule.rhs.mapM (enter classes)
  return { lhs, rhs }

end Registration

/-! ### Numbers of rules -/

namespace RuleNumber

/-- The number of the accepting rule. -/
def accept : UInt16 := 0

/-- The number of the rule at a place of the language. -/
def ofIndex (index : Nat) : UInt16 :=
  .ofNat index + 1

/-- The place of a rule in the language. -/
def index? (number : UInt16) : Option Nat :=
  if number = accept then none else some (number - 1).toNat

end RuleNumber

/-- The numbers of rules by their left-hand sides, in the order of the numbers. -/
def indexRules (accept : RegisteredRule) (rules : List RegisteredRule) :
    OrderedMap UInt16 (List UInt16) :=
  let add (m : OrderedMap UInt16 (List UInt16)) (lhs number : UInt16) :=
    m.alter lhs fun numbers => numbers.getD [] ++ [number]
  rules.zipIdx.foldl (fun m (rule, index) => add m rule.lhs (RuleNumber.ofIndex index))
    (add ∅ accept.lhs RuleNumber.accept)

/-! ### Registries -/

/-- The symbols of a language with their kinds, and its rules, by numbers of 16 bits. -/
structure Registry where
  symbols : SymbolTable
  kinds : Array SymbolKind
  rules : Array RegisteredRule
  accept : RegisteredRule
  rulesByLhs : OrderedMap UInt16 (List UInt16)

namespace Registry

/-- The registry of a language. -/
def ofLanguage {V E : Type} (language : Language V E) : Except RegistryError Registry := do
  let classes := SymbolClasses.ofRules language.rules
  unless classes.nonterminals.contains language.start do
    throw (.grammar (.startNotNonterminal language.start))
  let (rules, registered) ← (language.rules.mapM (Registration.enterRule classes)).run .reserved
  if rules.length ≥ Grammar.ruleLimit then
    throw (.grammar .tooManyRules)
  let (start, registered) ← (Registration.enter classes language.start).run registered
  let accept : RegisteredRule := { lhs := 1, rhs := [start] }
  return { symbols := registered.symbols, kinds := registered.kinds, rules := rules.toArray,
           accept, rulesByLhs := indexRules accept rules }

/-- The number of symbols. -/
def symbolCount (r : Registry) : Nat :=
  r.symbols.size

/-- The number of a symbol. -/
def symbolNumber? (r : Registry) (s : Symbol) : Option UInt16 :=
  (r.symbols.id? s).map UInt16.ofNat

/-- The symbol with a number. -/
def symbol? (r : Registry) (x : UInt16) : Option Symbol :=
  r.symbols.symbol? x.toNat

/-- The kind of the symbol with a number. -/
def kind? (r : Registry) (x : UInt16) : Option SymbolKind :=
  r.kinds[x.toNat]?

/-- The rule with a number. -/
def rule? (r : Registry) (number : UInt16) : Option RegisteredRule :=
  match RuleNumber.index? number with
  | none => some r.accept
  | some index => r.rules[index]?

/-- The numbers of the rules that expand a symbol, in the order of the rules. -/
def rulesFor (r : Registry) (lhs : UInt16) : List UInt16 :=
  (r.rulesByLhs.get? lhs).getD []

/-- The symbols that a rule is about. -/
def decode? (r : Registry) (rule : RegisteredRule) : Option (Symbol × List Symbol) := do
  return (← r.symbol? rule.lhs, ← rule.rhs.mapM r.symbol?)

end Registry

end ShiftReduce
