import ShiftReduce.Automaton.Basic
import ShiftReduce.Automaton.Canonical
import ShiftReduce.Automaton.Indexed
import ShiftReduce.Automaton.Merged
import ShiftReduce.Fixpoint
import ShiftReduce.Grammar.Basic
import ShiftReduce.Grammar.BitSet
import ShiftReduce.Grammar.First
import ShiftReduce.Grammar.Passes
import ShiftReduce.Grammar.Registry
import ShiftReduce.Grammar.SetCalls
import ShiftReduce.Grammar.SymbolSet
import ShiftReduce.Grammar.SymbolTable
import ShiftReduce.Item.Basic
import ShiftReduce.Item.Hashed
import ShiftReduce.Item.Passes
import ShiftReduce.Item.Set
import ShiftReduce.Language
import ShiftReduce.Language.Editing
import ShiftReduce.Lexeme
import ShiftReduce.Lexer.Arena
import ShiftReduce.Lexer.Basic
import ShiftReduce.Lexer.Library
import ShiftReduce.Lexer.Matcher
import ShiftReduce.Lexer.Rule
import ShiftReduce.Lexer.Slots
import ShiftReduce.Lexer.StateStack
import ShiftReduce.Lexer.Tokenization
import ShiftReduce.OrderedMap
import ShiftReduce.ParseTree
import ShiftReduce.Parser.Basic
import ShiftReduce.Parser.Engine
import ShiftReduce.Parser.Interpretation
import ShiftReduce.Production
import ShiftReduce.Regex.Basic
import ShiftReduce.Regex.CharSet
import ShiftReduce.Regex.ClassName
import ShiftReduce.Regex.Combination
import ShiftReduce.Regex.Library
import ShiftReduce.Regex.Reader
import ShiftReduce.Regex.Size
import ShiftReduce.Symbol
import ShiftReduce.Table.Action
import ShiftReduce.Table.Basic
import ShiftReduce.Text.Layout
import ShiftReduce.Text.Quoted
import ShiftReduce.Unicode.Addition
import ShiftReduce.Unicode.Age
import ShiftReduce.Unicode.ByteSequence
import ShiftReduce.Unicode.CaseFolding
import ShiftReduce.Unicode.Category
import ShiftReduce.Unicode.CodePoints
import ShiftReduce.Unicode.Property
import ShiftReduce.Unicode.Script
import ShiftReduce.Unicode.Segmentation
import ShiftReduce.Proofs.Grammar.Derivation
import ShiftReduce.Proofs.Grammar.First
import ShiftReduce.Proofs.Grammar.Numbering
import ShiftReduce.Proofs.Grammar.Passes
import ShiftReduce.Proofs.Grammar.Proper
import ShiftReduce.Proofs.Grammar.Registration
import ShiftReduce.Proofs.Grammar.Registry
import ShiftReduce.Proofs.Grammar.Narrowing
import ShiftReduce.Proofs.Grammar.Renumbering
import ShiftReduce.Proofs.Grammar.Renaming
import ShiftReduce.Proofs.Grammar.Rewriting
import ShiftReduce.Proofs.Grammar.FiniteSets
import ShiftReduce.Proofs.Grammar.SetCalls
import ShiftReduce.Proofs.Grammar.BitSet
import ShiftReduce.Proofs.Language.Definable
import ShiftReduce.Proofs.Language.Editing
import ShiftReduce.Proofs.Language.Renaming
import ShiftReduce.Proofs.Lexer.Slots
import ShiftReduce.Proofs.Lexer.Arena
import ShiftReduce.Proofs.Lexer.Tiling
import ShiftReduce.Proofs.Lexer.Exclusivity
import ShiftReduce.Proofs.Lexer.Nesting
import ShiftReduce.Proofs.Lexer.Precedence
import ShiftReduce.Proofs.Regex.Language
import ShiftReduce.Proofs.Regex.Places
import ShiftReduce.Proofs.Regex.Ways
import ShiftReduce.Proofs.Regex.Search
import ShiftReduce.Proofs.Regex.Anchored
import ShiftReduce.Proofs.Regex.Combination
import ShiftReduce.Proofs.Regex.Closing
import ShiftReduce.Proofs.Regex.ClosingClass
import ShiftReduce.Proofs.Regex.ClosingParts
import ShiftReduce.Proofs.Regex.Reading
import ShiftReduce.Proofs.Regex.Enclosing
import ShiftReduce.Proofs.Regex.Library
import ShiftReduce.Proofs.Lexer.Anchoring
import ShiftReduce.Proofs.Lexer.Munch
import ShiftReduce.Proofs.Item.Closure
import ShiftReduce.Proofs.Item.Facts
import ShiftReduce.Proofs.Item.Passes
import ShiftReduce.Proofs.Item.Least
import ShiftReduce.Proofs.Item.Union
import ShiftReduce.Proofs.Item.Hashed
import ShiftReduce.Proofs.Item.Built
import ShiftReduce.Proofs.Item.Comparison
import ShiftReduce.Proofs.Item.Join
import ShiftReduce.Proofs.Automaton.Viable
import ShiftReduce.Proofs.Automaton.Faithful
import ShiftReduce.Proofs.Automaton.Canonical
import ShiftReduce.Proofs.Automaton.Indexed
import ShiftReduce.Proofs.Automaton.Merged
import ShiftReduce.Proofs.Automaton.Quotient
import ShiftReduce.Proofs.Automaton.Renumbering
import ShiftReduce.Proofs.Automaton.WellFormed
import ShiftReduce.Proofs.Automaton.Consistency
import ShiftReduce.Proofs.Table.Actions
import ShiftReduce.Proofs.Table.Driving
import ShiftReduce.Proofs.Table.Collection
import ShiftReduce.Proofs.Table.Conflicts
import ShiftReduce.Proofs.Table.Competition
import ShiftReduce.Proofs.Table.Construction
import ShiftReduce.Proofs.Table.Merging
import ShiftReduce.Proofs.Table.Renumbering
import ShiftReduce.Proofs.Parser.Reduction
import ShiftReduce.Proofs.Parser.Halting
import ShiftReduce.Proofs.Parser.DerivationTree
import ShiftReduce.Proofs.Parser.Completeness
import ShiftReduce.Proofs.Parser.Soundness
import ShiftReduce.Proofs.Parser.EndOfInput
import ShiftReduce.Proofs.Parser.Admission
import ShiftReduce.Proofs.Parser.Agreement
import ShiftReduce.Proofs.Parser.Course
import ShiftReduce.Proofs.Parser.Trace
import ShiftReduce.Proofs.Parser.Evaluation
import ShiftReduce.Proofs.Parser.Sentence
import ShiftReduce.Proofs.Parser.Termination
import ShiftReduce.Proofs.Parser.Building
import ShiftReduce.Proofs.Parser.Folding
import ShiftReduce.Proofs.Parser.Detection
import ShiftReduce.Proofs.Parser.ValidPrefix
import ShiftReduce.Proofs.Parser.Simulation
import ShiftReduce.Proofs.Parser.Renaming
import ShiftReduce.Proofs.Parser.ImpliedEnd
import ShiftReduce.Proofs.Parser.Homomorphism
import ShiftReduce.Proofs.Parser.Collapsing
