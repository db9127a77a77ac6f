import ShiftReduce.Language

/-!
# Defining a language

A program that defines a language makes calls on one definition, which each call changes in
place.  A call may fail, and it is up to the program whether it goes on then or gives up.  If
it goes on, it does so with what the failed call has left of the definition.
-/

namespace ShiftReduce

variable {V E : Type}

/-- Programs that change a definition in place, and fail or return. -/
abbrev Editing (V E : Type) := ExceptT LanguageError (StateM (Definition V E))

namespace Editing

/-- What becomes of a program, and what it leaves of a definition. -/
def on {α : Type} (program : Editing V E α)
    (d : Definition V E) : Except LanguageError α × Definition V E :=
  program.run.run d

/-- Puts a production rule at the end, if its symbols are labels and it is not there yet. -/
def pushRule (rule : Production V) : Editing V E Unit := do
  rule.lhs.verify
  rule.rhs.forM fun symbol => symbol.verify
  if (← get).rules.any rule.sameShape then
    throw (.duplicateRule rule.lhs rule.rhs)
  modify fun d => { d with rules := d.rules ++ [rule] }

/-- Replaces the start symbol by a label. -/
def replaceStart (symbol : Symbol) : Editing V E Unit := do
  symbol.verify
  modify fun d => { d with start := some symbol }

end Editing

/-- A call on a definition. -/
inductive Edit (V E : Type) where
  /-- One more lexical rule. -/
  | lex (rule : LexRule V E)
  /-- One more production rule. -/
  | rule (lhs : Symbol) (rhs : List Symbol)
  /-- One more production rule, with an action. -/
  | ruleWith (lhs : Symbol) (rhs : List Symbol) (action : List V → Except String V)
  /-- One more production rule, by which `lhs` becomes empty. -/
  | emptyRule (lhs : Symbol)
  /-- Another start symbol. -/
  | start (symbol : Symbol)

namespace Edit

/-- What a call does. -/
def perform : Edit V E → Editing V E Unit
  | lex lexRule => modify fun d => { d with lexRules := d.lexRules ++ [lexRule] }
  | rule lhs rhs => Editing.pushRule { lhs, rhs }
  | ruleWith lhs rhs action => Editing.pushRule { lhs, rhs, action := some action }
  | emptyRule lhs => Editing.pushRule { lhs, rhs := [] }
  | start symbol => Editing.replaceStart symbol

/-- Makes calls one after the other, up to the first one that fails. -/
def performAll (edits : List (Edit V E)) : Editing V E Unit :=
  edits.forM perform

/-- Makes calls one after the other, whether they fail or not. -/
def attemptAll (edits : List (Edit V E)) : Editing V E Unit :=
  edits.forM fun edit => tryCatch edit.perform fun _ => pure ()

/-- The calls that do not fail when all of them are made on a definition, one after the
other. -/
def successful (d : Definition V E) : List (Edit V E) → List (Edit V E)
  | [] => []
  | edit :: edits =>
    match edit.perform.on d with
    | (.ok _, d) => edit :: successful d edits
    | (.error _, d) => successful d edits

end Edit

/-- The language that a program defines. -/
def Language.define (program : Editing V E Unit) : Except LanguageError (Language V E) :=
  match program.on .empty with
  | (.ok _, d) => d.complete
  | (.error e, _) => .error e

end ShiftReduce
