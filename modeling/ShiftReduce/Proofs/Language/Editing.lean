import Mathlib.Data.List.Nodup
import ShiftReduce.Language.Editing
import ShiftReduce.Proofs.Language.Definable

/-!
# Definitions survive failed calls

A call on a definition that fails has changed nothing: the checks all come before the first change
(`Edit.perform_on`).  So a program that goes on after calls that failed defines what it would define
without them, and the calls that are left are all recorded in the language, in their order
(`Language.define_survives`).  The languages that programs define are the definable ones
(`Language.definable_iff`).
-/

namespace ShiftReduce

variable {V E : Type}

/-! ### Programs -/

namespace Editing

variable {α β : Type}

theorem on_lift (x : Except LanguageError α) (d : Definition V E) :
  (liftM x : Editing V E α).on d = (x, d)
  := rfl

/-- What comes next starts from what the program has left. -/
theorem on_bind (program : Editing V E α) (next : α → Editing V E β) (d : Definition V E) :
  (program >>= next).on d = match program.on d with
    | (.ok a, d') => (next a).on d'
    | (.error e, d') => (.error e, d')
  := by
  have hbind : (program >>= next).on d
      = (ExceptT.bindCont next (program.on d).1).run (program.on d).2 := rfl
  rw [hbind]
  obtain ⟨e | a, d'⟩ := program.on d <;> rfl

/-- A program that goes on after a failure does so with what it has left. -/
theorem on_tryCatch (program : Editing V E Unit) (d : Definition V E) :
  Editing.on (tryCatch program fun _ => pure ()) d = (.ok (), (program.on d).2)
  := by
  have hrun : program.run.run d = program.on d := rfl
  rw [on, ExceptT.run_tryCatch, StateT.run_bind, hrun]
  obtain ⟨e | u, d'⟩ := program.on d <;> rfl

/-- Verifying symbols changes nothing. -/
theorem on_forM_verify (symbols : List Symbol) (d : Definition V E) :
  Editing.on (symbols.forM fun symbol => (symbol.verify : Editing V E Unit)) d
    = (symbols.forM Symbol.verify, d)
  := by
  induction symbols with
  | nil => rfl
  | cons s rest ih =>
      have hcons : (s :: rest).forM (fun symbol => (symbol.verify : Editing V E Unit))
          = (s.verify : Editing V E Unit) >>= fun _ => rest.forM fun symbol => symbol.verify := rfl
      have hcons' : (s :: rest).forM Symbol.verify
          = s.verify >>= fun _ => rest.forM Symbol.verify := rfl
      rw [hcons, hcons', on_bind, on_lift]
      cases s.verify with
      | error e => rfl
      | ok u => apply ih

/-- What is left of a definition by a call that is made of another one, or else fails. -/
def settle (d : Definition V E) :
    Except LanguageError (Definition V E) → Except LanguageError Unit × Definition V E
  | .ok d' => (.ok (), d')
  | .error e => (.error e, d)

theorem pushRule_on (rule : Production V) (d : Definition V E) :
  (pushRule rule).on d = settle d (d.addRule rule)
  := by
  rw [Definition.addRule, pushRule, on_bind, on_lift]
  cases rule.lhs.verify with
  | error e => rfl
  | ok u =>
      dsimp only
      rw [on_bind, on_forM_verify]
      cases rule.rhs.forM Symbol.verify with
      | error e => rfl
      | ok u =>
          have hget : Editing.on get d = (.ok d, d) := rfl
          dsimp only
          rw [on_bind, hget]
          dsimp only
          cases d.rules.any rule.sameShape <;> rfl

theorem replaceStart_on (symbol : Symbol) (d : Definition V E) :
  (replaceStart symbol).on d = settle d (d.setStart symbol)
  := by
  rw [Definition.setStart, replaceStart, on_bind, on_lift]
  cases symbol.verify <;> rfl

end Editing

/-! ### Calls -/

namespace Edit

/-- What a call makes of a definition, if it does not fail. -/
def apply (d : Definition V E) : Edit V E → Except LanguageError (Definition V E)
  | lex lexRule => .ok (d.addLexRule lexRule)
  | rule lhs rhs => d.addRule { lhs, rhs }
  | ruleWith lhs rhs action => d.addRule { lhs, rhs, action := some action }
  | emptyRule lhs => d.addEmptyRule lhs
  | start symbol => d.setStart symbol

/-- A call changes the definition at once or not at all. -/
theorem perform_on (edit : Edit V E) (d : Definition V E) :
  edit.perform.on d = Editing.settle d (edit.apply d)
  := by
  cases edit with
  | lex lexRule => rfl
  | rule lhs rhs => apply Editing.pushRule_on
  | ruleWith lhs rhs action => apply Editing.pushRule_on
  | emptyRule lhs => apply Editing.pushRule_on
  | start symbol => apply Editing.replaceStart_on

/-- A call that fails leaves the definition as it was. -/
theorem on_of_error {edit : Edit V E} {d : Definition V E} {e : LanguageError}
    (h : (edit.perform.on d).1 = .error e) :
  (edit.perform.on d).2 = d
  := by
  rw [perform_on] at h ⊢
  cases hd : edit.apply d with
  | error e => rfl
  | ok d' =>
      rw [hd] at h
      cases h

/-! ### Sequences of calls -/

theorem performAll_cons (edit : Edit V E) (edits : List (Edit V E)) (d : Definition V E) :
  (performAll (edit :: edits)).on d = match edit.apply d with
    | .ok d' => (performAll edits).on d'
    | .error e => (.error e, d)
  := by
  have hcons : performAll (edit :: edits) = edit.perform >>= fun _ => performAll edits := rfl
  rw [hcons, Editing.on_bind, perform_on]
  cases edit.apply d <;> rfl

theorem attemptAll_cons (edit : Edit V E) (edits : List (Edit V E)) (d : Definition V E) :
  (attemptAll (edit :: edits)).on d = match edit.apply d with
    | .ok d' => (attemptAll edits).on d'
    | .error _ => (attemptAll edits).on d
  := by
  have hcons : attemptAll (edit :: edits)
      = (tryCatch edit.perform fun _ => pure ()) >>= fun _ => attemptAll edits := rfl
  rw [hcons, Editing.on_bind, Editing.on_tryCatch, perform_on]
  cases edit.apply d <;> rfl

theorem successful_cons (edit : Edit V E) (edits : List (Edit V E)) (d : Definition V E) :
  successful d (edit :: edits) = match edit.apply d with
    | .ok d' => edit :: successful d' edits
    | .error _ => successful d edits
  := by
  rw [successful, perform_on]
  cases edit.apply d <;> rfl

/-- Calls that do not fail do what they do whether the program would give up or not. -/
theorem on_of_foldlM {edits : List (Edit V E)} {d d' : Definition V E}
    (h : edits.foldlM apply d = .ok d') :
  (performAll edits).on d = (.ok (), d') ∧ (attemptAll edits).on d = (.ok (), d')
  := by
  induction edits generalizing d with
  | nil =>
      cases h
      exact ⟨rfl, rfl⟩
  | cons edit edits ih =>
      obtain ⟨d₁, hd, hrest⟩ := Definition.exists_of_foldlM_cons h
      rw [performAll_cons, attemptAll_cons, hd]
      apply ih hrest

/-- Without the calls that fail, the others lead to where all of them lead to. -/
theorem exists_foldlM_successful (edits : List (Edit V E)) (d : Definition V E) :
  ∃ d', (successful d edits).foldlM apply d = .ok d' ∧ (attemptAll edits).on d = (.ok (), d')
  := by
  induction edits generalizing d with
  | nil => exact ⟨d, rfl, rfl⟩
  | cons edit edits ih =>
      rw [successful_cons, attemptAll_cons]
      cases hd : edit.apply d with
      | error e => apply ih
      | ok d₁ =>
          obtain ⟨d', hsuccessful, hall⟩ := ih d₁
          use d'
          rw [List.foldlM_cons, hd]
          exact ⟨hsuccessful, hall⟩

/-! ### What calls record -/

/-- The lexical rule that a call adds. -/
def lexRule? : Edit V E → Option (LexRule V E)
  | lex lexRule => some lexRule
  | _ => none

/-- The production rule that a call adds. -/
def production? : Edit V E → Option (Production V)
  | rule lhs rhs => some { lhs, rhs }
  | ruleWith lhs rhs action => some { lhs, rhs, action := some action }
  | emptyRule lhs => some { lhs, rhs := [] }
  | _ => none

/-- The start symbol that a call sets. -/
def start? : Edit V E → Option Symbol
  | start symbol => some symbol
  | _ => none

/-- A call that does not fail adds its rule at the end, or replaces the start symbol. -/
theorem eq_of_apply {edit : Edit V E} {d d' : Definition V E} (h : edit.apply d = .ok d') :
  d' = ⟨d.lexRules ++ edit.lexRule?.toList, d.rules ++ edit.production?.toList,
    edit.start? <|> d.start⟩
  := by
  have hpush {rule : Production V} (h : d.addRule rule = .ok d') :
      d' = ⟨d.lexRules ++ [], d.rules ++ [rule], d.start⟩ := by
    obtain ⟨-, -, rfl⟩ := Definition.addRule_eq_ok h
    rw [List.append_nil]
  cases edit with
  | lex lexRule =>
      cases h
      simp [lexRule?, production?, start?, Definition.addLexRule]
  | rule lhs rhs => apply hpush h
  | ruleWith lhs rhs action => apply hpush h
  | emptyRule lhs => apply hpush h
  | start symbol =>
      obtain ⟨-, rfl⟩ := Definition.setStart_eq_ok h
      simp [lexRule?, production?, start?]

/-- Calls that do not fail record their rules in their order, and the last start symbol. -/
theorem eq_of_foldlM {edits : List (Edit V E)} {d d' : Definition V E}
    (h : edits.foldlM apply d = .ok d') :
  d' = ⟨d.lexRules ++ edits.filterMap lexRule?, d.rules ++ edits.filterMap production?,
    (edits.filterMap start?).getLast? <|> d.start⟩
  := by
  induction edits generalizing d with
  | nil =>
      cases h
      simp
  | cons edit edits ih =>
      obtain ⟨d₁, hd, hrest⟩ := Definition.exists_of_foldlM_cons h
      obtain rfl := eq_of_apply hd
      have hcons {α : Type} (f : Edit V E → Option α) :
          (edit :: edits).filterMap f = (f edit).toList ++ edits.filterMap f := by
        rw [List.filterMap_cons]
        cases f edit <;> rfl
      have hlast : edit.start?.toList.getLast? = edit.start? := by cases edit.start? <;> rfl
      rw [ih hrest, hcons, hcons, hcons, List.append_assoc, List.append_assoc,
        List.getLast?_append, hlast]
      simp only [Option.orElse_eq_orElse, Option.orElse_eq_or, Option.or_assoc]

/-- A call that does not fail leads from a definition that has been reached to another one. -/
theorem reached_of_apply {edit : Edit V E} {d d' : Definition V E} (hd : d.Reached)
    (h : edit.apply d = .ok d') :
  d'.Reached
  := by
  cases edit with
  | lex lexRule =>
      cases h
      apply hd.addLexRule
  | rule lhs rhs => apply hd.addRule h
  | ruleWith lhs rhs action => apply hd.addRule h
  | emptyRule lhs => apply hd.addRule h
  | start symbol => apply hd.setStart h

/-- So do calls one after the other. -/
theorem reached_of_foldlM {edits : List (Edit V E)} {d d' : Definition V E} (hd : d.Reached)
    (h : edits.foldlM apply d = .ok d') :
  d'.Reached
  := by
  induction edits generalizing d with
  | nil =>
      cases h
      apply hd
  | cons edit edits ih =>
      obtain ⟨d₁, hedit, hrest⟩ := Definition.exists_of_foldlM_cons h
      apply ih (reached_of_apply hd hedit) hrest

/-- A definition that has been reached has been reached by calls that do not fail. -/
theorem exists_foldlM_of_reached {d : Definition V E} (hd : d.Reached) :
  ∃ edits : List (Edit V E), edits.foldlM apply .empty = .ok d
  := by
  have hsnoc {d d' : Definition V E} (edit : Edit V E) (hedit : edit.apply d = .ok d')
      (h : ∃ edits : List (Edit V E), edits.foldlM apply .empty = .ok d) :
      ∃ edits : List (Edit V E), edits.foldlM apply .empty = .ok d' := by
    obtain ⟨edits, hedits⟩ := h
    use edits ++ [edit]
    rw [List.foldlM_append, hedits]
    exact (bind_pure (edit.apply d)).trans hedit
  induction hd with
  | empty => exact ⟨[], rfl⟩
  | addLexRule _ lexRule ih => apply hsnoc (.lex lexRule) rfl ih
  | @addRule d d' rule _ h ih =>
      obtain ⟨lhs, rhs, _ | action⟩ := rule
      · apply hsnoc (.rule lhs rhs) h ih
      · apply hsnoc (.ruleWith lhs rhs action) h ih
  | @setStart d d' symbol _ h ih => apply hsnoc (.start symbol) h ih

end Edit

/-! ### Languages -/

namespace Language

/-- The rules of the language are those that the calls add, and its start symbol is the last one
that they set or else the left-hand side of the first rule. -/
structure Records (language : Language V E) (edits : List (Edit V E)) : Prop where
  lexRules : language.lexRules = edits.filterMap Edit.lexRule?
  rules : language.rules = edits.filterMap Edit.production?
  start : some language.start
    = ((edits.filterMap Edit.start?).getLast? <|> language.rules.head?.map Production.lhs)

/-- All symbols of the language are labels. -/
structure IsNamed (language : Language V E) : Prop where
  lexRules : ∀ rule ∈ language.lexRules, ∀ s ∈ rule.symbol, s.IsName
  rules : ∀ rule ∈ language.rules, ∀ s ∈ rule.lhs :: rule.rhs, s.IsName
  start : language.start.IsName

variable {d : Definition V E} {language : Language V E}

theorem isNamed_of_complete (hd : d.Reached) (h : d.complete = .ok language) :
  language.IsNamed
  := by
  obtain ⟨hlex, hlexRules, hrules, hstart⟩ := Definition.complete_eq_ok h
  constructor
  · rw [hlexRules]
    apply hlex
  · rw [hrules]
    apply hd.isNamed.rules
  · -- the start symbol was set, or it stands in the first rule
    cases hset : d.start with
    | some symbol =>
        rw [hset] at hstart
        cases hstart
        apply hd.isNamed.start _ hset
    | none =>
        rw [hset] at hstart
        obtain ⟨rule, hrule, hlhs⟩ := Option.map_eq_some_iff.mp hstart
        rw [← hlhs]
        apply hd.isNamed.rules rule (List.mem_of_head? hrule) _ List.mem_cons_self

/-- No two rules of a language that is defined have the same symbols, whatever their actions are. -/
theorem Definable.nodup (h : language.Definable) :
  (language.rules.map fun rule => (rule.lhs, rule.rhs)).Nodup
  := by
  rw [List.Nodup, List.pairwise_map]
  apply h.pairwise_sameShape.imp
  intro rule rule' hshape heq
  obtain ⟨hlhs, hrhs⟩ := Prod.mk.inj heq
  simp [Production.sameShape, hlhs, hrhs] at hshape

/-- The languages that programs define by calls are the definable ones. -/
theorem definable_iff :
  language.Definable ↔ ∃ edits : List (Edit V E), define (Edit.attemptAll edits) = .ok language
  := by
  constructor
  · rintro ⟨d, hd, hcomplete⟩
    obtain ⟨edits, hedits⟩ := Edit.exists_foldlM_of_reached hd
    use edits
    rw [define, (Edit.on_of_foldlM hedits).2]
    apply hcomplete
  · rintro ⟨edits, hedits⟩
    obtain ⟨d, hsuccessful, hall⟩ := Edit.exists_foldlM_successful edits .empty
    rw [define, hall] at hedits
    exact ⟨d, Edit.reached_of_foldlM .empty hsuccessful, hedits⟩

/-- Whatever calls a program makes on a definition, those that fail do not matter.  A call that
fails leaves the definition as it was, so the program defines what it would define without the
calls that fail.  If it defines a language, the rules are those of the other calls, in their order,
and no two of them have the same symbols.  All symbols are labels, and the start symbol is the last
one that was set or else the left-hand side of the first rule. -/
theorem define_survives (edits : List (Edit V E)) :
  (∀ (d : Definition V E) (edit : Edit V E) (e : LanguageError),
      (edit.perform.on d).1 = .error e → (edit.perform.on d).2 = d)
    ∧ define (Edit.attemptAll edits) = define (Edit.attemptAll (Edit.successful .empty edits))
    ∧ define (Edit.attemptAll edits) = define (Edit.performAll (Edit.successful .empty edits))
    ∧ ∀ language, define (Edit.attemptAll edits) = .ok language →
      language.Records (Edit.successful .empty edits) ∧ language.IsNamed
        ∧ (language.rules.map fun rule => (rule.lhs, rule.rhs)).Nodup
  := by
  obtain ⟨d, hsuccessful, hall⟩ := Edit.exists_foldlM_successful edits .empty
  obtain ⟨hperform, hattempt⟩ := Edit.on_of_foldlM hsuccessful
  refine ⟨fun _ _ _ => Edit.on_of_error, ?_, ?_, ?_⟩
  · rw [define, define, hall, hattempt]
  · rw [define, define, hall, hperform]
  · intro language hlanguage
    have hreached := Edit.reached_of_foldlM .empty hsuccessful
    have hcomplete : d.complete = .ok language := by
      rw [define, hall] at hlanguage
      exact hlanguage
    obtain ⟨-, hlexRules, hrules, hstart⟩ := Definition.complete_eq_ok hcomplete
    obtain rfl := Edit.eq_of_foldlM hsuccessful
    refine ⟨⟨hlexRules, hrules, ?_⟩, isNamed_of_complete hreached hcomplete,
      Definable.nodup ⟨_, hreached, hcomplete⟩⟩
    rw [← hstart, hrules]
    simp [Definition.empty]

/-- Calls of which the second, the third and the fifth one fail. -/
def someEdits : List (Edit String Empty) :=
  [.rule (.label "s") [.label "a"], .rule (.label "t") [.label "b", .endOfInput],
   .ruleWith (.label "s") [.label "a"] (fun _ => .error "unused"), .emptyRule (.label "s"),
   .start (.label "")]

/-- Two of the calls are recorded, and the start symbol is that of the first one. -/
theorem define_survives_someEdits :
  ∃ language, define (Edit.attemptAll someEdits) = .ok language
    ∧ define (Edit.performAll [.rule (.label "s") [.label "a"], .emptyRule (.label "s")])
      = .ok language
    ∧ language.rules
      = [{ lhs := .label "s", rhs := [.label "a"] }, { lhs := .label "s", rhs := [] }]
    ∧ language.start = .label "s" ∧ language.IsNamed
  := by
  have hsuccessful : Edit.successful .empty someEdits
      = [.rule (.label "s") [.label "a"], .emptyRule (.label "s")] := by
    rfl
  have hdefine : define (Edit.attemptAll someEdits)
      = .ok { lexRules := [], rules := [_, _], start := .label "s" } := rfl
  obtain ⟨-, -, hperform, hrecords⟩ := define_survives someEdits
  rw [hsuccessful] at hperform hrecords
  obtain ⟨hrecords, hnamed, -⟩ := hrecords _ hdefine
  exact ⟨_, hdefine, hperform ▸ hdefine, hrecords.rules, rfl, hnamed⟩

end Language

end ShiftReduce
