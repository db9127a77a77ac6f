import ShiftReduce.Proofs.Parser.Building
import ShiftReduce.Proofs.Parser.Termination
import ShiftReduce.Proofs.Parser.Trace

/-!
# Parsing folds derivations

An engine performs the evaluation of the derivations that its table builds: it has made the calls
of the evaluation and holds the values, or it has ended with the message of the call that has
failed (`ParseTable.Builds.performs`).  So all interpretations see the same derivations, and an
interpretation that builds trees, which never fails, shows them all.
-/

namespace ShiftReduce

/-- How a parse ends that makes the calls of an evaluation: in the given way if none of them
fails. -/
def Evaluation.parsed {σ V α : Type} (e : Evaluation σ V α) (f : α → Except ParseError V) :
    Parsed σ V :=
  match e.result with
  | .ok a => ⟨f a, e.context⟩
  | .error message => ⟨.error (.interpretation message), e.context⟩

namespace Engine

variable {σ V : Type} {m : Engine σ V} {c c' c'' : Configuration σ V} {q : StateId}
  {below states states' : List StateId} {values : List V} {input input' : Input V} {context : σ}
  {x : SymbolId} {parsed : Parsed σ V}

/-! ### Calls of a run -/

/-- The calls that a step makes. -/
def calls (m : Engine σ V) (c : Configuration σ V) : List (Call V) :=
  (m.events c).filterMap Event.call?

/-- From one configuration the engine goes on to another one, and makes the given calls. -/
inductive Goes (m : Engine σ V) :
    Configuration σ V → List (Call V) → Configuration σ V → Prop where
  | nil (c : Configuration σ V) : Goes m c [] c
  | cons {c c' c'' : Configuration σ V} {calls : List (Call V)} (hstep : m.step c = .next c')
      (h : Goes m c' calls c'') : Goes m c (m.calls c ++ calls) c''

/-- From a configuration the parse ends in the given way, and the calls of its trace are the given
ones. -/
def EndsCalling (m : Engine σ V) (c : Configuration σ V) (calls : List (Call V))
    (parsed : Parsed σ V) : Prop :=
  ∃ n, m.run n c = some parsed ∧ (m.trace n c).filterMap Event.call? = calls

theorem EndsCalling.ends {calls : List (Call V)} (h : m.EndsCalling c calls parsed) :
  m.Ends c parsed
  := by
  obtain ⟨n, hn, -⟩ := h
  exact ⟨n, hn⟩

theorem endsCalling_of_stop (h : m.step c = .stop parsed) :
  m.EndsCalling c (m.calls c) parsed
  := by
  use 1
  constructor
  · rw [run, h]
  · rw [trace, h, List.append_nil, calls]

theorem Goes.trans {calls calls' : List (Call V)} (h : m.Goes c calls c')
    (h' : m.Goes c' calls' c'') :
  m.Goes c (calls ++ calls') c''
  := by
  induction h with
  | nil => apply h'
  | cons hstep _ ih =>
      rw [List.append_assoc]
      apply Goes.cons hstep (ih h')

/-- A parse that goes on ends as it does from there. -/
theorem Goes.endsCalling {calls calls' : List (Call V)} (h : m.Goes c calls c')
    (h' : m.EndsCalling c' calls' parsed) :
  m.EndsCalling c (calls ++ calls') parsed
  := by
  induction h with
  | nil => apply h'
  | cons hstep _ ih =>
      obtain ⟨n, hn, htrace⟩ := ih h'
      use n + 1
      constructor
      · rw [run, hstep]
        apply hn
      · rw [trace, hstep, List.filterMap_append, htrace, List.append_assoc]
        rfl

/-! ### Calls of a step -/

/-- A shift calls the interpretation for the lookahead. -/
theorem calls_shift (hx : m.table.symbolId? input.head.symbol = some x) {target : StateId}
    (haction : m.table.action? q x = some (.shift target)) :
  m.calls (.reading (q :: below) values input context) = [.terminal input.head]
  := by
  rw [calls, events, action?_reading hx, haction]
  simp only [Configuration.reading]
  cases (m.interpretation.terminal input.head context).1 <;> rfl

/-- A reduction calls the interpretation for its rule and the topmost values. -/
theorem calls_reduce (hx : m.table.symbolId? input.head.symbol = some x) {index : Nat}
    (hreduces : Reduces m.table x index states states') {shape : Reduction}
    (hshape : m.table.reductions[index]? = some shape) {rule : Production V}
    (hrule : m.rules[index]? = some rule) (hvalues : shape.length ≤ values.length) :
  m.calls (.reading states values input context)
    = [.nonterminal rule (values.take shape.length).reverse]
  := by
  obtain ⟨haction, hshape', hdrop, -⟩ := hreduces
  rw [hshape] at hshape'
  cases hshape'
  have hentry : m.rule? (.user index) = some (rule, shape) := by
    simp [rule?, RuleId.index?, ParseTable.reduction?, hrule, hshape]
  have hstates := List.length_lt_of_drop_ne_nil (hdrop ▸ List.cons_ne_nil _ _)
  rw [calls, events, action?_reading hx, haction]
  simp only [hentry]
  rw [if_pos ⟨hvalues, hstates⟩]
  rfl

/-- Where the lookahead is neither shifted nor reduced on there are no calls. -/
theorem calls_eq_nil {e : Option ParseError} (h : m.table.Closes q input e) :
  m.calls (.reading (q :: below) values input context) = []
  := by
  rw [calls, events]
  cases h with
  | unknown hx => simp [action?, Configuration.reading, hx]
  | accept hx haction hlast => simp [action?_reading hx, haction, Event.call?]
  | more hx haction hlast => simp [action?_reading hx, haction, Event.call?]
  | clash hx hclash =>
      obtain ⟨shifts, reduces, haction⟩ := hclash
      simp [action?_reading hx, haction]
  | unexpected hx haction =>
      obtain haction | ⟨target, haction⟩ := haction <;> simp [action?_reading hx, haction]

/-- Where the lookahead is accepted the parse ends with the value. -/
theorem endsCalling_of_accept (h : m.table.Closes q input none) (value : V) :
  m.EndsCalling (.reading (q :: below) [value] input context) [] ⟨.ok value, context⟩
  := by
  rw [← calls_eq_nil h]
  apply endsCalling_of_stop
  cases h with
  | accept hx haction hlast => rw [step_accept hx haction, accept_reading, if_pos hlast]

/-- Where there is an error the parse ends with it. -/
theorem endsCalling_of_error {e : ParseError} (h : m.table.Closes q input (some e)) :
  m.EndsCalling (.reading (q :: below) values input context) [] ⟨.error e, context⟩
  := by
  rw [← calls_eq_nil h]
  apply endsCalling_of_stop
  cases h with
  | unknown hx => apply step_unknown hx
  | more hx haction hlast => rw [step_accept hx haction, accept_reading, if_neg hlast]
  | clash hx hclash => apply step_clash hx hclash
  | unexpected hx haction => apply step_unexpected hx haction

/-! ### Performing an evaluation -/

/-- The engine has made the calls of an evaluation and holds its values, the last one on top, or it
has ended with the message of the call that has failed. -/
inductive Performs (m : Engine σ V) (c : Configuration σ V) (states : List StateId)
    (input : Input V) : Evaluation σ V (List V) → Prop where
  | ok {calls : List (Call V)} {values : List V} {context : σ}
      (h : m.Goes c calls (.reading states values.reverse input context)) :
      Performs m c states input ⟨calls, .ok values, context⟩
  | error {calls : List (Call V)} {message : String} {context : σ}
      (h : m.EndsCalling c calls ⟨.error (.interpretation message), context⟩) :
      Performs m c states input ⟨calls, .error message, context⟩

/-- An evaluation is performed one part after the other. -/
theorem Performs.andThen {e : Evaluation σ V (List V)} (h : m.Performs c states input e)
    {f : List V → σ → Evaluation σ V (List V)}
    (h' : ∀ values context, e.result = .ok values →
      m.Performs (.reading states values.reverse input context) states' input' (f values context)) :
  m.Performs c states' input' (e.andThen f)
  := by
  cases h with
  | error h => apply Performs.error h
  | @ok calls values context h =>
      rw [Evaluation.andThen_of_ok rfl]
      have hnext := h' values context rfl
      generalize f values context = e' at hnext ⊢
      cases hnext with
      | ok hgoes => apply Performs.ok (h.trans hgoes)
      | error hends => apply Performs.error (h.endsCalling hends)

/-- A step that makes a single call and puts its value on the stack performs this call. -/
theorem performs_call {call : Call V} (hcalls : m.calls c = [call])
    (hstep : m.step c = match m.interpretation.answer call context with
      | (.error message, context') => .stop ⟨.error (.interpretation message), context'⟩
      | (.ok value, context') => .next (.reading states (value :: values.reverse) input context')) :
  m.Performs c states input
    ((m.interpretation.perform call context).andThen fun value => .pure (values ++ [value]))
  := by
  rw [Interpretation.perform, ← hcalls]
  generalize m.interpretation.answer call context = answer at hstep ⊢
  obtain ⟨message | value, context'⟩ := answer
  · apply Performs.error (endsCalling_of_stop hstep)
  · have hnext : m.step c = .next (.reading states (values ++ [value]).reverse input context') := by
      rw [hstep, List.reverse_concat]
    apply Performs.ok (Goes.cons hnext (.nil _))

/-- A shift performs the call for the lookahead. -/
theorem performs_shift (hx : m.table.symbolId? input.head.symbol = some x) {target : StateId}
    (haction : m.table.action? q x = some (.shift target)) :
  m.Performs (.reading (q :: below) values.reverse input context) (target :: q :: below) input.tail
    ((m.interpretation.perform (.terminal input.head) context).andThen fun value =>
      .pure (values ++ [value]))
  := by
  apply performs_call (calls_shift hx haction)
  rw [step_shift hx haction]
  rfl

/-- A reduction performs the call for its rule and the values of its right-hand side, which are the
topmost ones. -/
theorem performs_reduce (hx : m.table.symbolId? input.head.symbol = some x) {index : Nat}
    (hreduces : Reduces m.table x index states states') {shape : Reduction}
    (hshape : m.table.reductions[index]? = some shape) {rule : Production V}
    (hrule : m.rules[index]? = some rule) {n : Nat} (hcount : values.length = n + shape.length) :
  m.Performs (.reading states values.reverse input context) states' input
    ((m.interpretation.perform (.nonterminal rule (values.drop n)) context).andThen fun value =>
      .pure (values.take n ++ [value]))
  := by
  have hle : shape.length ≤ values.reverse.length := by
    rw [List.length_reverse, hcount]
    apply Nat.le_add_left
  have hn : values.length - shape.length = n := by rw [hcount, Nat.add_sub_cancel]
  have hchildren : (values.reverse.take shape.length).reverse = values.drop n := by
    rw [List.take_reverse, List.reverse_reverse, hn]
  have hothers : values.reverse.drop shape.length = (values.take n).reverse := by
    rw [List.drop_reverse, hn]
  rw [← hchildren]
  apply performs_call (calls_reduce hx hreduces hshape hrule hle)
  rw [step_reduces hx hreduces hshape hrule hle, hothers]
  rfl

/-- Where the lookahead is accepted the parse ends with the value that is performed. -/
theorem Performs.endsCalling_of_accept {e : Evaluation σ V V}
    (h : m.Performs c (q :: below) input (e.andThen fun value => .pure [value]))
    (hcloses : m.table.Closes q input none) :
  m.EndsCalling c e.calls (e.parsed .ok)
  := by
  obtain ⟨calls, result, context⟩ := e
  cases result with
  | error message =>
      cases h with
      | error hends => apply hends
  | ok value =>
      have hcalls : calls = calls ++ [] ++ [] := by simp
      cases h with
      | ok hgoes =>
          rw [hcalls]
          apply hgoes.endsCalling (Engine.endsCalling_of_accept hcloses value)

/-- Where there is an error the parse ends with it, unless a call has failed. -/
theorem Performs.endsCalling_of_error {e : Evaluation σ V (List V)}
    (h : m.Performs c (q :: below) input e) {error : ParseError}
    (hcloses : m.table.Closes q input (some error)) :
  m.EndsCalling c e.calls (e.parsed fun _ => .error error)
  := by
  cases h with
  | error hends => apply hends
  | @ok calls values context hgoes =>
      rw [← List.append_nil calls]
      apply hgoes.endsCalling (Engine.endsCalling_of_error hcloses)

end Engine

/-- An engine performs the evaluation of the derivations that its table builds. -/
theorem ParseTable.Builds.performs {σ V : Type} {m : Engine σ V} {lexemes : List (Lexeme V)}
    {ds : List (Derivation V)} {states : List StateId} {input : Input V}
    (h : m.table.Builds m.rules lexemes ds states input) (context : σ) :
  m.Performs (.initial lexemes context) states input
    (Derivation.evaluateForest m.interpretation ds.reverse context)
  := by
  induction h with
  | start =>
      have hstart : m.Goes (.initial lexemes context) []
          (.reading [startState] ([] : List V).reverse ⟨lexemes, 0⟩ context) := .nil _
      exact .ok hstart
  | shift _ hx haction ih =>
      rw [List.reverse_cons, Derivation.evaluateForest_concat]
      apply ih.andThen
      intro values context' _
      apply Engine.performs_shift hx haction
  | @reduce ds states states' input x index shape rule _ hx hreduces hshape hrule hlength ih =>
      have hsplit : ds.reverse
          = (ds.drop shape.length).reverse ++ (ds.take shape.length).reverse := by
        rw [← List.reverse_append, List.take_append_drop]
      rw [List.reverse_cons, Derivation.evaluateForest_concat_node, ← hsplit]
      apply ih.andThen
      intro values context' hvalues
      apply Engine.performs_reduce hx hreduces hshape hrule
      rw [Derivation.length_of_evaluateForest hvalues, List.length_reverse, List.length_reverse,
        List.length_drop, Nat.sub_add_cancel hlength]

/-- An engine that builds trees shows the derivations that its table builds: it makes a call for
each of their lexemes and rules, and returns the tree of the only one or an error. -/
theorem Engine.Parses.exists_builds_calling {σ E : Type} {m : Engine σ ParseTree}
    {language : Language ParseTree E} {g : Grammar} {a : Automaton}
    {lexemes : List (Lexeme ParseTree)} {context : σ} {parsed : Parsed σ ParseTree}
    (hm : m.Parses language g a) (hends : m.Ends (.initial lexemes context) parsed) :
  ∃ ds q below input calls, m.table.Builds language.rules lexemes ds (q :: below) input
    ∧ m.EndsCalling (.initial lexemes context) calls parsed
    ∧ calls.map Call.subject = Derivation.postorderForest ds.reverse
    ∧ ((∃ d, ds = [d] ∧ m.table.Closes q input none ∧ parsed.value = .ok d.tree)
      ∨ ∃ e, m.table.Closes q input (some e) ∧ parsed.value = .error e)
  := by
  obtain ⟨ds, q, below, input, hbuilds, hcases⟩ := hm.exists_builds hends
  have hperforms := (hm.rules ▸ hbuilds).performs context
  rw [hm.interpretation] at hperforms
  rcases hcases with ⟨d, rfl, hcloses, hvalue⟩ | ⟨e, hcloses, hvalue⟩
  · have hcalling := Engine.Performs.endsCalling_of_accept hperforms hcloses
    obtain ⟨hcalls, -⟩ := (d.evaluate_visits context).ok _ d.evaluate_trees.1
    rw [hcalling.ends.unique hends] at hcalling
    refine ⟨[d], q, below, input, _, hbuilds, hcalling, ?_, .inl ⟨d, rfl, hcloses, hvalue⟩⟩
    rw [hcalls]
    symm
    apply List.append_nil
  · have hcalling := Engine.Performs.endsCalling_of_error hperforms hcloses
    obtain ⟨hcalls, -⟩ := (Derivation.evaluateForest_visits ds.reverse context).ok _
      (Derivation.evaluateForest_trees ds.reverse).1
    rw [hcalling.ends.unique hends] at hcalling
    exact ⟨ds, q, below, input, _, hbuilds, hcalling, hcalls, .inr ⟨e, hcloses, hvalue⟩⟩

namespace Parser.Generated

section Library

variable [PatternLibrary] {σ τ V E F : Type} {p : Parser σ V E} {p' : Parser τ ParseTree F}
  {strategy : Strategy} {lexemes : List (Lexeme V)} {lexemes' : List (Lexeme ParseTree)}

/-- The engine of a parser with the same table and the same rules, up to their actions, that builds
trees parses the language. -/
theorem exists_parses_alike (hp : p.Generated strategy) (htable : p'.table = p.table)
    (hrules : p'.language.rules.map Production.bare = p.language.rules.map Production.bare)
    (htrees : p'.interpretation = .trees) :
  ∃ g a, g.Encodes p.language ∧ p.table.Over g a
    ∧ p'.engine.Parses ⟨p'.language.lexRules, p'.language.rules, p.language.start⟩ g a
  := by
  obtain ⟨g, a, hencodes, hover⟩ := hp.exists_over
  refine ⟨g, a, hencodes, hover, ?_, ?_, rfl, htrees⟩
  · rw [engine, htable]
    apply hover
  · exact hencodes.of_rules hrules rfl

/-- The table of a parser builds derivations that a parser with the same table, over the same rules
and from the same lexemes, up to values and actions, builds the trees of. -/
theorem exists_builds (hp : p.Generated strategy) (htable : p'.table = p.table)
    (hrules : p'.language.rules.map Production.bare = p.language.rules.map Production.bare)
    (htrees : p'.interpretation = .trees)
    (hlexemes : lexemes'.map Lexeme.bare = lexemes.map Lexeme.bare) (context : τ) :
  ∃ ds q below input, p.table.Builds p.language.rules lexemes ds (q :: below) input
    ∧ Derivation.ValidForest p.language.rules ds
    ∧ (∃ calls, p'.engine.EndsCalling (.initial lexemes' context) calls
          (p'.parseLexemes lexemes' context)
        ∧ (calls.map Call.subject).map bareSubject
          = (Derivation.postorderForest ds.reverse).map bareSubject)
    ∧ ((∃ d, ds = [d] ∧ p.table.Closes q input none
        ∧ Derivation.lexemesForest ds.reverse = beforeEnd lexemes
        ∧ (p'.parseLexemes lexemes' context).value = .ok d.tree)
      ∨ ∃ e, p.table.Closes q input (some e)
        ∧ Derivation.lexemesForest ds.reverse <+: beforeEnd lexemes
        ∧ (p'.parseLexemes lexemes' context).value = .error e)
  := by
  obtain ⟨g, a, hencodes, hover, hparses⟩ := hp.exists_parses_alike htable hrules htrees
  have hgenerated : p'.table.Generated strategy := htable ▸ hp.table_generated
  have hends := hgenerated.ends_parseLexemes lexemes' context
  obtain ⟨ds', q, below, input', calls, hbuilds', hcalling, hcalls, hcases⟩ :=
    hparses.exists_builds_calling hends
  have htable' : p'.engine.table = p.table := htable
  rw [htable'] at hbuilds' hcases
  obtain ⟨ds, input, hbuilds, halike⟩ := hbuilds'.exists_alike hrules hlexemes
  obtain ⟨γ, hstacked⟩ := hbuilds.exists_stacked hover hencodes
  refine ⟨ds, q, below, input, hbuilds, hstacked.valid, ⟨calls, hcalling, ?_⟩, ?_⟩
  · rw [hcalls, halike.subjects]
  · rcases hcases with ⟨d', rfl, hcloses, hvalue⟩ | ⟨e, hcloses, hvalue⟩
    · have hcloses' := hcloses.of_bare halike.input
      obtain ⟨d, rfl⟩ := List.length_eq_one_iff.mp halike.length_eq.symm
      have htree : d'.tree = d.tree := (List.cons.inj halike.trees).1
      refine .inl ⟨d, rfl, hcloses', hstacked.lexemes_of_accept hover hencodes hcloses', ?_⟩
      rw [hvalue, htree]
    · exact .inr ⟨e, hcloses.of_bare halike.input, hstacked.lexemes_upTo, hvalue⟩

/-- Parsing evaluates a derivation from the leaves up.  Let another parser with the same table build
trees over the same rules and from the same lexemes, up to values and actions.  If it returns a
tree, this is the tree of a derivation of the lexemes, and with any interpretation the parse makes
the calls of the evaluation of the derivation and returns its value, or the message of the call
that has failed.  If it returns an error it has built some derivations, and with any interpretation
the parse makes the calls of their evaluation and returns the error, or the message of the call
that has failed. -/
theorem folds_derivation (hp : p.Generated strategy) (htable : p'.table = p.table)
    (hrules : p'.language.rules.map Production.bare = p.language.rules.map Production.bare)
    (htrees : p'.interpretation = .trees)
    (hlexemes : lexemes'.map Lexeme.bare = lexemes.map Lexeme.bare) (context' : τ) :
  (∀ t, (p'.parseLexemes lexemes' context').value = .ok t →
      ∃ d : Derivation V, d.tree = t ∧ d.Valid p.language.rules ∧ d.lexemes = beforeEnd lexemes
        ∧ (∃ calls, p'.engine.EndsCalling (.initial lexemes' context') calls
              (p'.parseLexemes lexemes' context')
            ∧ (calls.map Call.subject).map bareSubject = d.postorder.map bareSubject)
        ∧ ∀ (ι : Interpretation σ V) (context : σ),
          (d.evaluate ι context).Visits ι context d.postorder
            ∧ (p.interpreted ι).engine.EndsCalling (.initial lexemes context)
              (d.evaluate ι context).calls ((p.interpreted ι).parseLexemes lexemes context)
            ∧ (p.interpreted ι).parseLexemes lexemes context = (d.evaluate ι context).parsed .ok)
    ∧ ∀ e, (p'.parseLexemes lexemes' context').value = .error e →
      ∃ ds : List (Derivation V), Derivation.ValidForest p.language.rules ds
        ∧ Derivation.lexemesForest ds <+: beforeEnd lexemes
        ∧ (∃ calls, p'.engine.EndsCalling (.initial lexemes' context') calls
              (p'.parseLexemes lexemes' context')
            ∧ (calls.map Call.subject).map bareSubject
              = (Derivation.postorderForest ds).map bareSubject)
        ∧ ∀ (ι : Interpretation σ V) (context : σ),
          (Derivation.evaluateForest ι ds context).Visits ι context (Derivation.postorderForest ds)
            ∧ (p.interpreted ι).engine.EndsCalling (.initial lexemes context)
              (Derivation.evaluateForest ι ds context).calls
              ((p.interpreted ι).parseLexemes lexemes context)
            ∧ (p.interpreted ι).parseLexemes lexemes context
              = (Derivation.evaluateForest ι ds context).parsed fun _ => .error e
  := by
  obtain ⟨ds, q, below, input, hbuilds, hvalid, hcalls, hcases⟩ :=
    hp.exists_builds htable hrules htrees hlexemes context'
  have hperforms (ι : Interpretation σ V) (context : σ) :=
    ParseTable.Builds.performs (m := (p.interpreted ι).engine) hbuilds context
  constructor
  · intro t ht
    rcases hcases with ⟨d, rfl, hcloses, hread, hvalue⟩ | ⟨e, -, -, hvalue⟩
    · have hpostorder : Derivation.postorderForest [d].reverse = d.postorder := List.append_nil _
      rw [hvalue] at ht
      rw [hpostorder] at hcalls
      rw [Derivation.lexemesForest, hpostorder] at hread
      refine ⟨d, Except.ok.inj ht, hvalid.1, hread, hcalls, ?_⟩
      intro ι context
      have hcalling := Engine.Performs.endsCalling_of_accept (hperforms ι context) hcloses
      have hparse := hcalling.ends.parse_eq
      use d.evaluate_visits context
      rw [parseLexemes, hparse]
      exact ⟨hcalling, rfl⟩
    · rw [hvalue] at ht
      cases ht
  · intro e he
    rcases hcases with ⟨d, rfl, -, -, hvalue⟩ | ⟨e', hcloses, hread, hvalue⟩
    · rw [hvalue] at he
      cases he
    · rw [hvalue] at he
      cases he
      refine ⟨ds.reverse, ?_, hread, hcalls, ?_⟩
      · rw [Derivation.validForest_iff] at hvalid ⊢
        intro d hd
        apply hvalid d (List.mem_reverse.mp hd)
      · intro ι context
        have hcalling := Engine.Performs.endsCalling_of_error (hperforms ι context) hcloses
        have hparse := hcalling.ends.parse_eq
        use Derivation.evaluateForest_visits ds.reverse context
        rw [parseLexemes, hparse]
        exact ⟨hcalling, rfl⟩

end Library

/-- All interpretations give a word of the small language the value of one derivation, whose tree is
the one that is returned. -/
theorem folds_derivation_small :
  ∃ (t : ParseTree) (d : Derivation ParseTree),
    ((Parser.small .mergedFirst).parseLexemes Language.smallWord ()).value = .ok t ∧ d.tree = t
    ∧ d.lexemes = Language.smallWord
    ∧ ∀ (ι : Interpretation Unit ParseTree) (context : Unit),
      ((Parser.small .mergedFirst).interpreted ι).parseLexemes Language.smallWord context
        = (d.evaluate ι context).parsed .ok
  := by
  obtain ⟨t, ht⟩ := (Parser.small .mergedFirst).engine.exists_value_of_run Language.smallWord () 5
    (by decide +kernel)
  have htable : (Parser.small .mergedFirst).table = (Parser.small .mergedFirst).table := rfl
  have hword : Language.smallWord.map Lexeme.bare = Language.smallWord.map Lexeme.bare := rfl
  obtain ⟨hok, -⟩ :=
    folds_derivation (Parser.small_generated .mergedFirst) htable rfl rfl hword ()
  obtain ⟨d, htree, -, hlexemes, -, hparse⟩ := hok t ht
  exact ⟨t, d, ht, htree, hlexemes, fun ι context => (hparse ι context).2.2⟩

end Parser.Generated

end ShiftReduce
