import ShiftReduce.Parser.Interpretation

/-!
# Evaluating derivations

A derivation says what a value is made of: a leaf is a lexeme that is read, and a node is a rule
that is reduced by, with derivations of its right-hand side.  An interpretation evaluates it from
left to right, and each node after its children, with one call for a leaf and one for a node; the
first call that fails is the last one (`Derivation.evaluateForest_visits`).
-/

namespace ShiftReduce

/-- A lexeme that is read, or a rule that is reduced by with derivations of its right-hand
side. -/
inductive Derivation (V : Type) where
  | leaf (lexeme : Lexeme V)
  | node (rule : Production V) (children : List (Derivation V))

namespace Derivation

variable {V : Type}

/-- The symbol at the root. -/
def symbol : Derivation V → Symbol
  | leaf lexeme => lexeme.symbol
  | node rule _ => rule.lhs

/-! ### Trees and nodes -/

mutual

/-- The tree of a derivation. -/
def tree : Derivation V → ParseTree
  | leaf lexeme => .leaf lexeme.symbol lexeme.text
  | node rule children => .node rule.lhs (trees children)

/-- The trees of several derivations. -/
def trees : List (Derivation V) → List ParseTree
  | [] => []
  | d :: ds => tree d :: trees ds

end

mutual

/-- The lexemes and the rules of a derivation, from left to right, and each rule after those of
its right-hand side. -/
def postorder : Derivation V → List (Lexeme V ⊕ Production V)
  | leaf lexeme => [.inl lexeme]
  | node rule children => postorderForest children ++ [.inr rule]

/-- The lexemes and the rules of several derivations. -/
def postorderForest : List (Derivation V) → List (Lexeme V ⊕ Production V)
  | [] => []
  | d :: ds => postorder d ++ postorderForest ds

end

/-- The lexemes of a derivation, from left to right. -/
def lexemes (d : Derivation V) : List (Lexeme V) :=
  d.postorder.filterMap Sum.getLeft?

/-- The lexemes of several derivations. -/
def lexemesForest (ds : List (Derivation V)) : List (Lexeme V) :=
  (postorderForest ds).filterMap Sum.getLeft?

mutual

/-- Each node has one of the rules, and the symbols of its right-hand side are those of the
children. -/
def Valid (rules : List (Production V)) : Derivation V → Prop
  | leaf _ => True
  | node rule children =>
    rule ∈ rules ∧ rule.rhs = children.map symbol ∧ ValidForest rules children

/-- All derivations of a list are valid. -/
def ValidForest (rules : List (Production V)) : List (Derivation V) → Prop
  | [] => True
  | d :: ds => Valid rules d ∧ ValidForest rules ds

end

theorem kind_tree (d : Derivation V) :
  d.tree.kind = d.symbol
  := by cases d <;> rfl

theorem trees_eq_map (ds : List (Derivation V)) :
  trees ds = ds.map tree
  := by
  induction ds with
  | nil => rfl
  | cons d ds ih => rw [trees, ih, List.map_cons]

theorem postorderForest_append (ds ds' : List (Derivation V)) :
  postorderForest (ds ++ ds') = postorderForest ds ++ postorderForest ds'
  := by
  induction ds with
  | nil => rfl
  | cons d ds ih => rw [List.cons_append, postorderForest, postorderForest, ih, List.append_assoc]

theorem postorderForest_concat (ds : List (Derivation V)) (d : Derivation V) :
  postorderForest (ds ++ [d]) = postorderForest ds ++ d.postorder
  := by rw [postorderForest_append, postorderForest, postorderForest, List.append_nil]

theorem validForest_iff {rules : List (Production V)} {ds : List (Derivation V)} :
  ValidForest rules ds ↔ ∀ d ∈ ds, d.Valid rules
  := by
  induction ds with
  | nil => simp [ValidForest]
  | cons d ds ih => simp [ValidForest, ih]

end Derivation

/-! ### Evaluations -/

/-- The lexeme or the rule that a call is for. -/
def Call.subject {V : Type} : Call V → Lexeme V ⊕ Production V
  | terminal lexeme => .inl lexeme
  | nonterminal rule _ => .inr rule

/-- What some calls of an interpretation have come to: the calls in the order in which they have
been made, a result or the message of the one that has failed, and the context that is left. -/
structure Evaluation (σ V α : Type) where
  calls : List (Call V)
  result : Except String α
  context : σ

namespace Evaluation

variable {σ V α β γ : Type}

/-- No calls, and a result. -/
protected def pure (a : α) (context : σ) : Evaluation σ V α :=
  ⟨[], .ok a, context⟩

/-- Goes on from a result. -/
def andThen (e : Evaluation σ V α) (f : α → σ → Evaluation σ V β) : Evaluation σ V β :=
  match e.result with
  | .error message => ⟨e.calls, .error message, e.context⟩
  | .ok a => ⟨e.calls ++ (f a e.context).calls, (f a e.context).result, (f a e.context).context⟩

theorem andThen_of_error {e : Evaluation σ V α} {message : String} (h : e.result = .error message)
    (f : α → σ → Evaluation σ V β) :
  e.andThen f = ⟨e.calls, .error message, e.context⟩
  := by rw [andThen, h]

theorem andThen_of_ok {e : Evaluation σ V α} {a : α} (h : e.result = .ok a)
    (f : α → σ → Evaluation σ V β) :
  e.andThen f
    = ⟨e.calls ++ (f a e.context).calls, (f a e.context).result, (f a e.context).context⟩
  := by rw [andThen, h]

/-- Where there is a result in the end there has been one to go on from. -/
theorem exists_ok_of_andThen {e : Evaluation σ V α} {f : α → σ → Evaluation σ V β} {b : β}
    (h : (e.andThen f).result = .ok b) :
  ∃ a, e.result = .ok a ∧ (f a e.context).result = .ok b
  := by
  cases hresult : e.result with
  | error message =>
      rw [andThen_of_error hresult] at h
      cases h
  | ok a =>
      rw [andThen_of_ok hresult] at h
      exact ⟨a, rfl, h⟩

@[simp]
theorem pure_andThen (a : α) (context : σ) (f : α → σ → Evaluation σ V β) :
  (Evaluation.pure a context).andThen f = f a context
  := rfl

theorem andThen_pure (e : Evaluation σ V α) :
  e.andThen Evaluation.pure = e
  := by
  obtain ⟨calls, result, context⟩ := e
  cases result with
  | error message => rfl
  | ok a => simp [andThen, Evaluation.pure]

theorem andThen_assoc (e : Evaluation σ V α) (f : α → σ → Evaluation σ V β)
    (f' : β → σ → Evaluation σ V γ) :
  (e.andThen f).andThen f' = e.andThen fun a context => (f a context).andThen f'
  := by
  cases h : e.result with
  | error message => simp [andThen, h]
  | ok a =>
      cases h' : (f a e.context).result with
      | error message => simp [andThen, h, h']
      | ok b => simp [andThen, h, h']

/-- What is gone on with matters at the result only. -/
theorem andThen_congr {e : Evaluation σ V α} {f f' : α → σ → Evaluation σ V β}
    (h : ∀ a, e.result = .ok a → f a e.context = f' a e.context) :
  e.andThen f = e.andThen f'
  := by
  cases hresult : e.result with
  | error message => rw [andThen_of_error hresult, andThen_of_error hresult]
  | ok a => rw [andThen_of_ok hresult, andThen_of_ok hresult, h a hresult]

end Evaluation

namespace Interpretation

variable {σ V : Type}

/-- The answer to a call. -/
def answer (ι : Interpretation σ V) : Call V → σ → Except String V × σ
  | .terminal lexeme, context => ι.terminal lexeme context
  | .nonterminal rule children, context => ι.nonterminal rule children context

/-- A single call. -/
def perform (ι : Interpretation σ V) (call : Call V) (context : σ) : Evaluation σ V V :=
  ⟨[call], (ι.answer call context).1, (ι.answer call context).2⟩

/-- Some calls are made one after the other, and none of them fails. -/
inductive Answers (ι : Interpretation σ V) : σ → List (Call V) → σ → Prop where
  | nil (context : σ) : Answers ι context [] context
  | cons {context context' context'' : σ} {call : Call V} {calls : List (Call V)} {value : V}
      (hcall : ι.answer call context = (.ok value, context'))
      (h : Answers ι context' calls context'') : Answers ι context (call :: calls) context''

theorem Answers.append {ι : Interpretation σ V} {context context' context'' : σ}
    {calls calls' : List (Call V)} (h : ι.Answers context calls context')
    (h' : ι.Answers context' calls' context'') :
  ι.Answers context (calls ++ calls') context''
  := by
  induction h with
  | nil => apply h'
  | cons hcall _ ih => apply Answers.cons hcall (ih h')

end Interpretation

/-- An evaluation makes a call for each of the given lexemes and rules, one after the other, until
a call fails.  That one is the last, and its message is the result. -/
structure Evaluation.Visits {σ V α : Type} (ι : Interpretation σ V) (context : σ)
    (subjects : List (Lexeme V ⊕ Production V)) (e : Evaluation σ V α) : Prop where
  ok : ∀ a, e.result = .ok a →
    e.calls.map Call.subject = subjects ∧ ι.Answers context e.calls e.context
  error : ∀ message, e.result = .error message →
    e.calls.map Call.subject <+: subjects
      ∧ ∃ calls call context', e.calls = calls ++ [call] ∧ ι.Answers context calls context'
        ∧ ι.answer call context' = (.error message, e.context)

namespace Evaluation.Visits

variable {σ V α β : Type} {ι : Interpretation σ V} {context : σ}
  {subjects subjects' : List (Lexeme V ⊕ Production V)}

theorem pure (a : α) :
  (Evaluation.pure a context).Visits ι context []
  where
  ok _ _ := ⟨rfl, .nil context⟩
  error _ h := by cases h

theorem perform (call : Call V) :
  (ι.perform call context).Visits ι context [call.subject]
  where
  ok _ h := ⟨rfl, .cons (Prod.ext h rfl) (.nil _)⟩
  error _ h := ⟨List.prefix_refl _, [], call, context, rfl, .nil context, Prod.ext h rfl⟩

/-- Going on from a result visits what comes next. -/
theorem andThen {e : Evaluation σ V α} (h : e.Visits ι context subjects)
    {f : α → σ → Evaluation σ V β}
    (h' : ∀ a context', (f a context').Visits ι context' subjects') :
  (e.andThen f).Visits ι context (subjects ++ subjects')
  := by
  cases hresult : e.result with
  | error message =>
      rw [andThen_of_error hresult]
      obtain ⟨hupTo, hlast⟩ := h.error message hresult
      constructor
      · intro b hb
        cases hb
      · intro message' hmessage
        cases hmessage
        exact ⟨hupTo.trans (List.prefix_append _ _), hlast⟩
  | ok a =>
      rw [andThen_of_ok hresult]
      obtain ⟨hsubjects, hanswers⟩ := h.ok a hresult
      constructor
      · intro b hb
        obtain ⟨hsubjects', hanswers'⟩ := (h' a e.context).ok b hb
        rw [List.map_append, hsubjects, hsubjects']
        exact ⟨rfl, hanswers.append hanswers'⟩
      · intro message hmessage
        obtain ⟨hupTo, calls, call, context', hcalls, hanswers', hcall⟩ :=
          (h' a e.context).error message hmessage
        rw [List.map_append, hsubjects]
        refine ⟨(List.prefix_append_right_inj _).mpr hupTo, e.calls ++ calls, call, context', ?_,
          hanswers.append hanswers', hcall⟩
        rw [hcalls, List.append_assoc]

end Evaluation.Visits

/-! ### Derivations -/

namespace Derivation

variable {σ V : Type}

mutual

/-- The value of a derivation.  The value of a node is made of those of its children. -/
def evaluate (ι : Interpretation σ V) : Derivation V → σ → Evaluation σ V V
  | leaf lexeme, context => ι.perform (.terminal lexeme) context
  | node rule children, context =>
    (evaluateForest ι children context).andThen fun values => ι.perform (.nonterminal rule values)

/-- The values of several derivations, from left to right. -/
def evaluateForest (ι : Interpretation σ V) : List (Derivation V) → σ → Evaluation σ V (List V)
  | [], context => .pure [] context
  | d :: ds, context =>
    (evaluate ι d context).andThen fun value context =>
      (evaluateForest ι ds context).andThen fun values => .pure (value :: values)

end

variable {ι : Interpretation σ V} {context : σ}

mutual

/-- An evaluation calls the interpretation for each lexeme and each rule, in postorder, until a
call fails. -/
theorem evaluate_visits : ∀ (d : Derivation V) (context : σ),
    (d.evaluate ι context).Visits ι context d.postorder
  | leaf lexeme, context => .perform (.terminal lexeme)
  | node rule children, context => by
      rw [evaluate, postorder]
      apply (evaluateForest_visits children context).andThen
      intro values context'
      exact .perform (.nonterminal rule values)

theorem evaluateForest_visits : ∀ (ds : List (Derivation V)) (context : σ),
    (evaluateForest ι ds context).Visits ι context (postorderForest ds)
  | [], context => .pure []
  | d :: ds, context => by
      rw [evaluateForest, postorderForest]
      apply (evaluate_visits d context).andThen
      intro value context'
      rw [← List.append_nil (postorderForest ds)]
      apply (evaluateForest_visits ds context').andThen
      intro values context''
      exact .pure (value :: values)

end

theorem evaluateForest_append (ds ds' : List (Derivation V)) (context : σ) :
  evaluateForest ι (ds ++ ds') context
    = (evaluateForest ι ds context).andThen fun values context =>
      (evaluateForest ι ds' context).andThen fun values' => .pure (values ++ values')
  := by
  induction ds generalizing context with
  | nil =>
      symm
      apply Evaluation.andThen_pure
  | cons d ds ih =>
      simp only [List.cons_append, evaluateForest, ih, Evaluation.andThen_assoc,
        Evaluation.pure_andThen]

/-- There is one value for each derivation. -/
theorem length_of_evaluateForest {ds : List (Derivation V)} {values : List V}
    (h : (evaluateForest ι ds context).result = .ok values) :
  values.length = ds.length
  := by
  induction ds generalizing context values with
  | nil =>
      cases h
      rfl
  | cons d ds ih =>
      rw [evaluateForest] at h
      obtain ⟨value, -, hrest⟩ := Evaluation.exists_ok_of_andThen h
      obtain ⟨values', hvalues, hcons⟩ := Evaluation.exists_ok_of_andThen hrest
      cases hcons
      rw [List.length_cons, List.length_cons, ih hvalues]

/-- One more derivation is evaluated last. -/
theorem evaluateForest_concat (ds : List (Derivation V)) (d : Derivation V) :
  evaluateForest ι (ds ++ [d]) context
    = (evaluateForest ι ds context).andThen fun values context =>
      (d.evaluate ι context).andThen fun value => .pure (values ++ [value])
  := by
  rw [evaluateForest_append]
  simp only [evaluateForest, Evaluation.andThen_assoc, Evaluation.pure_andThen]

/-- Where the last derivations become the children of a node, the values of these are handed to
the interpretation together with the rule. -/
theorem evaluateForest_concat_node (ds children : List (Derivation V)) (rule : Production V) :
  evaluateForest ι (ds ++ [node rule children]) context
    = (evaluateForest ι (ds ++ children) context).andThen fun values context =>
      (ι.perform (.nonterminal rule (values.drop ds.length)) context).andThen fun value =>
        .pure (values.take ds.length ++ [value])
  := by
  rw [evaluateForest_concat, evaluateForest_append]
  simp only [evaluate, Evaluation.andThen_assoc, Evaluation.pure_andThen]
  apply Evaluation.andThen_congr
  intro values hvalues
  simp only [← length_of_evaluateForest hvalues, List.drop_left, List.take_left]

/-! ### Building trees -/

mutual

/-- The interpretation that builds trees gives each derivation its tree. -/
theorem evaluate_trees : ∀ d : Derivation ParseTree,
    (d.evaluate .trees context).result = .ok d.tree ∧ (d.evaluate .trees context).context = context
  | leaf _ => ⟨rfl, rfl⟩
  | node rule children => by
      obtain ⟨hresult, hcontext⟩ := evaluateForest_trees children
      rw [evaluate, Evaluation.andThen_of_ok hresult]
      exact ⟨rfl, hcontext⟩

theorem evaluateForest_trees : ∀ ds : List (Derivation ParseTree),
    (evaluateForest .trees ds context).result = .ok (trees ds)
      ∧ (evaluateForest .trees ds context).context = context
  | [] => ⟨rfl, rfl⟩
  | d :: ds => by
      obtain ⟨hresult, hcontext⟩ := evaluate_trees d
      obtain ⟨hresult', hcontext'⟩ := evaluateForest_trees ds
      rw [evaluateForest, Evaluation.andThen_of_ok hresult, hcontext,
        Evaluation.andThen_of_ok hresult']
      exact ⟨rfl, hcontext'⟩

end

end Derivation

end ShiftReduce
