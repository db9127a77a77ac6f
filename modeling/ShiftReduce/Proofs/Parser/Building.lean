import ShiftReduce.Proofs.Parser.Evaluation
import ShiftReduce.Proofs.Parser.Sentence

/-!
# Building derivations

What a parse makes of the lexemes before it is given any values is a stack of derivations.  It
depends on the table and the rules only (`ParseTable.Builds`), and so does the way in which a
parse ends at a lexeme that is neither shifted nor reduced on (`ParseTable.Closes`).  Values and
actions do not matter: over rules of the same shapes and lexemes with the same symbols, texts and
offsets, derivations with the same trees are built (`ParseTable.Builds.exists_alike`).
-/

namespace ShiftReduce

/-! ### Lexemes without values and rules without actions -/

section

variable {V : Type}

/-- A lexeme without its value. -/
def Lexeme.bare (lexeme : Lexeme V) : Lexeme ParseTree :=
  { symbol := lexeme.symbol, text := lexeme.text, offset := lexeme.offset }

/-- A lexeme without its value, or a rule without its action. -/
def bareSubject : Lexeme V ⊕ Production V → Lexeme ParseTree ⊕ Production ParseTree :=
  Sum.map Lexeme.bare Production.bare

/-- The lexemes that have not been looked at, without their values. -/
def Input.bare (input : Input V) : Input ParseTree :=
  ⟨input.rest.map Lexeme.bare, input.finish⟩

theorem Input.head_bare (input : Input V) :
  input.bare.head = input.head.bare
  := by
  obtain ⟨rest, finish⟩ := input
  cases rest <;> rfl

theorem Input.tail_bare (input : Input V) :
  input.bare.tail = input.tail.bare
  := by
  obtain ⟨rest, finish⟩ := input
  cases rest <;> rfl

section

variable {W : Type} {input : Input V} {input' : Input W}

theorem Input.head_congr (h : input.bare = input'.bare) :
  input.head.bare = input'.head.bare
  := by rw [← Input.head_bare, ← Input.head_bare, h]

theorem Input.tail_congr (h : input.bare = input'.bare) :
  input.tail.bare = input'.tail.bare
  := by rw [← Input.tail_bare, ← Input.tail_bare, h]

theorem Input.symbol_congr (h : input.bare = input'.bare) :
  input.head.symbol = input'.head.symbol
  := congrArg Lexeme.symbol (Input.head_congr h)

theorem Input.offset_congr (h : input.bare = input'.bare) :
  input.head.offset = input'.head.offset
  := congrArg Lexeme.offset (Input.head_congr h)

end

end

/-! ### Stacks of derivations -/

namespace Derivation

variable {V : Type}

/-- A reduction adds a rule to what is met in postorder. -/
theorem postorderForest_reduced (n : Nat) (rule : Production V) (ds : List (Derivation V)) :
  postorderForest (.node rule (ds.take n).reverse :: ds.drop n).reverse
    = postorderForest ds.reverse ++ [.inr rule]
  := by
  rw [List.reverse_cons, postorderForest_concat, postorder, ← List.append_assoc,
    ← postorderForest_append, ← List.reverse_append, List.take_append_drop]

/-- A reduction reads nothing. -/
theorem lexemesForest_reduced (n : Nat) (rule : Production V) (ds : List (Derivation V)) :
  lexemesForest (.node rule (ds.take n).reverse :: ds.drop n).reverse = lexemesForest ds.reverse
  := by
  rw [lexemesForest, postorderForest_reduced, List.filterMap_append]
  apply List.append_nil

theorem lexemesForest_shifted (lexeme : Lexeme V) (ds : List (Derivation V)) :
  lexemesForest (.leaf lexeme :: ds).reverse = lexemesForest ds.reverse ++ [lexeme]
  := by
  rw [List.reverse_cons, lexemesForest, postorderForest_concat, List.filterMap_append]
  rfl

theorem trees_reduced (n : Nat) (rule : Production V) (ds : List (Derivation V)) :
  trees (.node rule (ds.take n).reverse :: ds.drop n)
    = .node rule.lhs ((trees ds).take n).reverse :: (trees ds).drop n
  := by simp only [trees, tree, trees_eq_map, List.map_reverse, List.map_take, List.map_drop]

end Derivation

namespace ParseTable

variable {V : Type} {t : ParseTable} {q : StateId} {below states : List StateId} {input : Input V}

/-! ### Shifts and reductions -/

/-- The derivations that shifts and reductions have built of some lexemes, with the topmost one
first, the states on the stack, and what has not been read yet. -/
inductive Builds (t : ParseTable) (rules : List (Production V)) (lexemes : List (Lexeme V)) :
    List (Derivation V) → List StateId → Input V → Prop where
  | start : Builds t rules lexemes [] [startState] ⟨lexemes, 0⟩
  | shift {ds : List (Derivation V)} {q : StateId} {below : List StateId} {input : Input V}
      {x : SymbolId} {target : StateId} (h : Builds t rules lexemes ds (q :: below) input)
      (hx : t.symbolId? input.head.symbol = some x)
      (haction : t.action? q x = some (.shift target)) :
      Builds t rules lexemes (.leaf input.head :: ds) (target :: q :: below) input.tail
  | reduce {ds : List (Derivation V)} {states states' : List StateId} {input : Input V}
      {x : SymbolId} {index : Nat} {shape : Reduction} {rule : Production V}
      (h : Builds t rules lexemes ds states input)
      (hx : t.symbolId? input.head.symbol = some x)
      (hreduces : Reduces t x index states states')
      (hshape : t.reductions[index]? = some shape) (hrule : rules[index]? = some rule)
      (hlength : shape.length ≤ ds.length) :
      Builds t rules lexemes (.node rule (ds.take shape.length).reverse :: ds.drop shape.length)
        states' input

/-- The derivations on the stack stand for a prefix that the states spell.  They are valid, and
their lexemes are those that have been read, none of which is an end of input. -/
structure Stacked {E : Type} (language : Language V E) (g : Grammar) (a : Automaton)
    (lexemes : List (Lexeme V)) (γ : List SymbolId) (ds : List (Derivation V))
    (states : List StateId) (input : Input V) : Prop where
  spells : a.Spells states γ
  numbers : g.NumbersForest (Derivation.trees ds) γ
  valid : Derivation.ValidForest language.rules ds
  consumed : lexemes = Derivation.lexemesForest ds.reverse ++ input.rest
  unended : ∀ lexeme ∈ Derivation.lexemesForest ds.reverse, lexeme.symbol ≠ .endOfInput

namespace Stacked

variable {E : Type} {language : Language V E} {g : Grammar} {a : Automaton}
  {lexemes : List (Lexeme V)} {γ : List SymbolId} {ds : List (Derivation V)} {x : SymbolId}

theorem start :
  Stacked language g a lexemes [] [] [startState] ⟨lexemes, 0⟩
  where
  spells := .start
  numbers := rfl
  valid := trivial
  consumed := rfl
  unended := nofun

/-- A shift puts the lookahead on the stack. -/
theorem shift (hover : t.Over g a) (hencodes : g.Encodes language)
    (h : Stacked language g a lexemes γ ds (q :: below) input)
    (hx : t.symbolId? input.head.symbol = some x) {target : StateId}
    (haction : t.action? q x = some (.shift target)) :
  Stacked language g a lexemes (x :: γ) (.leaf input.head :: ds) (target :: q :: below) input.tail
  := by
  obtain ⟨lexeme, rest, hrest, hhead, htail, hne⟩ :=
    Engine.exists_of_shift hover hencodes.endOfInput hx haction
  constructor
  · apply h.spells.edge (hover.target_of_shift haction).1
  · apply h.numbers.cons
    rw [← hx, symbolId?, hover.symbols]
    rfl
  · exact ⟨trivial, h.valid⟩
  · rw [Derivation.lexemesForest_shifted, htail, hhead, List.append_assoc, List.singleton_append,
      ← hrest]
    apply h.consumed
  · rw [Derivation.lexemesForest_shifted, List.forall_mem_append, List.forall_mem_singleton, hhead]
    exact ⟨h.unended, hne⟩

/-- A reduction makes the topmost derivations the children of a node. -/
theorem reduce (hover : t.Over g a) (hencodes : g.Encodes language)
    (h : Stacked language g a lexemes γ ds states input) {index : Nat} {states' : List StateId}
    (hreduces : Reduces t x index states states') {shape : Reduction}
    (hshape : t.reductions[index]? = some shape) {rule : Production V}
    (hrule : language.rules[index]? = some rule) :
  ∃ γ', Stacked language g a lexemes γ'
    (.node rule (ds.take shape.length).reverse :: ds.drop shape.length) states' input
  := by
  obtain ⟨r, δ, hr, rfl, hs', -⟩ := hreduces.exists_rule hover h.spells
  obtain ⟨p, hp, hnumbers⟩ := hencodes.exists_production_at hr
  rw [hrule] at hp
  cases hp
  rw [hover.shape_of_rule hr] at hshape
  cases hshape
  obtain ⟨-, hchildren, hothers⟩ := h.numbers.split
  have hsymbols : ((Derivation.trees ds).take r.rhs.length).reverse.map ParseTree.kind
      = (ds.take r.rhs.length).reverse.map Derivation.symbol := by
    rw [Derivation.trees_eq_map, ← List.map_take, ← List.map_reverse, List.map_map]
    apply List.map_congr_left
    intro d _
    apply d.kind_tree
  have hvalid := Derivation.validForest_iff.mp h.valid
  use r.lhs :: δ
  constructor
  · apply hs'
  · rw [Derivation.trees_reduced]
    apply hothers.cons hnumbers.lhs
  · refine ⟨⟨List.mem_of_getElem? hrule, ?_, ?_⟩, ?_⟩
    · rw [← hsymbols]
      apply SymbolTable.map_id?_injective hnumbers.rhs hchildren
    · apply Derivation.validForest_iff.mpr
      intro d hd
      apply hvalid d (List.mem_of_mem_take (List.mem_reverse.mp hd))
    · apply Derivation.validForest_iff.mpr
      intro d hd
      apply hvalid d (List.mem_of_mem_drop hd)
  · rw [Derivation.lexemesForest_reduced]
    apply h.consumed
  · rw [Derivation.lexemesForest_reduced]
    apply h.unended

end Stacked

/-- The derivations that are built are valid, and made of the lexemes that have been read. -/
theorem Builds.exists_stacked {E : Type} {language : Language V E} {g : Grammar} {a : Automaton}
    {lexemes : List (Lexeme V)} {ds : List (Derivation V)} (hover : t.Over g a)
    (hencodes : g.Encodes language) (h : t.Builds language.rules lexemes ds states input) :
  ∃ γ, Stacked language g a lexemes γ ds states input
  := by
  induction h with
  | start => exact ⟨[], .start⟩
  | shift _ hx haction ih =>
      obtain ⟨γ, h⟩ := ih
      exact ⟨_, h.shift hover hencodes hx haction⟩
  | reduce _ _ hreduces hshape hrule _ ih =>
      obtain ⟨γ, h⟩ := ih
      apply h.reduce hover hencodes hreduces hshape hrule

/-! ### Values and actions do not matter -/

/-- Two stacks have the same trees, of the same lexemes and rules except for their values and
actions, and the same remains to be read. -/
structure Alike {W : Type} (ds : List (Derivation V)) (input : Input V) (ds' : List (Derivation W))
    (input' : Input W) : Prop where
  trees : Derivation.trees ds = Derivation.trees ds'
  subjects : (Derivation.postorderForest ds.reverse).map bareSubject
    = (Derivation.postorderForest ds'.reverse).map bareSubject
  input : input.bare = input'.bare

namespace Alike

variable {W : Type} {ds : List (Derivation V)} {ds' : List (Derivation W)} {input' : Input W}

theorem length_eq (h : Alike ds input ds' input') :
  ds.length = ds'.length
  := by
  have htrees := h.trees
  rw [Derivation.trees_eq_map, Derivation.trees_eq_map] at htrees
  simpa only [List.length_map] using congrArg List.length htrees

theorem shift (h : Alike ds input ds' input') :
  Alike (.leaf input.head :: ds) input.tail (.leaf input'.head :: ds') input'.tail
  := by
  have hhead := Input.head_congr h.input
  constructor
  · have htext : input.head.text = input'.head.text := congrArg Lexeme.text hhead
    simp only [Derivation.trees, Derivation.tree, h.trees, Input.symbol_congr h.input, htext]
  · simp only [List.reverse_cons, Derivation.postorderForest_concat, List.map_append, h.subjects]
    apply congrArg (fun lexeme => _ ++ [Sum.inl lexeme]) hhead
  · apply Input.tail_congr h.input

theorem reduce (h : Alike ds input ds' input') {rule : Production V} {rule' : Production W}
    (hrule : rule.bare = rule'.bare) (n : Nat) :
  Alike (.node rule (ds.take n).reverse :: ds.drop n) input
    (.node rule' (ds'.take n).reverse :: ds'.drop n) input'
  := by
  constructor
  · have hlhs : rule.lhs = rule'.lhs := congrArg Production.lhs hrule
    rw [Derivation.trees_reduced, Derivation.trees_reduced, h.trees, hlhs]
  · simp only [Derivation.postorderForest_reduced, List.map_append, h.subjects]
    apply congrArg (fun rule => _ ++ [Sum.inr rule]) hrule
  · apply h.input

end Alike

/-- Over rules of the same shapes, derivations with the same trees are built of lexemes with the
same symbols, texts and offsets. -/
theorem Builds.exists_alike {W : Type} {rules : List (Production V)} {rules' : List (Production W)}
    {lexemes : List (Lexeme V)} {lexemes' : List (Lexeme W)} {ds : List (Derivation V)}
    (h : t.Builds rules lexemes ds states input)
    (hrules : rules.map Production.bare = rules'.map Production.bare)
    (hlexemes : lexemes.map Lexeme.bare = lexemes'.map Lexeme.bare) :
  ∃ ds' input', t.Builds rules' lexemes' ds' states input' ∧ Alike ds input ds' input'
  := by
  induction h with
  | start =>
      refine ⟨[], _, .start, rfl, rfl, ?_⟩
      rw [Input.bare, hlexemes]
      rfl
  | shift _ hx haction ih =>
      obtain ⟨ds', input', h', halike⟩ := ih
      have hx' := Input.symbol_congr halike.input ▸ hx
      exact ⟨_, _, .shift h' hx' haction, halike.shift⟩
  | @reduce ds states states' input x index shape rule _ hx hreduces hshape hrule hlength ih =>
      obtain ⟨ds', input', h', halike⟩ := ih
      have hx' := Input.symbol_congr halike.input ▸ hx
      have hbare := congrArg (·[index]?) hrules
      simp only [List.getElem?_map, hrule, Option.map_some] at hbare
      obtain ⟨rule', hrule', hsame⟩ := Option.map_eq_some_iff.mp hbare.symm
      have hlength' := halike.length_eq ▸ hlength
      exact ⟨_, _, .reduce h' hx' hreduces hshape hrule' hlength', halike.reduce hsame.symm _⟩

/-! ### Ends -/

/-- The lookahead is neither shifted nor reduced on: it is accepted, and nothing comes after it,
or else there is an error. -/
inductive Closes (t : ParseTable) (q : StateId) (input : Input V) : Option ParseError → Prop where
  | unknown (hx : t.symbolId? input.head.symbol = none) :
      Closes t q input (some (.unknownSymbol input.head.symbol input.head.offset))
  | accept {x : SymbolId} (hx : t.symbolId? input.head.symbol = some x)
      (haction : t.action? q x = some .accept)
      (hlast : firstSymbol input.rest.tail = .endOfInput) : Closes t q input none
  | more {x : SymbolId} (hx : t.symbolId? input.head.symbol = some x)
      (haction : t.action? q x = some .accept)
      (hlast : firstSymbol input.rest.tail ≠ .endOfInput) :
      Closes t q input
        (some (.unexpected q input.tail.head.symbol input.tail.head.offset))
  | clash {x : SymbolId} (hx : t.symbolId? input.head.symbol = some x)
      (hclash : t.Clashes q x) :
      Closes t q input (some (.conflict q input.head.symbol input.head.offset))
  | unexpected {x : SymbolId} (hx : t.symbolId? input.head.symbol = some x)
      (haction : t.action? q x = none ∨ ∃ target, t.action? q x = some (.goto target)) :
      Closes t q input (some (.unexpected q input.head.symbol input.head.offset))

/-- The values of the lexemes do not matter for the way in which a parse ends. -/
theorem Closes.of_bare {W : Type} {input' : Input W} {e : Option ParseError}
    (h : t.Closes q input e) (hinput : input.bare = input'.bare) :
  t.Closes q input' e
  := by
  have hsymbol := Input.symbol_congr hinput
  have hoffset := Input.offset_congr hinput
  have hnext := Input.tail_congr hinput
  have hfirst : firstSymbol input.rest.tail = firstSymbol input'.rest.tail := by
    rw [← Input.rest_tail, ← Input.symbol_head, Input.symbol_congr hnext, Input.symbol_head,
      Input.rest_tail]
  cases h with
  | unknown hx =>
      rw [hsymbol] at hx ⊢
      rw [hoffset]
      apply Closes.unknown hx
  | accept hx haction hlast => apply Closes.accept (hsymbol ▸ hx) haction (hfirst ▸ hlast)
  | more hx haction hlast =>
      rw [Input.symbol_congr hnext, Input.offset_congr hnext]
      apply Closes.more (hsymbol ▸ hx) haction (hfirst ▸ hlast)
  | clash hx hclash =>
      rw [hsymbol] at hx ⊢
      rw [hoffset]
      apply Closes.clash hx hclash
  | unexpected hx haction =>
      rw [hsymbol] at hx ⊢
      rw [hoffset]
      apply Closes.unexpected hx haction

/-- No end of input has been read. -/
theorem Stacked.lexemes_upTo {E : Type} {language : Language V E} {g : Grammar} {a : Automaton}
    {lexemes : List (Lexeme V)} {γ : List SymbolId} {ds : List (Derivation V)}
    (h : Stacked language g a lexemes γ ds states input) :
  Derivation.lexemesForest ds.reverse <+: beforeEnd lexemes
  := by
  rw [h.consumed, beforeEnd, List.takeWhile_append_of_pos]
  · apply List.prefix_append
  · intro lexeme hlexeme
    apply decide_eq_true (h.unended lexeme hlexeme)

/-- Where the lookahead is accepted everything before the end of the input has been read. -/
theorem Stacked.lexemes_of_accept {E : Type} {language : Language V E} {g : Grammar}
    {a : Automaton} {lexemes : List (Lexeme V)} {γ : List SymbolId} {ds : List (Derivation V)}
    (hover : t.Over g a) (hencodes : g.Encodes language)
    (h : Stacked language g a lexemes γ ds (q :: below) input) (hcloses : t.Closes q input none) :
  Derivation.lexemesForest ds.reverse = beforeEnd lexemes
  := by
  cases hcloses with
  | accept hx haction hlast =>
      obtain ⟨rfl, -⟩ := hover.eq_start_of_accept h.spells haction
      rw [symbolId?, hover.symbols] at hx
      have hend := SymbolTable.id?_injective hx hencodes.endOfInput
      rw [h.consumed, beforeEnd_append h.unended]
      rw [← Input.symbol_head, hend]

end ParseTable

/-! ### Building trees -/

namespace Engine

variable {σ E : Type} {m : Engine σ ParseTree} {language : Language ParseTree E} {g : Grammar}
  {a : Automaton} {lexemes : List (Lexeme ParseTree)} {context : σ}

/-- What an engine that builds trees has on its stack are the trees of the derivations that are
built. -/
theorem Parses.exists_builds (hm : m.Parses language g a) {parsed : Parsed σ ParseTree}
    (h : m.Ends (.initial lexemes context) parsed) :
  ∃ ds q below input, m.table.Builds language.rules lexemes ds (q :: below) input
    ∧ ((∃ d, ds = [d] ∧ m.table.Closes q input none ∧ parsed.value = .ok d.tree)
      ∨ ∃ e, m.table.Closes q input (some e) ∧ parsed.value = .error e)
  := by
  apply h.induction (I := fun c => ∃ γ stack ds input,
    c = .reading stack (Derivation.trees ds) input context
      ∧ At language g a lexemes γ stack (Derivation.trees ds) input
      ∧ m.table.Builds language.rules lexemes ds stack input)
  · rintro c c' ⟨γ, stack, ds, input, rfl, hat, hbuilds⟩ hstep
    obtain ⟨q, below, rfl⟩ := hat.spells.exists_eq_cons
    have heffect := hat.effect hm context
    rw [hstep] at heffect
    cases heffect with
    | shift hx haction =>
        have hx' := (hm.symbolId?_eq _).trans hx
        exact ⟨_, _, .leaf input.head :: ds, _, rfl, hat.shift hm hx haction,
          .shift hbuilds hx' haction⟩
    | @reduce x index stack' r p hx hreduces hr hp =>
        obtain ⟨δ, -, hle, hat'⟩ := hat.reduced hm hreduces hr hp
        have hx' := (hm.symbolId?_eq _).trans hx
        have hshape := hm.isOver.shape_of_rule hr
        rw [Derivation.trees_eq_map, List.length_map] at hle
        rw [← Derivation.trees_reduced] at hat' ⊢
        exact ⟨_, stack', _, input, rfl, hat', .reduce hbuilds hx' hreduces hshape hp hle⟩
  · rintro c parsed ⟨γ, stack, ds, input, rfl, hat, hbuilds⟩ hstep
    obtain ⟨q, below, rfl⟩ := hat.spells.exists_eq_cons
    refine ⟨ds, q, below, input, hbuilds, ?_⟩
    have heffect := hat.effect hm context
    rw [hstep] at heffect
    cases heffect with
    | unknown hx => exact .inr ⟨_, .unknown ((hm.symbolId?_eq _).trans hx), rfl⟩
    | @accept x t hx haction hvalues hlast =>
        rw [Derivation.trees_eq_map] at hvalues
        obtain ⟨d, rfl, rfl⟩ := List.map_eq_singleton_iff.mp hvalues
        exact .inl ⟨d, rfl, .accept ((hm.symbolId?_eq _).trans hx) haction hlast, rfl⟩
    | more hx haction hlast =>
        exact .inr ⟨_, .more ((hm.symbolId?_eq _).trans hx) haction hlast, rfl⟩
    | clash hx hclash => exact .inr ⟨_, .clash ((hm.symbolId?_eq _).trans hx) hclash, rfl⟩
    | unexpected hx haction =>
        exact .inr ⟨_, .unexpected ((hm.symbolId?_eq _).trans hx) haction, rfl⟩
  · exact ⟨[], _, [], _, Configuration.initial_eq lexemes context, .initial, .start⟩

end Engine

end ShiftReduce
