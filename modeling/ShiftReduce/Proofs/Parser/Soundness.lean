import ShiftReduce.Proofs.Parser.Completeness

/-!
# What is returned is a derivation tree

While an engine parses, its states spell a prefix, its trees are derivation trees whose roots
are the symbols of the prefix, and their leaves are what has been read so far, without any end
of input (`Engine.At`).  Each step keeps this, and where the parse is accepted the prefix is
the start symbol alone.
-/

namespace ShiftReduce

namespace SymbolTable

/-- Symbols are determined by their numbers. -/
theorem map_id?_injective {t : SymbolTable} {l l' : List Symbol} {ids : List SymbolId}
    (h : l.map t.id? = ids.map some) (h' : l'.map t.id? = ids.map some) :
  l = l'
  := by
  induction l generalizing l' ids with
  | nil =>
      obtain rfl : ids = [] := List.map_eq_nil_iff.mp h.symm
      apply (List.map_eq_nil_iff.mp h').symm
  | cons s l ih =>
      obtain ⟨i, ids, rfl, hi, hids⟩ := List.map_eq_cons_iff.mp h.symm
      obtain ⟨s', l', rfl, hs', hl'⟩ := List.map_eq_cons_iff.mp h'
      rw [id?_injective hi.symm hs', ih hids.symm hl']

end SymbolTable

namespace Grammar

variable {g : Grammar}

/-- The topmost trees have the symbols of a right-hand side that has been read. -/
theorem NumbersForest.split {values : List ParseTree} {s δ : List SymbolId}
    (h : g.NumbersForest values (s.reverse ++ δ)) :
  s.length ≤ values.length ∧ g.NumbersForest (values.take s.length).reverse s
    ∧ g.NumbersForest (values.drop s.length) δ
  := by
  have hlength := congrArg List.length h
  simp only [List.length_map, List.length_append, List.length_reverse] at hlength
  rw [NumbersForest] at h
  refine ⟨?_, ?_, ?_⟩
  · rw [hlength]
    apply Nat.le_add_right
  · rw [NumbersForest, List.map_reverse, List.map_reverse, List.map_take, List.map_take, h,
      List.map_append, List.take_left' (by simp), List.map_reverse, List.reverse_reverse]
  · rw [NumbersForest, List.map_drop, List.map_drop, h, List.map_append,
      List.drop_left' (by simp)]

theorem NumbersForest.cons {t : ParseTree} {ts : List ParseTree} {i : SymbolId}
    {s : List SymbolId} (hi : g.symbols.id? t.kind = some i) (hs : g.NumbersForest ts s) :
  g.NumbersForest (t :: ts) (i :: s)
  := by
  rw [NumbersForest] at hs
  simp [NumbersForest, hi, hs]

end Grammar

namespace Engine

/-- Where an engine is after it has read some of the lexemes: the states spell a prefix, the
trees are derivation trees of its symbols, and their leaves are the lexemes that have been
read, none of which is an end of input. -/
structure At {E : Type} (language : Language ParseTree E) (g : Grammar) (a : Automaton)
    (lexemes : List (Lexeme ParseTree)) (γ : List SymbolId) (stack : List StateId)
    (values : List ParseTree) (input : Input ParseTree) : Prop where
  spells : a.Spells stack γ
  derives : ∀ t ∈ values, t.Derives language.rules
  numbers : g.NumbersForest values γ
  consumed : ∃ read, lexemes = read ++ input.rest
    ∧ read.map Lexeme.content = ParseTree.leavesOfForest values.reverse
    ∧ ∀ lexeme ∈ read, lexeme.symbol ≠ .endOfInput

namespace At

variable {σ E : Type} {m : Engine σ ParseTree} {language : Language ParseTree E} {g : Grammar}
  {a : Automaton} {lexemes : List (Lexeme ParseTree)} {γ : List SymbolId} {q : StateId}
  {stack below : List StateId} {values : List ParseTree} {input : Input ParseTree}
  {x : SymbolId}

theorem initial :
  At language g a lexemes [] [startState] [] ⟨lexemes, 0⟩
  where
  spells := .start
  derives _ ht := by cases ht
  numbers := rfl
  consumed := by
    use [], rfl, rfl
    intro lexeme hlexeme
    cases hlexeme

/-- A shift reads a lexeme that is no end of input. -/
theorem shift (hm : m.Parses language g a)
    (h : At language g a lexemes γ (q :: below) values input)
    (hx : g.symbols.id? input.head.symbol = some x) {target : StateId}
    (haction : m.table.action? q x = some (.shift target)) :
  At language g a lexemes (x :: γ) (target :: q :: below)
    (.leaf input.head.symbol input.head.text :: values) input.tail
  := by
  obtain ⟨htarget, hterminal⟩ := hm.isOver.target_of_shift haction
  obtain ⟨c, rest, _, hafter⟩ := (hm.isOver.faithful.exists_target_iff h.spells x).mp ⟨_, htarget⟩
  have hlabel := hm.startId_lt (s := [x]) hafter x (List.mem_singleton_self x)
  obtain ⟨lexeme, rest', hrest, hhead, htail, hne⟩ :=
    exists_of_shift hm.isOver hm.encodes.endOfInput (hm.symbolId?_eq _ ▸ hx) haction
  obtain ⟨read, hlexemes, hcontent, hread⟩ := h.consumed
  constructor
  · apply h.spells.edge htarget
  · rw [List.forall_mem_cons]
    refine ⟨?_, h.derives⟩
    apply (hm.encodes.isTerminal_iff hm.isOver.proper hx hlabel).mp hterminal
  · apply h.numbers.cons hx
  · refine ⟨read ++ [lexeme], ?_, ?_, ?_⟩
    · rw [hlexemes, hrest, htail, List.append_assoc]
      rfl
    · rw [List.map_append, hcontent, hhead, List.reverse_cons, ParseTree.leavesOfForest_append,
        ParseTree.leavesOfForest_singleton]
      rfl
    · rw [List.forall_mem_append]
      use hread
      intro lexeme' hlexeme'
      obtain rfl := List.mem_singleton.mp hlexeme'
      apply hne

/-- A reduction makes a node that a rule of the language expands. -/
theorem reduce (hm : m.Parses language g a)
    (h : At language g a lexemes γ stack values input) {index : Nat}
    {stack' : List StateId} (hreduces : Reduces m.table x index stack stack') :
  ∃ r p δ, g.rule? (.user index) = some r ∧ language.rules[index]? = some p
    ∧ γ = r.rhs.reverse ++ δ ∧ r.rhs.length ≤ values.length
    ∧ At language g a lexemes (r.lhs :: δ) stack' (.node p.lhs
      (values.take r.rhs.length).reverse :: values.drop r.rhs.length) input
  := by
  obtain ⟨r, δ, hr, rfl, hs', -⟩ := hreduces.exists_rule hm.isOver h.spells
  obtain ⟨p, hp, hnumbers⟩ := hm.encodes.exists_production_at hr
  obtain ⟨hle, hchildren, hothers⟩ := h.numbers.split
  use r, p, δ, hr, hp, rfl, hle
  have hrhs := SymbolTable.map_id?_injective hnumbers.rhs hchildren
  constructor
  · apply hs'
  · rw [List.forall_mem_cons]
    refine ⟨⟨⟨p, List.mem_of_getElem? hp, rfl, hrhs⟩, ?_⟩, ?_⟩
    · apply ParseTree.derivesForest_iff.mpr
      intro t ht
      apply h.derives t (List.mem_of_mem_take (List.mem_reverse.mp ht))
    · intro t ht
      apply h.derives t (List.mem_of_mem_drop ht)
  · apply hothers.cons hnumbers.lhs
  · obtain ⟨read, hlexemes, hcontent, hread⟩ := h.consumed
    refine ⟨read, hlexemes, ?_, hread⟩
    rw [hcontent, List.reverse_cons, ParseTree.leavesOfForest_append,
      ParseTree.leavesOfForest_singleton, ParseTree.leaves,
      ← ParseTree.leavesOfForest_append, ← List.reverse_append, List.take_append_drop]

/-- After a reduction by a rule its left-hand side has been read in place of its right-hand
side. -/
theorem reduced (hm : m.Parses language g a)
    (h : At language g a lexemes γ stack values input) {index : Nat}
    {stack' : List StateId} (hreduces : Reduces m.table x index stack stack') {r : Rule}
    {p : Production ParseTree} (hr : g.rule? (.user index) = some r)
    (hp : language.rules[index]? = some p) :
  ∃ δ, γ = r.rhs.reverse ++ δ ∧ r.rhs.length ≤ values.length
    ∧ At language g a lexemes (r.lhs :: δ) stack' (.node p.lhs
      (values.take r.rhs.length).reverse :: values.drop r.rhs.length) input
  := by
  obtain ⟨r', p', δ, hr', hp', hγ, hle, h'⟩ := h.reduce hm hreduces
  rw [hr] at hr'
  cases hr'
  rw [hp] at hp'
  cases hp'
  exact ⟨δ, hγ, hle, h'⟩

/-- The parse is accepted at the end of the input, when the start symbol has been read. -/
theorem accept (hm : m.Parses language g a)
    (h : At language g a lexemes γ (q :: below) values input)
    (haction : m.table.action? q x = some .accept) :
  x = endOfInputId ∧ γ = [g.start] ∧ ∃ t, values = [t] ∧ t.kind = language.start
  := by
  obtain ⟨hx, rfl⟩ := hm.isOver.eq_start_of_accept h.spells haction
  have hnumbers := h.numbers
  use hx, rfl
  cases values with
  | nil => cases hnumbers
  | cons t ts =>
      obtain ⟨i, s, hcons, hi, hs⟩ := hnumbers.exists_cons
      obtain ⟨rfl, rfl⟩ := List.cons.inj hcons
      cases ts with
      | cons t' ts => cases hs
      | nil =>
          use t, rfl
          apply SymbolTable.id?_injective hi hm.encodes.start

end At

/-- What a step does with a state on top. -/
inductive Effect {σ E : Type} (m : Engine σ ParseTree) (language : Language ParseTree E)
    (g : Grammar) (q : StateId) (below : List StateId) (values : List ParseTree)
    (input : Input ParseTree) (context : σ) : Step σ ParseTree → Prop where
  | unknown (hx : g.symbols.id? input.head.symbol = none) :
      Effect m language g q below values input context
        (.stop ⟨.error (.unknownSymbol input.head.symbol input.head.offset), context⟩)
  | shift {x : SymbolId} {target : StateId} (hx : g.symbols.id? input.head.symbol = some x)
      (haction : m.table.action? q x = some (.shift target)) :
      Effect m language g q below values input context
        (.next (.reading (target :: q :: below)
          (.leaf input.head.symbol input.head.text :: values) input.tail context))
  | reduce {x : SymbolId} {index : Nat} {stack' : List StateId} {r : Rule}
      {p : Production ParseTree} (hx : g.symbols.id? input.head.symbol = some x)
      (hreduces : Reduces m.table x index (q :: below) stack')
      (hr : g.rule? (.user index) = some r) (hp : language.rules[index]? = some p) :
      Effect m language g q below values input context
        (.next (.reading stack' (.node p.lhs (values.take r.rhs.length).reverse
          :: values.drop r.rhs.length) input context))
  | accept {x : SymbolId} {t : ParseTree} (hx : g.symbols.id? input.head.symbol = some x)
      (haction : m.table.action? q x = some .accept) (hvalues : values = [t])
      (hlast : firstSymbol input.rest.tail = .endOfInput) :
      Effect m language g q below values input context (.stop ⟨.ok t, context⟩)
  | more {x : SymbolId} (hx : g.symbols.id? input.head.symbol = some x)
      (haction : m.table.action? q x = some .accept)
      (hlast : firstSymbol input.rest.tail ≠ .endOfInput) :
      Effect m language g q below values input context
        (.stop ⟨.error (.unexpected q input.tail.head.symbol input.tail.head.offset), context⟩)
  | clash {x : SymbolId} (hx : g.symbols.id? input.head.symbol = some x)
      (hclash : m.table.Clashes q x) :
      Effect m language g q below values input context
        (.stop ⟨.error (.conflict q input.head.symbol input.head.offset), context⟩)
  | unexpected {x : SymbolId} (hx : g.symbols.id? input.head.symbol = some x)
      (haction : m.table.action? q x = none
        ∨ ∃ target, m.table.action? q x = some (.goto target)) :
      Effect m language g q below values input context
        (.stop ⟨.error (.unexpected q input.head.symbol input.head.offset), context⟩)

section

variable {σ E : Type} {m : Engine σ ParseTree} {language : Language ParseTree E} {g : Grammar}
  {a : Automaton} {lexemes : List (Lexeme ParseTree)} {γ : List SymbolId} {q : StateId}
  {below : List StateId} {values : List ParseTree} {input : Input ParseTree}

/-- A step has one of these effects. -/
theorem At.effect (hm : m.Parses language g a)
    (h : At language g a lexemes γ (q :: below) values input) (context : σ) :
  Effect m language g q below values input context
    (m.step (.reading (q :: below) values input context))
  := by
  cases hx : g.symbols.id? input.head.symbol with
  | none =>
      rw [step_unknown (hm.symbolId?_eq _ ▸ hx)]
      apply Effect.unknown hx
  | some x =>
      cases haction : m.table.action? q x with
      | none =>
          rw [step_unexpected (hm.symbolId?_eq _ ▸ hx) (.inl haction)]
          apply Effect.unexpected hx (.inl haction)
      | some action =>
          cases action with
          | shift target =>
              rw [hm.step_shift hx haction]
              apply Effect.shift hx haction
          | reduce id =>
              obtain ⟨index, _, _, stack', _, _, _, _, hreduces, _⟩ :=
                exists_reduces hm.isOver h.spells haction
              obtain ⟨r, p, _, hr, hp, _, hle, _⟩ := h.reduce hm hreduces
              rw [hm.step_reduce hx hreduces hp hr hle]
              apply Effect.reduce hx hreduces hr hp
          | goto target =>
              rw [step_unexpected (hm.symbolId?_eq _ ▸ hx) (.inr ⟨target, haction⟩)]
              apply Effect.unexpected hx (.inr ⟨target, haction⟩)
          | accept =>
              obtain ⟨_, _, t, rfl, _⟩ := h.accept hm haction
              rw [step_accept (hm.symbolId?_eq _ ▸ hx) haction, accept_reading]
              by_cases hlast : firstSymbol input.rest.tail = .endOfInput
              · rw [if_pos hlast]
                apply Effect.accept hx haction rfl hlast
              · rw [if_neg hlast]
                apply Effect.more hx haction hlast
          | conflict shifts reduces =>
              rw [step_clash (hm.symbolId?_eq _ ▸ hx) ⟨shifts, reduces, haction⟩]
              apply Effect.clash hx ⟨shifts, reduces, haction⟩

/-- A step leads to a configuration of the same kind. -/
theorem At.next (hm : m.Parses language g a) {stack : List StateId}
    (h : At language g a lexemes γ stack values input) {context : σ}
    {c : Configuration σ ParseTree}
    (hstep : m.step (.reading stack values input context) = .next c) :
  ∃ γ' stack' values' input', c = .reading stack' values' input' context
    ∧ At language g a lexemes γ' stack' values' input'
  := by
  obtain ⟨q, below, rfl⟩ := h.spells.exists_eq_cons
  have heffect := h.effect hm context
  rw [hstep] at heffect
  cases heffect with
  | shift hx haction => exact ⟨_, _, _, _, rfl, h.shift hm hx haction⟩
  | reduce hx hreduces hr hp =>
      obtain ⟨δ, -, -, h'⟩ := h.reduced hm hreduces hr hp
      exact ⟨_, _, _, _, rfl, h'⟩

/-- When a parse ends with a tree, it is a derivation tree of the start symbol, and its leaves
are the lexemes before an end of input.  The lexeme after that, if there is one, is an end of
input too. -/
theorem Parses.derives_of_ends (hm : m.Parses language g a) {context : σ}
    {parsed : Parsed σ ParseTree} (hends : m.Ends (.initial lexemes context) parsed)
    {t : ParseTree} (ht : parsed.value = .ok t) :
  t.Derives language.rules ∧ t.kind = language.start
    ∧ ∃ read following, lexemes = read ++ following ∧ read.map Lexeme.content = t.leaves
      ∧ (∀ lexeme ∈ read, lexeme.symbol ≠ .endOfInput)
      ∧ firstSymbol following = .endOfInput ∧ firstSymbol following.tail = .endOfInput
  := by
  revert ht
  apply hends.induction (I := fun c => ∃ γ stack values input context,
    c = .reading stack values input context ∧ At language g a lexemes γ stack values input)
  · rintro c c' ⟨γ, stack, values, input, context, rfl, h⟩ hstep
    obtain ⟨γ', stack', values', input', rfl, h'⟩ := h.next hm hstep
    exact ⟨γ', stack', values', input', context, rfl, h'⟩
  · rintro c parsed ⟨γ, stack, values, input, context, rfl, h⟩ hstep ht
    obtain ⟨q, below, rfl⟩ := h.spells.exists_eq_cons
    have heffect := h.effect hm context
    rw [hstep] at heffect
    cases heffect with
    | @accept x _ hx haction hvalues hlast =>
        cases ht
        subst hvalues
        obtain ⟨hend, _, t', hcons, hkind⟩ := h.accept hm haction
        cases hcons
        obtain ⟨read, hlexemes, hcontent, hread⟩ := h.consumed
        refine ⟨h.derives t (List.mem_singleton_self t), hkind, read, input.rest, hlexemes,
          ?_, hread, ?_, hlast⟩
        · rw [hcontent, List.reverse_singleton, ParseTree.leavesOfForest_singleton]
        · rw [← Input.symbol_head]
          apply SymbolTable.id?_injective hx
          rw [hend]
          apply hm.encodes.endOfInput
    | _ => cases ht
  · exact ⟨[], _, [], _, context, Configuration.initial_eq lexemes context, .initial⟩

end

end Engine

namespace Parser.Generated

section Library

variable [PatternLibrary] {σ E : Type} {p : Parser σ ParseTree E} {strategy : Strategy}

/-- What the parser of a language returns for any lexemes is a derivation tree of the start
symbol, each node of which is expanded by one rule only, and its leaves are the lexemes before
the first end of input. -/
theorem derives_of_parseLexemes (hp : p.Generated strategy)
    (htrees : p.interpretation = .trees) {lexemes : List (Lexeme ParseTree)} {context : σ}
    {t : ParseTree} (ht : (p.parseLexemes lexemes context).value = .ok t) :
  t.Derives p.language.rules ∧ t.kind = p.language.start
    ∧ t.leaves = (beforeEnd lexemes).map Lexeme.content
    ∧ p.language.rules.Pairwise fun r r' => r.sameShape r' = false
  := by
  obtain ⟨g, a, hm⟩ := hp.exists_parses htrees
  have hends := Engine.ends_of_parse_eq_ok ht
  obtain ⟨hderives, hkind, read, following, rfl, hcontent, hread, hend, -⟩ :=
    hm.derives_of_ends hends ht
  refine ⟨hderives, hkind, ?_, hp.definable.pairwise_sameShape⟩
  rw [beforeEnd_append hread hend, hcontent]

end Library

theorem derives_of_parseLexemes_small :
  ∃ t, ((Parser.small .canonicalOnly).parseLexemes Language.smallWord ()).value = .ok t
    ∧ t.kind = .label "s" ∧ t.leaves = [(.label "a", "a"), (.label "b", "b")]
  := by
  obtain ⟨t, ht⟩ := (Parser.small .canonicalOnly).engine.exists_value_of_run
    Language.smallWord () 5 (by decide +kernel)
  obtain ⟨-, hkind, hleaves, -⟩ :=
    derives_of_parseLexemes (Parser.small_generated .canonicalOnly) rfl ht
  exact ⟨t, ht, hkind, hleaves⟩

end Parser.Generated

end ShiftReduce
