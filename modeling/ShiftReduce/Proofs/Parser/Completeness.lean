import ShiftReduce.Proofs.Parser.Stepping

/-!
# Reading derivation trees

Where the roots of a forest may come next, an engine reads the leaves of the forest and
builds its trees, or meets a conflict (`Engine.Parses.forest_read`).  The lookahead that
ends the reading of a tree is the first leaf of the trees after it, if there is one.
-/

namespace ShiftReduce

/-- What a leaf keeps of a lexeme. -/
def Lexeme.content {V : Type} (lexeme : Lexeme V) : Symbol × String :=
  (lexeme.symbol, lexeme.text)

namespace Engine

variable {σ E : Type} {m : Engine σ ParseTree} {language : Language ParseTree E} {g : Grammar}
  {a : Automaton}

/-- What holds at a conflict, and before a step if it holds after it. -/
structure Backward (m : Engine σ ParseTree) (g : Grammar) (a : Automaton)
    (P : Configuration σ ParseTree → Prop) : Prop where
  next : ∀ {c c'}, m.step c = .next c' → P c' → P c
  clash : ∀ {q below γ values input context x}, a.Spells (q :: below) γ →
    g.symbols.id? input.head.symbol = some x → m.table.Clashes q x →
    P (.reading (q :: below) values input context)

/-- On a stack that spells a prefix actions compete. -/
def Clashing (m : Engine σ ParseTree) (a : Automaton) : Prop :=
  ∃ q below γ x, a.Spells (q :: below) γ ∧ m.table.Clashes q x

namespace Parses

/-- The symbols after the dot of a core are labels. -/
theorem startId_lt (hm : m.Parses language g a) {c : Core} {s rest : List SymbolId}
    (hafter : c.after g = s ++ rest) :
  ∀ i ∈ s, startId < i
  := by
  intro i hi
  obtain ⟨r, hr, hmem⟩ := Core.mem_rhs_of_mem_after (hafter ▸ List.mem_append_left rest hi)
  apply (hm.isOver.proper.of_mem_rhs hr hmem).1

/-- The first leaf of a forest, or what comes after it where there is none, may come before
the roots of the forest. -/
theorem exists_first (hm : m.Parses language g a) {ts : List ParseTree}
    (hts : ParseTree.DerivesForest language.rules ts) {s : List SymbolId}
    (hs : g.NumbersForest ts s) (hlabel : ∀ i ∈ s, startId < i)
    {lexemes following : List (Lexeme ParseTree)}
    (hlexemes : lexemes.map Lexeme.content = ParseTree.leavesOfForest ts) {x : SymbolId}
    (hx : g.symbols.id? (firstSymbol following) = some x) :
  ∃ x', g.symbols.id? (firstSymbol (lexemes ++ following)) = some x'
    ∧ ∀ {γ c rest}, Expects g γ c rest x → Expects g γ c (s ++ rest) x'
  := by
  rcases hm.encodes.vanishes_or_begins hm.isOver.proper hts hs hlabel with
    ⟨hnil, hvanishes⟩ | ⟨first, rest, x', hcons, hfirst, hbegins⟩
  · rw [hnil, List.map_eq_nil_iff] at hlexemes
    subst hlexemes
    use x, hx
    intro γ c rest hexpects
    apply hexpects.of_vanishes hvanishes
  · rw [hcons] at hlexemes
    obtain ⟨lexeme, lexemes', rfl, rfl, _⟩ := List.map_eq_cons_iff.mp hlexemes
    use x', hfirst
    intro γ c rest _
    apply Or.inl (hbegins.append_right rest)

/-- A leaf that may come next is read. -/
theorem leaf_read (hm : m.Parses language g a) {P : Configuration σ ParseTree → Prop}
    (hP : m.Backward g a P) {γ : List SymbolId} {c : Core} {i : SymbolId}
    {rest : List SymbolId} (hc : Viable g γ c) (hafter : c.after g = i :: rest)
    {lexeme : Lexeme ParseTree} (hi : g.symbols.id? lexeme.symbol = some i)
    (hterminal : IsTerminal language.rules lexeme.symbol) {stack : List StateId}
    (hstack : a.Spells stack γ) {values : List ParseTree}
    {following : List (Lexeme ParseTree)} {finish : Nat} {context : σ}
    (hnext : ∀ stack', a.Spells stack' (i :: γ) →
      P (.reading stack' (.leaf lexeme.symbol lexeme.text :: values)
        ⟨following, lexeme.finish⟩ context)) :
  P (.reading stack values ⟨lexeme :: following, finish⟩ context)
  := by
  have hlabel := hm.startId_lt (s := [i]) hafter i (List.mem_singleton_self i)
  have hi' := (hm.encodes.isTerminal_iff hm.isOver.proper hi hlabel).mpr hterminal
  have hx : g.symbols.id? (Input.head ⟨lexeme :: following, finish⟩).symbol = some i := hi
  obtain ⟨q, below, rfl⟩ := hstack.exists_eq_cons
  obtain ⟨target, htarget, haction | hclash⟩ := hm.isOver.shift hstack hc hafter hi'
  · apply hP.next (hm.step_shift hx haction)
    apply hnext
    apply hstack.edge htarget
  · apply hP.clash hstack hx hclash

/-- When the subtrees of a node have been read, the node is made. -/
theorem node_read (hm : m.Parses language g a) {P : Configuration σ ParseTree → Prop}
    (hP : m.Backward g a P) {index : Nat} {r : Rule} (hr : g.rule? (.user index) = some r)
    {p : Production ParseTree} (hp : language.rules[index]? = some p) {γ : List SymbolId}
    {x : SymbolId} (hfollows : Follows g γ ⟨.user index, 0⟩ x) {children : List ParseTree}
    (hlength : children.length = r.rhs.length) {stack : List StateId}
    (hstack : a.Spells stack (r.rhs.reverse ++ γ)) {values : List ParseTree}
    {input : Input ParseTree} (hx : g.symbols.id? input.head.symbol = some x) {context : σ}
    (hnext : ∀ stack', a.Spells stack' (r.lhs :: γ) →
      P (.reading stack' (.node p.lhs children :: values) input context)) :
  P (.reading stack (children.reverse ++ values) input context)
  := by
  obtain ⟨q, below, rfl⟩ := hstack.exists_eq_cons
  rcases reduces_or_clashes hm.isOver hr hstack hfollows with hclash | ⟨stack', hreduces, hs'⟩
  · apply hP.clash hstack hx hclash
  · have hlength' : children.reverse.length = r.rhs.length := by
      rw [List.length_reverse, hlength]
    apply hP.next (hm.step_reduce hx hreduces hp hr _)
    · rw [← hlength', List.take_left, List.drop_left, List.reverse_reverse]
      apply hnext stack' hs'
    · rw [List.length_append, hlength']
      apply Nat.le_add_right

/-- A forest whose roots may come next is read from its leaves. -/
theorem forest_read (hm : m.Parses language g a) {P : Configuration σ ParseTree → Prop}
    (hP : m.Backward g a P) {ts : List ParseTree}
    (hts : ParseTree.DerivesForest language.rules ts) {s : List SymbolId}
    (hs : g.NumbersForest ts s) {lexemes following : List (Lexeme ParseTree)}
    (hlexemes : lexemes.map Lexeme.content = ParseTree.leavesOfForest ts) {x : SymbolId}
    (hx : g.symbols.id? (firstSymbol following) = some x) {γ : List SymbolId} {c : Core}
    {rest : List SymbolId} (hc : Viable g γ c) (hafter : c.after g = s ++ rest)
    (hexpects : Expects g γ c rest x) {stack : List StateId} (hstack : a.Spells stack γ)
    {values : List ParseTree} {finish : Nat} {context : σ}
    (hnext : ∀ stack' finish', a.Spells stack' (s.reverse ++ γ) →
      P (.reading stack' (ts.reverse ++ values) ⟨following, finish'⟩ context)) :
  P (.reading stack values ⟨lexemes ++ following, finish⟩ context)
  := by
  induction ts using ParseTree.forest_induction
    generalizing s lexemes following x γ c rest stack values finish with
  | nil =>
      obtain rfl := hs.eq_nil
      obtain rfl := List.map_eq_nil_iff.mp hlexemes
      apply hnext stack finish hstack
  | leaf kind text ts ih =>
      obtain ⟨i, s, rfl, hi, hrest⟩ := hs.exists_cons
      obtain ⟨lexeme, lexemes, rfl, hcontent, hothers⟩ := List.map_eq_cons_iff.mp hlexemes
      obtain ⟨rfl, rfl⟩ := Prod.mk.inj hcontent
      apply hm.leaf_read hP hc hafter hi hts.1 hstack
      intro stack₁ hstack₁
      apply ih hts.2 hrest hothers hx (hc.read hafter) (Core.after_advance hafter)
        (hexpects.read hafter) hstack₁
      intro stack₂ finish₂ hstack₂
      have hvalues := hnext stack₂ finish₂
      rw [List.reverse_cons, List.append_assoc, List.reverse_cons, List.append_assoc] at hvalues
      apply hvalues hstack₂
  | node kind children ts ihchildren ih =>
      obtain ⟨i, s, rfl, hi, hrest⟩ := hs.exists_cons
      obtain ⟨⟨hexpands, hchildren⟩, hts⟩ := hts
      obtain ⟨index, rhs, p, hp, rfl, hr, hrhs⟩ := hm.encodes.exists_rule_of_expands hi hexpands
      obtain ⟨first, second, rfl, hfirst, hsecond⟩ := List.map_eq_append_iff.mp hlexemes
      have hlabel := hm.startId_lt (s := i :: s) hafter
      obtain ⟨x', hx', hexpects'⟩ := hm.exists_first hts hrest
        (fun j hj => hlabel j (List.mem_cons_of_mem i hj)) hsecond hx
      have hfollows := (hexpects' hexpects).follows hc hafter
        (Grammar.mem_rulesFor.mpr ⟨_, hr, rfl⟩)
      have hlength : children.length = rhs.length := by
        have hmap := congrArg List.length hrhs
        simpa using hmap
      rw [List.append_assoc]
      apply ihchildren hchildren hrhs hfirst hx' hfollows.viable (Core.after_front hr)
        (.inr ⟨.nil, hfollows⟩) hstack
      intro stack₁ finish₁ hstack₁
      apply hm.node_read hP hr hp hfollows hlength hstack₁
      · rw [Input.symbol_head]
        apply hx'
      · intro stack₂ hstack₂
        apply ih hts hrest hsecond hx (hc.read hafter) (Core.after_advance hafter)
          (hexpects.read hafter) hstack₂
        intro stack₃ finish₃ hstack₃
        have hvalues := hnext stack₃ finish₃
        rw [List.reverse_cons, List.append_assoc, List.reverse_cons, List.append_assoc]
          at hvalues
        apply hvalues hstack₃

/-- The parse of the leaves of a derivation tree of the start symbol ends with the tree, or
with a conflict. -/
theorem ends_of_derives (hm : m.Parses language g a) {t : ParseTree}
    (ht : t.Derives language.rules) (hkind : t.kind = language.start)
    {lexemes following : List (Lexeme ParseTree)}
    (hleaves : lexemes.map Lexeme.content = t.leaves)
    (hend : firstSymbol following = .endOfInput)
    (hlast : firstSymbol following.tail = .endOfInput) (context : σ) :
  ∃ parsed, m.Ends (.initial (lexemes ++ following) context) parsed
    ∧ (parsed.value = .ok t ∨ m.Clashing a
      ∧ ∃ q symbol offset, parsed.value = .error (.conflict q symbol offset))
  := by
  have hP : m.Backward g a fun c => ∃ parsed, m.Ends c parsed
      ∧ (parsed.value = .ok t ∨ m.Clashing a
        ∧ ∃ q symbol offset, parsed.value = .error (.conflict q symbol offset)) := by
    constructor
    · rintro c c' hstep ⟨parsed, hends, hcases⟩
      exact ⟨parsed, ends_of_next hstep hends, hcases⟩
    · intro q below γ values input context x hs hx hclash
      refine ⟨_, ends_of_stop (step_clash (hm.symbolId?_eq _ ▸ hx) hclash), .inr ⟨?_, _, _, _, rfl⟩⟩
      exact ⟨q, below, γ, x, hs, hclash⟩
  have hx := hm.encodes.endOfInput
  rw [← hend] at hx
  have hforest : ParseTree.DerivesForest language.rules [t] := ⟨ht, trivial⟩
  have hnumbers : g.NumbersForest [t] [g.start] := by
    simp [Grammar.NumbersForest, hkind, hm.encodes.start]
  have hafter : (Core.mk .accept 0).after g = [g.start] ++ [] := rfl
  obtain ⟨hread, hcomplete⟩ := Viable.start.read_append hafter
  rw [Configuration.initial_eq]
  apply hm.forest_read hP hforest hnumbers _ hx Viable.start hafter (.inr ⟨.nil, .start⟩) .start
  · intro stack finish hs
    obtain ⟨q, below, rfl⟩ := hs.exists_eq_cons
    have hx' : g.symbols.id? (Input.head ⟨following, finish⟩).symbol = some endOfInputId := by
      rw [Input.symbol_head]
      apply hx
    rcases hm.isOver.accept hs hread ⟨⟨g.accept, rfl⟩, hcomplete⟩ with haction | hclash
    · refine ⟨⟨.ok t, context⟩, ends_of_stop ?_, .inl rfl⟩
      rw [step_accept (hm.symbolId?_eq _ ▸ hx') haction, accept_reading, if_pos hlast]
      rfl
    · apply hP.clash hs hx' hclash
  · rw [hleaves, ParseTree.leavesOfForest_singleton]

end Parses

end Engine

namespace Parser.Generated

section Library

variable [PatternLibrary] {σ E : Type} {p : Parser σ ParseTree E} {strategy : Strategy}

/-- A parser without conflicts returns every derivation tree of the start symbol for its
leaves. -/
theorem parseLexemes_of_derives (hp : p.Generated strategy)
    (htrees : p.interpretation = .trees) (hkind : p.table.kind ≠ .conflicted)
    {t : ParseTree} (ht : t.Derives p.language.rules) (hstart : t.kind = p.language.start)
    {lexemes following : List (Lexeme ParseTree)}
    (hleaves : lexemes.map Lexeme.content = t.leaves)
    (hend : firstSymbol following = .endOfInput)
    (hlast : firstSymbol following.tail = .endOfInput) (context : σ) :
  (p.parseLexemes (lexemes ++ following) context).value = .ok t
  := by
  obtain ⟨g, a, hm⟩ := hp.exists_parses htrees
  obtain ⟨parsed, hends, hvalue | ⟨hclashing, -⟩⟩ :=
    hm.ends_of_derives ht hstart hleaves hend hlast context
  · rw [parseLexemes, hends.parse_eq, hvalue]
  · obtain ⟨q, _, _, x, -, hclash⟩ := hclashing
    cases hm.isOver.not_clashes hkind q x hclash

/-- The parser of a language returns each derivation tree of the start symbol for its leaves,
with or without one end of input after them, or it meets a conflict.  Without conflicts in
the table it returns the tree, and then no other derivation tree has these leaves. -/
theorem parses_derivation_trees (hp : p.Generated strategy)
    (htrees : p.interpretation = .trees) {t : ParseTree}
    (ht : t.Derives p.language.rules) (hstart : t.kind = p.language.start)
    {lexemes following : List (Lexeme ParseTree)}
    (hleaves : lexemes.map Lexeme.content = t.leaves)
    (hfollowing : following = [] ∨ ∃ lexeme, following = [lexeme]
      ∧ lexeme.symbol = .endOfInput)
    (context : σ) :
  ((p.parseLexemes (lexemes ++ following) context).value = .ok t
      ∨ ∃ q symbol offset, (p.parseLexemes (lexemes ++ following) context).value
        = .error (.conflict q symbol offset))
    ∧ (p.table.kind ≠ .conflicted →
      (p.parseLexemes (lexemes ++ following) context).value = .ok t
        ∧ ∀ t' : ParseTree, t'.Derives p.language.rules → t'.kind = p.language.start →
          t'.leaves = t.leaves → t' = t)
  := by
  have hend : firstSymbol following = .endOfInput := by
    rcases hfollowing with rfl | ⟨lexeme, rfl, hlexeme⟩
    · rfl
    · apply hlexeme
  have hlast : firstSymbol following.tail = .endOfInput := by
    rcases hfollowing with rfl | ⟨lexeme, rfl, -⟩ <;> rfl
  constructor
  · obtain ⟨g, a, hm⟩ := hp.exists_parses htrees
    obtain ⟨parsed, hends, hvalue⟩ := hm.ends_of_derives ht hstart hleaves hend hlast context
    rw [parseLexemes, hends.parse_eq]
    rcases hvalue with hvalue | ⟨-, hconflict⟩
    · apply Or.inl hvalue
    · apply Or.inr hconflict
  · intro hkind
    have hvalue := hp.parseLexemes_of_derives htrees hkind ht hstart hleaves hend hlast context
    use hvalue
    intro t' ht' hstart' hleaves'
    rw [← hleaves'] at hleaves
    have hvalue' := hp.parseLexemes_of_derives htrees hkind ht' hstart' hleaves hend hlast context
    rw [hvalue] at hvalue'
    apply (Except.ok.inj hvalue').symm

end Library

theorem parses_derivation_trees_small :
  ((Parser.small .canonicalOnly).parseLexemes (Language.smallWord ++ [.endOfInput 2]) ()).value
    = .ok (.node (.label "s")
        [.node (.label "s") [.leaf (.label "a") "a"], .leaf (.label "b") "b"])
  := by
  have hderives : ParseTree.Derives Language.small.rules (.node (.label "s")
      [.node (.label "s") [.leaf (.label "a") "a"], .leaf (.label "b") "b"]) := by
    simp only [ParseTree.Derives, ParseTree.DerivesForest]
    decide
  have hkind : (Parser.small .canonicalOnly).table.kind ≠ .conflicted := by decide +kernel
  apply ((parses_derivation_trees (Parser.small_generated .canonicalOnly) rfl hderives rfl rfl
    (.inr ⟨.endOfInput 2, rfl, rfl⟩) ()).2 hkind).1

end Parser.Generated

end ShiftReduce
