import ShiftReduce.Proofs.Parser.Soundness

/-!
# Sentences

The sentences of a language are the words that its derivation trees of the start symbol are
read from.  Where every nonterminal has a derivation tree, the trees that have been read up to
a viable core, and those of what remains of its rule, are part of a derivation tree of the
start symbol (`Grammar.Encodes.exists_completion`).
-/

namespace ShiftReduce

/-- A rule without its action. -/
def Production.bare {V : Type} (rule : Production V) : Production ParseTree :=
  { lhs := rule.lhs, rhs := rule.rhs }

namespace Language

variable {V E : Type}

/-- The symbols of the leaves of a derivation tree of the start symbol. -/
def Sentence (language : Language V E) (word : List Symbol) : Prop :=
  ∃ t : ParseTree, t.Derives language.rules ∧ t.kind = language.start
    ∧ t.leaves.map Prod.fst = word

/-- Some sentence begins with a word. -/
def BeginsSentence (language : Language V E) (word : List Symbol) : Prop :=
  ∃ rest, language.Sentence (word ++ rest)

/-- After a word a symbol may come: some sentence begins with the word and the symbol, or the
symbol is the end of the input and the word is a sentence. -/
def MayFollow (language : Language V E) (word : List Symbol) (s : Symbol) : Prop :=
  if s = .endOfInput then language.Sentence word else language.BeginsSentence (word ++ [s])

/-- Every nonterminal has a derivation tree. -/
def Productive (language : Language V E) : Prop :=
  ∀ p ∈ language.rules, ∃ t : ParseTree, t.Derives language.rules ∧ t.kind = p.lhs

/-! ### Rules without actions -/

/-- A language with the rules of another one, but without their actions and without lexical
rules. -/
def bare (language : Language V E) : Language ParseTree Empty where
  lexRules := []
  rules := language.rules.map fun p => { lhs := p.lhs, rhs := p.rhs }
  start := language.start

variable {language : Language V E}

theorem isTerminal_bare {s : Symbol} :
  IsTerminal language.bare.rules s ↔ IsTerminal language.rules s
  := by simp [IsTerminal, bare]

theorem expands_bare {s : Symbol} {l : List Symbol} :
  Expands language.bare.rules s l ↔ Expands language.rules s l
  := by simp [Expands, bare]

/-- Actions do not matter for derivation trees. -/
theorem derivesForest_bare {ts : List ParseTree} :
  ParseTree.DerivesForest language.bare.rules ts ↔ ParseTree.DerivesForest language.rules ts
  := by
  induction ts using ParseTree.forest_induction with
  | nil => rfl
  | leaf kind text ts ih =>
      rw [ParseTree.DerivesForest, ParseTree.DerivesForest, ih, ParseTree.Derives,
        ParseTree.Derives, isTerminal_bare]
  | node kind children ts ihchildren ih =>
      rw [ParseTree.DerivesForest, ParseTree.DerivesForest, ih, ParseTree.Derives,
        ParseTree.Derives, expands_bare, ihchildren]

theorem derives_bare {t : ParseTree} :
  t.Derives language.bare.rules ↔ t.Derives language.rules
  := by
  have h : ParseTree.DerivesForest language.bare.rules [t]
      ↔ ParseTree.DerivesForest language.rules [t] := derivesForest_bare
  simpa only [ParseTree.DerivesForest, and_true] using h

theorem sentence_bare {word : List Symbol} :
  language.bare.Sentence word ↔ language.Sentence word
  := by
  simp only [Sentence, derives_bare]
  rfl

theorem mayFollow_bare {word : List Symbol} {s : Symbol} :
  language.bare.MayFollow word s ↔ language.MayFollow word s
  := by simp only [MayFollow, BeginsSentence, sentence_bare]

end Language

namespace Grammar

variable {V E : Type} {g : Grammar} {language : Language V E}

/-- Where the first root has a number there is a first tree. -/
theorem NumbersForest.exists_tree {ts : List ParseTree} {i : SymbolId} {s : List SymbolId}
    (h : g.NumbersForest ts (i :: s)) :
  ∃ t ts', ts = t :: ts' ∧ g.symbols.id? t.kind = some i ∧ g.NumbersForest ts' s
  := by
  cases ts with
  | nil => cases h
  | cons t ts' =>
      obtain ⟨hi, hs⟩ := List.cons.inj h
      exact ⟨t, ts', rfl, hi, hs⟩

theorem NumbersForest.eq_nil_of_nil {ts : List ParseTree} (h : g.NumbersForest ts []) :
  ts = []
  := List.map_eq_nil_iff.mp (List.map_eq_nil_iff.mp h)

/-- Where every nonterminal has a derivation tree, some forest has the given roots. -/
theorem exists_forest_of_productive (h : language.Productive) {s : List SymbolId}
    (hs : ∀ i ∈ s, ∃ symbol, g.symbols.id? symbol = some i) :
  ∃ ts, ParseTree.DerivesForest language.rules ts ∧ g.NumbersForest ts s
  := by
  induction s with
  | nil => exact ⟨[], trivial, rfl⟩
  | cons i s ih =>
      rw [List.forall_mem_cons] at hs
      obtain ⟨⟨symbol, hi⟩, hs⟩ := hs
      obtain ⟨ts, hts, hnumbers⟩ := ih hs
      have htree : ∃ t : ParseTree, t.Derives language.rules ∧ t.kind = symbol := by
        by_cases hterminal : IsTerminal language.rules symbol
        · exact ⟨.leaf symbol "", hterminal, rfl⟩
        · rw [IsTerminal] at hterminal
          push Not at hterminal
          obtain ⟨p, hp, rfl⟩ := hterminal
          apply h p hp
      obtain ⟨t, ht, rfl⟩ := htree
      exact ⟨t :: ts, ⟨ht, hts⟩, hnumbers.cons hi⟩

namespace Encodes

/-- A grammar does not know the actions: it encodes any language with the same rules up to these,
and with the same start symbol. -/
theorem of_rules {V' E' : Type} {language' : Language V' E'} (h : g.Encodes language)
    (hrules : language'.rules.map Production.bare = language.rules.map Production.bare)
    (hstart : language'.start = language.start) :
  g.Encodes language'
  := by
  have hnumbers : List.Forall₂ g.symbols.Numbers (language'.rules.map Production.bare)
      g.rules.toList := by
    rw [hrules, List.forall₂_map_left_iff]
    apply h.rules.imp
    intro p r hp
    exact ⟨hp.lhs, hp.rhs⟩
  constructor
  · apply (List.forall₂_map_left_iff.mp hnumbers).imp
    intro p r hp
    exact ⟨hp.lhs, hp.rhs⟩
  · rw [hstart]
    apply h.start
  · apply h.endOfInput
  · apply h.startSymbol
  · obtain ⟨p, hp, hlhs⟩ := h.expands
    obtain ⟨p', hp', heq⟩ := List.mem_map.mp (hrules ▸ List.mem_map_of_mem hp)
    use p', hp'
    rw [hstart, ← hlhs]
    apply congrArg Production.lhs heq

theorem bare (h : g.Encodes language) :
  g.Encodes language.bare
  := by
  have hrules : language.bare.rules.map Production.bare = language.rules.map Production.bare := by
    rw [Language.bare, List.map_map]
    rfl
  exact h.of_rules hrules rfl

/-! ### Completing derivation trees -/

/-- The symbols after a dot are those of a rule. -/
theorem exists_symbol_of_mem_after (h : g.Encodes language) {c : Core} {i : SymbolId}
    (hi : i ∈ c.after g) :
  ∃ symbol, g.symbols.id? symbol = some i
  := by
  obtain ⟨r, hr, hmem⟩ := Core.mem_rhs_of_mem_after hi
  cases hrule : c.rule with
  | accept =>
      rw [hrule] at hr
      cases hr
      obtain rfl := List.mem_singleton.mp hmem
      exact ⟨_, h.start⟩
  | user index =>
      rw [hrule] at hr
      obtain ⟨p, -, hnumbers⟩ := h.exists_production_at hr
      obtain ⟨symbol, -, hsymbol⟩ := hnumbers.exists_symbol hmem
      exact ⟨symbol, hsymbol⟩

/-- The trees read up to a viable core, with those of what remains of its rule, are part of a
derivation tree of the start symbol. -/
theorem exists_completion (h : g.Encodes language) (hg : g.Proper)
    (hproductive : language.Productive) {γ : List SymbolId} {c : Core} (hc : Viable g γ c)
    {ts us : List ParseTree} (hts : ParseTree.DerivesForest language.rules ts)
    (hus : ParseTree.DerivesForest language.rules us) (hγ : g.NumbersForest ts γ)
    (hafter : g.NumbersForest us (c.after g)) :
  ∃ (t : ParseTree) (rest : List (Symbol × String)),
    t.Derives language.rules ∧ t.kind = language.start
      ∧ t.leaves = ParseTree.leavesOfForest ts.reverse ++ ParseTree.leavesOfForest us ++ rest
  := by
  induction hc generalizing ts us with
  | start =>
      obtain rfl := hγ.eq_nil_of_nil
      obtain ⟨t, us, rfl, hi, hnil⟩ := hafter.exists_tree
      obtain rfl := hnil.eq_nil_of_nil
      refine ⟨t, [], hus.1, SymbolTable.id?_injective hi h.start, ?_⟩
      rw [ParseTree.leavesOfForest_singleton, List.append_nil]
      rfl
  | @call γ c i rest id hc hnext hid ih =>
      -- the rule makes a node of the trees of its right-hand side
      obtain ⟨index, r, rfl, hr, rfl⟩ := user_of_mem_rulesFor hg hnext hid
      obtain ⟨p, hp, hnumbers⟩ := h.exists_production_at hr
      have hsymbols : ∀ j ∈ rest, ∃ symbol, g.symbols.id? symbol = some j := by
        intro j hj
        apply h.exists_symbol_of_mem_after (hnext ▸ List.mem_cons_of_mem _ hj)
      obtain ⟨vs, hvs, hrest⟩ := exists_forest_of_productive hproductive hsymbols
      rw [Core.after_of_rule hr, List.drop_zero] at hafter
      have hexpands : Expands language.rules p.lhs (us.map ParseTree.kind) :=
        ⟨p, List.mem_of_getElem? hp, rfl, SymbolTable.map_id?_injective hnumbers.rhs hafter⟩
      have hforest : ParseTree.DerivesForest language.rules (.node p.lhs us :: vs) :=
        ⟨⟨hexpands, hus⟩, hvs⟩
      have hroots : g.NumbersForest (.node p.lhs us :: vs) (c.after g) := by
        rw [hnext]
        apply hrest.cons hnumbers.lhs
      obtain ⟨t, rest', ht, hkind, hleaves⟩ := ih hts hforest hγ hroots
      refine ⟨t, ParseTree.leavesOfForest vs ++ rest', ht, hkind, ?_⟩
      rw [hleaves, ParseTree.leavesOfForest, ParseTree.leaves]
      simp only [List.append_assoc]
  | read hc hnext ih =>
      -- the tree read last is the first one that remains of the rule before it
      obtain ⟨u, ts, rfl, hi, hγ⟩ := hγ.exists_tree
      rw [Core.after_advance hnext] at hafter
      have hroots := hafter.cons hi
      rw [← hnext] at hroots
      have hforest : ParseTree.DerivesForest language.rules (u :: us) := ⟨hts.1, hus⟩
      obtain ⟨t, rest, ht, hkind, hleaves⟩ := ih hts.2 hforest hγ hroots
      refine ⟨t, rest, ht, hkind, ?_⟩
      rw [hleaves, List.reverse_cons, ParseTree.leavesOfForest_append,
        ParseTree.leavesOfForest_singleton, ParseTree.leavesOfForest, List.append_assoc,
        List.append_assoc, List.append_assoc, List.append_assoc]

/-- So what has been read up to a viable core begins a sentence. -/
theorem beginsSentence (h : g.Encodes language) (hg : g.Proper)
    (hproductive : language.Productive) {γ : List SymbolId} {c : Core} (hc : Viable g γ c)
    {ts : List ParseTree} (hts : ParseTree.DerivesForest language.rules ts)
    (hγ : g.NumbersForest ts γ) :
  language.BeginsSentence ((ParseTree.leavesOfForest ts.reverse).map Prod.fst)
  := by
  obtain ⟨us, hus, hafter⟩ :=
    exists_forest_of_productive hproductive fun _ hi => h.exists_symbol_of_mem_after hi
  obtain ⟨t, rest, ht, hkind, hleaves⟩ := h.exists_completion hg hproductive hc hts hus hγ hafter
  use (ParseTree.leavesOfForest us ++ rest).map Prod.fst, t, ht, hkind
  rw [hleaves, List.append_assoc, List.map_append]

end Encodes

end Grammar

end ShiftReduce
