import ShiftReduce.Proofs.Automaton.Viable

/-!
# Faithful automata

A stack of states spells a prefix if the edges of an automaton lead from the start state
over the symbols of the prefix to the states of the stack.  In a faithful automaton the top
of such a stack knows the viable cores of the prefix and all lookaheads that follow them.
Some lookaheads of a state need not follow the prefix, but each of them follows a prefix
that leads to the same state.
-/

namespace ShiftReduce

namespace Automaton

/-- Edges lead over the symbols of a prefix, the last of them at the front, to the states of
a stack, the top at the front. -/
inductive Spells (a : Automaton) : List StateId → List SymbolId → Prop where
  | start : Spells a [startState] []
  | edge {q target : StateId} {stack : List StateId} {γ : List SymbolId} {i : SymbolId}
      (h : Spells a (q :: stack) γ) (ht : a.target? q i = some target) :
      Spells a (target :: q :: stack) (i :: γ)

/-- The states know what is viable after the prefixes that lead to them, and what follows. -/
structure Faithful (g : Grammar) (a : Automaton) : Prop where
  hasCore : ∀ {q stack γ}, Spells a (q :: stack) γ →
    ∃ node, a.node? q = some node ∧ ∀ c, node.items.HasCore c ↔ Viable g γ c
  looks : ∀ {q stack γ node c x}, Spells a (q :: stack) γ → a.node? q = some node →
    Follows g γ c x → node.items.Looks c x
  edge : ∀ {q node i}, a.node? q = some node →
    ((∃ target, node.edges.get? i = some target) ↔ i ∈ node.items.nextSymbols g)
  origin : ∀ {q node c x}, a.node? q = some node → node.items.Looks c x →
    ∃ stack γ, Spells a (q :: stack) γ ∧ Follows g γ c x

/-- The lookaheads of the states follow every prefix that leads to them. -/
def Exact (g : Grammar) (a : Automaton) : Prop :=
  ∀ {q stack γ node c x}, Spells a (q :: stack) γ → a.node? q = some node →
    node.items.Looks c x → Follows g γ c x

variable {g : Grammar} {a : Automaton}

theorem target?_of_node {q : StateId} {node : Node} (hq : a.node? q = some node) (i : SymbolId) :
  a.target? q i = node.edges.get? i
  := by
  rw [target?, hq]
  rfl

namespace Spells

theorem ne_nil {stack : List StateId} {γ : List SymbolId} (h : Spells a stack γ) :
  stack ≠ []
  := by cases h <;> apply List.cons_ne_nil

theorem exists_eq_cons {stack : List StateId} {γ : List SymbolId} (h : Spells a stack γ) :
  ∃ q below, stack = q :: below
  := List.exists_cons_of_ne_nil h.ne_nil

/-- There is one state more than there are symbols. -/
theorem length_eq {stack : List StateId} {γ : List SymbolId} (h : Spells a stack γ) :
  stack.length = γ.length + 1
  := by
  induction h with
  | start => rfl
  | edge _ _ ih => rw [List.length_cons, ih, List.length_cons]

/-- Each prefix is spelled by at most one stack. -/
theorem unique {stack stack' : List StateId} {γ : List SymbolId} (h : Spells a stack γ)
    (h' : Spells a stack' γ) :
  stack = stack'
  := by
  induction h generalizing stack' with
  | start =>
      cases h'
      rfl
  | edge _ ht ih =>
      cases h' with
      | edge h' ht' =>
          obtain ⟨rfl, rfl⟩ := List.cons.inj (ih h')
          rw [ht] at ht'
          obtain rfl := Option.some.inj ht'
          rfl

/-- Without its topmost states a stack spells what has been read before. -/
theorem of_append {δ γ : List SymbolId} {stack : List StateId} (h : Spells a stack (δ ++ γ)) :
  Spells a (stack.drop δ.length) γ
  := by
  induction δ generalizing stack with
  | nil => apply h
  | cons i δ ih =>
      cases h with
      | edge h _ => apply ih h

end Spells

namespace Faithful

/-- The cores of a state are viable after the prefixes that lead to it. -/
theorem viable_of_hasCore (ha : Faithful g a) {q : StateId} {stack : List StateId}
    {γ : List SymbolId} {node : Node} {c : Core} (hs : Spells a (q :: stack) γ)
    (hq : a.node? q = some node) (hc : node.items.HasCore c) :
  Viable g γ c
  := by
  obtain ⟨node', hq', hcore⟩ := ha.hasCore hs
  rw [hq] at hq'
  cases hq'
  apply (hcore c).mp hc

/-- A state has an edge over the symbols that may be read next, and over no others. -/
theorem exists_edge_iff (ha : Faithful g a) {q : StateId} {stack : List StateId}
    {γ : List SymbolId} {node : Node} (hs : Spells a (q :: stack) γ)
    (hq : a.node? q = some node) (i : SymbolId) :
  (∃ target, node.edges.get? i = some target) ↔ ∃ c rest, Viable g γ c ∧ c.after g = i :: rest
  := by
  obtain ⟨node', hq', hcore⟩ := ha.hasCore hs
  rw [hq] at hq'
  cases hq'
  rw [ha.edge hq, ItemSet.mem_nextSymbols]
  simp only [hcore]

theorem exists_target_iff (ha : Faithful g a) {q : StateId} {stack : List StateId}
    {γ : List SymbolId} (hs : Spells a (q :: stack) γ) (i : SymbolId) :
  (∃ target, a.target? q i = some target) ↔ ∃ c rest, Viable g γ c ∧ c.after g = i :: rest
  := by
  obtain ⟨node, hq, -⟩ := ha.hasCore hs
  rw [← ha.exists_edge_iff hs hq i]
  simp only [target?, hq, Option.bind_some]

/-- Where a symbol may be read next a stack grows by a state. -/
theorem spells_read (ha : Faithful g a) {stack : List StateId} {γ : List SymbolId}
    (hs : Spells a stack γ) {c : Core} {i : SymbolId} {rest : List SymbolId}
    (hc : Viable g γ c) (hafter : c.after g = i :: rest) :
  ∃ q below target, stack = q :: below ∧ a.target? q i = some target
    ∧ Spells a (target :: stack) (i :: γ)
  := by
  obtain ⟨q, below, rfl⟩ := hs.exists_eq_cons
  obtain ⟨target, ht⟩ := (ha.exists_target_iff hs i).mpr ⟨c, rest, hc, hafter⟩
  exact ⟨q, below, target, rfl, ht, .edge hs ht⟩

/-- Prefixes that are spelled have viable cores. -/
theorem exists_viable (ha : Faithful g a) {stack : List StateId} {γ : List SymbolId}
    (hs : Spells a stack γ) :
  ∃ c, Viable g γ c
  := by
  cases hs with
  | start => exact ⟨_, .start⟩
  | edge hs ht =>
      obtain ⟨c, rest, hc, hafter⟩ := (ha.exists_target_iff hs _).mp ⟨_, ht⟩
      exact ⟨_, hc.read hafter⟩

/-- Prefixes with viable cores are spelled. -/
theorem exists_spells (ha : Faithful g a) {γ : List SymbolId} {c : Core}
    (hc : Viable g γ c) :
  ∃ stack, Spells a stack γ
  := by
  induction hc with
  | start => exact ⟨_, .start⟩
  | call _ _ _ ih => apply ih
  | read hc hafter ih =>
      obtain ⟨stack, hs⟩ := ih
      obtain ⟨_, _, _, _, _, hs'⟩ := ha.spells_read hs hc hafter
      exact ⟨_, hs'⟩

/-- A prefix that is spelled in one faithful automaton is spelled in each of them. -/
theorem spells_of_spells {a' : Automaton} (ha : Faithful g a) (ha' : Faithful g a')
    {stack' : List StateId} {γ : List SymbolId} (hs' : Spells a' stack' γ) :
  ∃ stack, Spells a stack γ
  := by
  obtain ⟨c, hc⟩ := ha'.exists_viable hs'
  apply ha.exists_spells hc

end Faithful

end Automaton

end ShiftReduce
