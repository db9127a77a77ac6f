import ShiftReduce.Automaton.Canonical
import ShiftReduce.Proofs.Item.Closure

/-!
# Viable cores

After the symbols of a prefix have been read, a core is viable if the rules can be at that
point, and a lookahead follows it if it may come after the rule has been read.  Both are
defined by the steps of a derivation, without any automaton.  Prefixes are written with the
symbol read last at the front.

Closing the items that have been moved over a symbol leads from the set that describes a
prefix to the one that describes the prefix with that symbol (`ItemSet.Describes.goto`).
-/

namespace ShiftReduce

/-- A core the rules can be at after the symbols of a prefix. -/
inductive Viable (g : Grammar) : List SymbolId → Core → Prop where
  | start : Viable g [] ⟨.accept, 0⟩
  | call {γ : List SymbolId} {c : Core} {i : SymbolId} {rest : List SymbolId} {id : RuleId}
      (h : Viable g γ c) (hc : c.after g = i :: rest) (hid : id ∈ g.rulesFor i) :
      Viable g γ ⟨id, 0⟩
  | read {γ : List SymbolId} {c : Core} {i : SymbolId} {rest : List SymbolId}
      (h : Viable g γ c) (hc : c.after g = i :: rest) : Viable g (i :: γ) c.advance

/-- A lookahead that may come after the rule of a core that is viable after a prefix. -/
inductive Follows (g : Grammar) : List SymbolId → Core → SymbolId → Prop where
  | start : Follows g [] ⟨.accept, 0⟩ endOfInputId
  | first {γ : List SymbolId} {c : Core} {i a : SymbolId} {rest : List SymbolId} {id : RuleId}
      (h : Viable g γ c) (hc : c.after g = i :: rest) (hid : id ∈ g.rulesFor i)
      (ha : g.Begins rest a) : Follows g γ ⟨id, 0⟩ a
  | pass {γ : List SymbolId} {c : Core} {i a : SymbolId} {rest : List SymbolId} {id : RuleId}
      (h : Follows g γ c a) (hc : c.after g = i :: rest) (hid : id ∈ g.rulesFor i)
      (hrest : g.Vanishes rest) : Follows g γ ⟨id, 0⟩ a
  | read {γ : List SymbolId} {c : Core} {i a : SymbolId} {rest : List SymbolId}
      (h : Follows g γ c a) (hc : c.after g = i :: rest) : Follows g (i :: γ) c.advance a

variable {g : Grammar}

/-- What is followed by a lookahead is viable. -/
theorem Follows.viable {γ : List SymbolId} {c : Core} {a : SymbolId} (h : Follows g γ c a) :
  Viable g γ c
  := by
  induction h with
  | start => apply Viable.start
  | first h hc hid _ => apply Viable.call h hc hid
  | pass _ hc hid _ ih => apply Viable.call ih hc hid
  | read _ hc ih => apply Viable.read ih hc

/-- Lookaheads are terminals. -/
theorem Follows.isTerminal (hg : g.Proper) {γ : List SymbolId} {c : Core} {a : SymbolId}
    (h : Follows g γ c a) :
  a < g.symbolCount ∧ g.isTerminal a = true
  := by
  induction h with
  | start =>
      constructor
      · apply Nat.lt_of_le_of_lt (Nat.zero_le _) hg.start_lt
      · rw [Grammar.isTerminal_eq_not, Bool.not_eq_true', Bool.eq_false_iff]
        intro hnonterminal
        obtain ⟨id, r, hr, hlhs⟩ := hg.isNonterminal_iff.mp hnonterminal
        have hle := (hg.lhs_of_rule? hr).1
        rw [hlhs] at hle
        cases hle
  | first _ _ _ ha => apply Grammar.lt_symbolCount_of_begins ha
  | pass _ _ _ _ ih => apply ih
  | read _ _ ih => apply ih

/-! ### Reading on and taking back -/

/-- The symbols after the dot can be read one after the other. -/
theorem Viable.read_append {γ : List SymbolId} {c : Core} (h : Viable g γ c) :
  ∀ {s rest : List SymbolId}, c.after g = s ++ rest →
    Viable g (s.reverse ++ γ) ⟨c.rule, c.dot + s.length⟩
      ∧ (Core.mk c.rule (c.dot + s.length)).after g = rest
  := by
  intro s
  induction s generalizing γ c with
  | nil =>
      intro rest hc
      apply And.intro h hc
  | cons i s ih =>
      intro rest hc
      have hread := ih (h.read hc) (Core.after_advance hc)
      rw [List.reverse_cons, List.append_assoc, List.length_cons, Nat.add_comm s.length,
        ← Nat.add_assoc]
      apply hread

/-- While the symbols after the dot are read the lookaheads stay the same. -/
theorem Follows.read_append {γ : List SymbolId} {c : Core} {a : SymbolId}
    (h : Follows g γ c a) :
  ∀ {s rest : List SymbolId}, c.after g = s ++ rest →
    Follows g (s.reverse ++ γ) ⟨c.rule, c.dot + s.length⟩ a
  := by
  intro s
  induction s generalizing γ c with
  | nil =>
      intro rest _
      apply h
  | cons i s ih =>
      intro rest hc
      have hread := ih (h.read hc) (Core.after_advance hc)
      rw [List.reverse_cons, List.append_assoc, List.length_cons, Nat.add_comm s.length,
        ← Nat.add_assoc]
      apply hread

/-- The prefix of a viable core ends with the symbols before the dot. -/
structure Unread (g : Grammar) (γ : List SymbolId) (c : Core) (δ : List SymbolId) (r : Rule) :
    Prop where
  rule : g.rule? c.rule = some r
  dot_le : c.dot ≤ r.rhs.length
  spelled : γ = (r.rhs.take c.dot).reverse ++ δ

/-- A rule is read on from the symbols before the dot. -/
theorem Unread.read {γ δ rest : List SymbolId} {c : Core} {r : Rule} {i : SymbolId}
    (h : Unread g γ c δ r) (hc : c.after g = i :: rest) :
  Unread g (i :: γ) c.advance δ r
  := by
  obtain ⟨hr, -, hspelled⟩ := h
  rw [Core.after, hr] at hc
  have hget : r.rhs[c.dot]? = some i := by
    have hhead := congrArg List.head? hc
    simpa only [List.head?_drop, List.head?_cons] using hhead
  obtain ⟨hlt, -⟩ := List.getElem?_eq_some_iff.mp hget
  use hr, hlt
  rw [hspelled, Core.advance, List.take_add_one, hget]
  simp

/-- The rule of a viable core was called for at the front of the symbols before the dot. -/
theorem Viable.unread {γ : List SymbolId} {c : Core} (h : Viable g γ c) :
  ∃ δ r, Unread g γ c δ r ∧ Viable g δ ⟨c.rule, 0⟩
  := by
  induction h with
  | start => exact ⟨[], g.accept, ⟨rfl, Nat.zero_le _, rfl⟩, .start⟩
  | @call γ c i rest id h hc hid =>
      obtain ⟨r, hr, -⟩ := Grammar.mem_rulesFor.mp hid
      exact ⟨γ, r, ⟨hr, Nat.zero_le _, rfl⟩, .call h hc hid⟩
  | read _ hc ih =>
      obtain ⟨δ, r, hunread, hviable⟩ := ih
      exact ⟨δ, r, hunread.read hc, hviable⟩

/-- What follows a rule follows it from the front of the symbols before the dot. -/
theorem Follows.unread {γ : List SymbolId} {c : Core} {a : SymbolId} (h : Follows g γ c a) :
  ∃ δ r, Unread g γ c δ r ∧ Follows g δ ⟨c.rule, 0⟩ a
  := by
  induction h with
  | start => exact ⟨[], g.accept, ⟨rfl, Nat.zero_le _, rfl⟩, .start⟩
  | @first γ c i a rest id h hc hid ha =>
      obtain ⟨r, hr, -⟩ := Grammar.mem_rulesFor.mp hid
      exact ⟨γ, r, ⟨hr, Nat.zero_le _, rfl⟩, .first h hc hid ha⟩
  | @pass γ c i a rest id h hc hid hrest =>
      obtain ⟨r, hr, -⟩ := Grammar.mem_rulesFor.mp hid
      exact ⟨γ, r, ⟨hr, Nat.zero_le _, rfl⟩, .pass h hc hid hrest⟩
  | read _ hc ih =>
      obtain ⟨δ, r, hunread, hfollows⟩ := ih
      exact ⟨δ, r, hunread.read hc, hfollows⟩

/-- A rule of the language is viable at its front because some core calls for it. -/
theorem Viable.caller {γ : List SymbolId} {index : Nat}
    (h : Viable g γ ⟨.user index, 0⟩) :
  ∃ c i rest, Viable g γ c ∧ c.after g = i :: rest ∧ .user index ∈ g.rulesFor i
  := by
  generalize hcore : Core.mk (.user index) 0 = c at h
  cases h with
  | start => cases hcore
  | call h hc hid =>
      cases hcore
      exact ⟨_, _, _, h, hc, hid⟩
  | read _ _ => cases (Core.mk.inj hcore).2

/-- No core calls for the accepting rule. -/
theorem accept_not_mem_rulesFor (hg : g.Proper) {c : Core} {i : SymbolId}
    {rest : List SymbolId} (hc : c.after g = i :: rest) :
  .accept ∉ g.rulesFor i
  := by
  intro hid
  obtain ⟨r, hr, hlhs⟩ := Grammar.mem_rulesFor.mp hid
  cases hr
  obtain ⟨r', hr', hmem⟩ := Core.mem_rhs_of_mem_after (hc ▸ List.mem_cons_self)
  have hlabel := (hg.of_mem_rhs hr' hmem).1
  cases Nat.ne_of_lt hlabel hlhs

/-- The accepting rule is viable at its front before anything has been read, and only
then. -/
theorem Viable.eq_nil_of_accept (hg : g.Proper) {γ : List SymbolId}
    (h : Viable g γ ⟨.accept, 0⟩) :
  γ = []
  := by
  generalize hcore : Core.mk .accept 0 = c at h
  cases h with
  | start => rfl
  | call h hc hid =>
      cases hcore
      cases accept_not_mem_rulesFor hg hc hid
  | read _ _ => cases (Core.mk.inj hcore).2

/-- The accepting rule is followed by the end of input wherever it is viable. -/
theorem Viable.follows_of_accept (hg : g.Proper) {γ : List SymbolId} {c : Core}
    (h : Viable g γ c) (hc : c.rule = .accept) :
  Follows g γ c endOfInputId
  := by
  induction h with
  | start => apply Follows.start
  | call _ hafter hid _ =>
      cases hc
      cases accept_not_mem_rulesFor hg hafter hid
  | read _ hafter ih => apply Follows.read (ih hc) hafter

/-- The accepting rule is followed by nothing else. -/
theorem Follows.eq_endOfInput_of_accept (hg : g.Proper) {γ : List SymbolId} {c : Core}
    {a : SymbolId} (h : Follows g γ c a) (hc : c.rule = .accept) :
  a = endOfInputId
  := by
  induction h with
  | start => rfl
  | first _ hafter hid _ =>
      cases hc
      cases accept_not_mem_rulesFor hg hafter hid
  | pass _ hafter hid _ _ =>
      cases hc
      cases accept_not_mem_rulesFor hg hafter hid
  | read _ _ ih => apply ih hc

/-! ### Transitions of sets of items -/

namespace ItemSet

theorem next?_eq_some_iff {item : Item} {i : SymbolId} :
  item.next? g = some i ↔ ∃ rest, item.core.after g = i :: rest
  := by
  rw [Item.next?]
  rw [Item.remaining_eq, List.head?_eq_some_iff]

/-- The kernel reached over a symbol has the cores that were in front of it. -/
theorem kernelCore_advance {s : ItemSet} {i : SymbolId} {c : Core} :
  KernelCore (s.advance g i) c ↔ ∃ b rest, s.HasCore b ∧ b.after g = i :: rest ∧ c = b.advance
  := by
  simp only [KernelCore, advance, List.mem_map, List.mem_filter, decide_eq_true_iff,
    next?_eq_some_iff]
  constructor
  · rintro ⟨_, ⟨item, ⟨hitem, rest, hafter⟩, rfl⟩, rfl⟩
    exact ⟨item.core, rest, ⟨item, hitem, rfl⟩, hafter, rfl⟩
  · rintro ⟨b, rest, ⟨item, hitem, rfl⟩, hafter, rfl⟩
    exact ⟨item.advance, ⟨item, ⟨hitem, rest, hafter⟩, rfl⟩, rfl⟩

theorem kernelLook_advance {s : ItemSet} {i : SymbolId} {c : Core} {a : SymbolId} :
  KernelLook (s.advance g i) c a
    ↔ ∃ b rest, s.Looks b a ∧ b.after g = i :: rest ∧ c = b.advance
  := by
  simp only [KernelLook, advance, List.mem_map, List.mem_filter, decide_eq_true_iff,
    next?_eq_some_iff]
  constructor
  · rintro ⟨_, ⟨item, ⟨hitem, rest, hafter⟩, rfl⟩, rfl, ha⟩
    exact ⟨item.core, rest, ⟨item, hitem, rfl, ha⟩, hafter, rfl⟩
  · rintro ⟨b, rest, ⟨item, hitem, rfl, ha⟩, hafter, rfl⟩
    exact ⟨item.advance, ⟨item, ⟨hitem, rest, hafter⟩, rfl⟩, rfl, ha⟩

/-- A set has an edge over the symbols after the dots of its cores. -/
theorem mem_nextSymbols {s : ItemSet} {i : SymbolId} :
  i ∈ s.nextSymbols g ↔ ∃ b rest, s.HasCore b ∧ b.after g = i :: rest
  := by
  simp only [nextSymbols, List.mem_eraseDups, List.mem_filterMap, next?_eq_some_iff]
  constructor
  · rintro ⟨item, hitem, rest, hafter⟩
    exact ⟨item.core, rest, ⟨item, hitem, rfl⟩, hafter⟩
  · rintro ⟨b, rest, ⟨item, hitem, rfl⟩, hafter⟩
    exact ⟨item, hitem, rest, hafter⟩

/-- The cores of a set are those that are viable after a prefix, and its lookaheads are those
that follow them. -/
structure Describes (g : Grammar) (s : ItemSet) (γ : List SymbolId) : Prop where
  hasCore : ∀ c, s.HasCore c ↔ Viable g γ c
  looks : ∀ c a, s.Looks c a ↔ Follows g γ c a

/-- From the viable cores of a prefix one comes to those of the prefix with one more
symbol. -/
theorem hasCore_goto (hg : g.Proper) {s : ItemSet} {γ : List SymbolId}
    (hs : ∀ c, s.HasCore c ↔ Viable g γ c) (i : SymbolId) (c : Core) :
  (s.goto g i).HasCore c ↔ Viable g (i :: γ) c
  := by
  rw [goto, hasCore_closure hg]
  constructor
  · intro h
    induction h with
    | kernel h =>
        obtain ⟨b, rest, hb, hafter, rfl⟩ := kernelCore_advance.mp h
        apply Viable.read ((hs b).mp hb) hafter
    | call _ hc hid ih => apply Viable.call ih hc hid
  · intro h
    generalize hγ : i :: γ = δ at h
    induction h with
    | start => cases hγ
    | call _ hc hid ih => apply Called.call (ih hγ) hc hid
    | read h hc =>
        cases hγ
        apply Called.kernel
        apply kernelCore_advance.mpr ⟨_, _, (hs _).mpr h, hc, rfl⟩

/-- From the lookaheads after a prefix one comes to those after the prefix with one more
symbol. -/
theorem looks_goto (hg : g.Proper) {s : ItemSet} {γ : List SymbolId}
    (hs : ∀ c, s.HasCore c ↔ Viable g γ c) (hl : ∀ c a, s.Looks c a ↔ Follows g γ c a)
    (i : SymbolId) (c : Core) (a : SymbolId) :
  (s.goto g i).Looks c a ↔ Follows g (i :: γ) c a
  := by
  have hcalled : ∀ c, Called g (KernelCore (s.advance g i)) c ↔ Viable g (i :: γ) c := by
    intro c
    rw [← hasCore_goto hg hs, goto, hasCore_closure hg]
  rw [goto, looks_closure hg]
  constructor
  · intro h
    induction h with
    | kernel h =>
        obtain ⟨b, rest, hb, hafter, rfl⟩ := kernelLook_advance.mp h
        apply Follows.read ((hl b _).mp hb) hafter
    | first h hc hid ha => apply Follows.first ((hcalled _).mp h) hc hid ha
    | pass _ hc hid hrest ih => apply Follows.pass ih hc hid hrest
  · intro h
    generalize hγ : i :: γ = δ at h
    induction h with
    | start => cases hγ
    | first h hc hid ha =>
        cases hγ
        apply Awaited.first ((hcalled _).mpr h) hc hid ha
    | pass _ hc hid hrest ih => apply Awaited.pass (ih hγ) hc hid hrest
    | read h hc =>
        cases hγ
        apply Awaited.kernel
        apply kernelLook_advance.mpr ⟨_, _, (hl _ _).mpr h, hc, rfl⟩

/-- A set that describes a prefix leads over a symbol to one that describes the prefix with
that symbol. -/
theorem Describes.goto (hg : g.Proper) {s : ItemSet} {γ : List SymbolId}
    (hs : s.Describes g γ) (i : SymbolId) :
  (s.goto g i).Describes g (i :: γ)
  where
  hasCore := hasCore_goto hg hs.hasCore i
  looks := looks_goto hg hs.hasCore hs.looks i

/-- Before anything has been read the viable cores are those of the start state. -/
theorem hasCore_start (hg : g.Proper) (c : Core) :
  (closure g Automaton.initialKernel).HasCore c ↔ Viable g [] c
  := by
  rw [hasCore_closure hg]
  constructor
  · intro h
    induction h with
    | kernel h =>
        obtain ⟨item, hitem, rfl⟩ := h
        obtain rfl := List.mem_singleton.mp hitem
        apply Viable.start
    | call _ hc hid ih => apply Viable.call ih hc hid
  · intro h
    generalize hγ : ([] : List SymbolId) = δ at h
    induction h with
    | start => apply Called.kernel ⟨_, List.mem_singleton_self _, rfl⟩
    | call _ hc hid ih => apply Called.call (ih hγ) hc hid
    | read _ _ => cases hγ

theorem looks_start (hg : g.Proper) (c : Core) (a : SymbolId) :
  (closure g Automaton.initialKernel).Looks c a ↔ Follows g [] c a
  := by
  have hcalled : ∀ c, Called g (KernelCore Automaton.initialKernel) c ↔ Viable g [] c := by
    intro c
    rw [← hasCore_start hg, hasCore_closure hg]
  rw [looks_closure hg]
  constructor
  · intro h
    induction h with
    | kernel h =>
        obtain ⟨item, hitem, rfl, ha⟩ := h
        obtain rfl := List.mem_singleton.mp hitem
        obtain rfl := SymbolSet.mem_singleton.mp ha
        apply Follows.start
    | first h hc hid ha => apply Follows.first ((hcalled _).mp h) hc hid ha
    | pass _ hc hid hrest ih => apply Follows.pass ih hc hid hrest
  · intro h
    generalize hγ : ([] : List SymbolId) = δ at h
    induction h with
    | start =>
        apply Awaited.kernel
        exact ⟨_, List.mem_singleton_self _, rfl, SymbolSet.mem_singleton.mpr rfl⟩
    | first h hc hid ha =>
        cases hγ
        apply Awaited.first ((hcalled _).mpr h) hc hid ha
    | pass _ hc hid hrest ih => apply Awaited.pass (ih hγ) hc hid hrest
    | read _ _ => cases hγ

/-- The start state describes the empty prefix. -/
theorem describes_start (hg : g.Proper) :
  (closure g Automaton.initialKernel).Describes g []
  where
  hasCore := hasCore_start hg
  looks := looks_start hg

/-- A set that describes a prefix has cores and lookaheads of the grammar. -/
theorem Describes.within (hg : g.Proper) {s : ItemSet} {γ : List SymbolId}
    (hs : s.Describes g γ) :
  s.Within (Automaton.cores g) (List.range g.symbolCount)
  := by
  constructor
  · intro c hc
    obtain ⟨δ, r, ⟨hr, hle, -⟩, -⟩ := ((hs.hasCore c).mp hc).unread
    simp only [Automaton.cores, List.mem_flatMap, List.mem_map, List.mem_range]
    exact ⟨(c.rule, r), Grammar.mem_numberedRules.mpr hr, c.dot, Nat.lt_succ_of_le hle, rfl⟩
  · intro c a ha
    apply List.mem_range.mpr (((hs.looks c a).mp ha).isTerminal hg).1

end ItemSet

end ShiftReduce
