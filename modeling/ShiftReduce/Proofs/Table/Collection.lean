import ShiftReduce.Proofs.Table.Actions

/-!
# The canonical collection of sets of items

The sets of items of the textbook have items with a single lookahead each, and no items without
one (`Collected`).  Each of them belongs to a prefix (`collected_iff`).  Its cores are viable
after the prefix and its lookaheads follow them, but not the other way round: where a symbol
behind another one neither vanishes nor begins with a terminal, cores are viable that no item
of the collection has.  Where there is no such symbol nothing is missing (`Held.of_follows`).

A list of items that is closed under the steps of the collection shows whether the collection
has conflicts (`not_ambivalent`).
-/

namespace ShiftReduce

/-! ### Sets of items -/

/-- A terminal begins a sequence, or it is the lookahead after the sequence and the sequence
vanishes. -/
def FirstWith (g : Grammar) (s : List SymbolId) (a b : SymbolId) : Prop :=
  g.Begins s b ∨ g.Vanishes s ∧ b = a

/-- The items that are induced by some items with one lookahead each. -/
inductive Closed (g : Grammar) (kernel : Core → SymbolId → Prop) : Core → SymbolId → Prop where
  | kernel {c : Core} {a : SymbolId} (h : kernel c a) : Closed g kernel c a
  | call {c : Core} {a b i : SymbolId} {rest : List SymbolId} {id : RuleId}
      (h : Closed g kernel c a) (hc : c.after g = i :: rest) (hid : id ∈ g.rulesFor i)
      (hb : FirstWith g rest a b) : Closed g kernel ⟨id, 0⟩ b

/-- The items of a set with the dot moved over a symbol. -/
def Moved (g : Grammar) (items : Core → SymbolId → Prop) (i : SymbolId) (c' : Core)
    (a : SymbolId) : Prop :=
  ∃ c rest, items c a ∧ c.after g = i :: rest ∧ c' = c.advance

/-- The sets of items of the canonical collection. -/
inductive Collected (g : Grammar) : (Core → SymbolId → Prop) → Prop where
  | start : Collected g (Closed g fun c a => c = ⟨.accept, 0⟩ ∧ a = endOfInputId)
  | goto {items : Core → SymbolId → Prop} {c : Core} {a i : SymbolId} {rest : List SymbolId}
      (h : Collected g items) (hitem : items c a) (hc : c.after g = i :: rest) :
      Collected g (Closed g (Moved g items i))

/-! ### Moves -/

/-- What can be done with a lookahead. -/
inductive Move where
  | shift
  | reduce (index : Nat)
  | accept
  deriving DecidableEq

/-- The moves that a state with the given cores and lookaheads allows on a lookahead. -/
inductive Allows (g : Grammar) (cores : Core → Prop) (looks : Core → SymbolId → Prop)
    (x : SymbolId) : Move → Prop where
  | shift {c : Core} {rest : List SymbolId} (h : cores c) (hc : c.after g = x :: rest)
      (hx : g.isTerminal x = true) : Allows g cores looks x .shift
  | reduce {index dot : Nat} (h : looks ⟨.user index, dot⟩ x)
      (hc : (Core.mk (.user index) dot).Complete g) : Allows g cores looks x (.reduce index)
  | accept {dot : Nat} (h : looks ⟨.accept, dot⟩ x)
      (hc : (Core.mk .accept dot).Complete g) : Allows g cores looks x .accept

/-- A state with the given cores and lookaheads allows two different moves on a lookahead. -/
def Conflicting (g : Grammar) (cores : Core → Prop) (looks : Core → SymbolId → Prop) : Prop :=
  ∃ x move move', move ≠ move' ∧ Allows g cores looks x move ∧ Allows g cores looks x move'

/-- Some set of the canonical collection allows two different moves on a lookahead. -/
def Ambivalent (g : Grammar) : Prop :=
  ∃ items, Collected g items ∧ Conflicting g (fun c => ∃ a, items c a) items

section

variable {g : Grammar} {cores cores' : Core → Prop} {looks looks' : Core → SymbolId → Prop}

theorem Allows.mono (hcores : ∀ c, cores c → cores' c) (hlooks : ∀ c a, looks c a → looks' c a)
    {x : SymbolId} {move : Move} (h : Allows g cores looks x move) :
  Allows g cores' looks' x move
  := by
  cases h with
  | shift h hc hx => apply Allows.shift (hcores _ h) hc hx
  | reduce h hc => apply Allows.reduce (hlooks _ _ h) hc
  | accept h hc => apply Allows.accept (hlooks _ _ h) hc

/-- A conflict is between cores. -/
theorem Conflicting.exists_core (hlooks : ∀ c a, looks c a → cores c)
    (h : Conflicting g cores looks) :
  ∃ c, cores c
  := by
  obtain ⟨x, move, _, _, hmove, _⟩ := h
  cases hmove with
  | shift h _ _ => exact ⟨_, h⟩
  | reduce h _ => exact ⟨_, hlooks _ _ h⟩
  | accept h _ => exact ⟨_, hlooks _ _ h⟩

/-- With more cores and lookaheads there is still a conflict. -/
theorem Conflicting.mono (hcores : ∀ c, cores c → cores' c)
    (hlooks : ∀ c a, looks c a → looks' c a) (h : Conflicting g cores looks) :
  Conflicting g cores' looks'
  := by
  obtain ⟨x, move, move', hne, hmove, hmove'⟩ := h
  exact ⟨x, move, move', hne, hmove.mono hcores hlooks, hmove'.mono hcores hlooks⟩

end

/-! ### Sets of items and prefixes -/

/-- The items of the canonical collection that are held after a prefix. -/
inductive Held (g : Grammar) : List SymbolId → Core → SymbolId → Prop where
  | start : Held g [] ⟨.accept, 0⟩ endOfInputId
  | call {γ : List SymbolId} {c : Core} {a b i : SymbolId} {rest : List SymbolId} {id : RuleId}
      (h : Held g γ c a) (hc : c.after g = i :: rest) (hid : id ∈ g.rulesFor i)
      (hb : FirstWith g rest a b) : Held g γ ⟨id, 0⟩ b
  | read {γ : List SymbolId} {c : Core} {a i : SymbolId} {rest : List SymbolId}
      (h : Held g γ c a) (hc : c.after g = i :: rest) : Held g (i :: γ) c.advance a

variable {g : Grammar} {γ : List SymbolId} {c : Core} {a i : SymbolId}

theorem closed_start :
  (Closed g fun c a => c = ⟨.accept, 0⟩ ∧ a = endOfInputId) = Held g []
  := by
  funext c a
  apply propext
  constructor
  · intro h
    induction h with
    | kernel h =>
        obtain ⟨rfl, rfl⟩ := h
        apply Held.start
    | call _ hc hid hb ih => apply Held.call ih hc hid hb
  · intro h
    generalize hγ : ([] : List SymbolId) = γ at h
    induction h with
    | start => apply Closed.kernel ⟨rfl, rfl⟩
    | call _ hc hid hb ih => apply Closed.call (ih hγ) hc hid hb
    | read _ _ => cases hγ

theorem closed_moved :
  Closed g (Moved g (Held g γ) i) = Held g (i :: γ)
  := by
  funext c a
  apply propext
  constructor
  · intro h
    induction h with
    | kernel h =>
        obtain ⟨c, rest, h, hc, rfl⟩ := h
        apply Held.read h hc
    | call _ hc hid hb ih => apply Held.call ih hc hid hb
  · intro h
    generalize hδ : i :: γ = δ at h
    induction h with
    | start => cases hδ
    | call _ hc hid hb ih => apply Closed.call (ih hδ) hc hid hb
    | read h hc =>
        cases hδ
        apply Closed.kernel ⟨_, _, h, hc, rfl⟩

/-- The sets of the canonical collection are those of the prefixes after which some item is
held. -/
theorem collected_iff {items : Core → SymbolId → Prop} :
  Collected g items ↔ ∃ γ c a, Held g γ c a ∧ items = Held g γ
  := by
  constructor
  · intro h
    induction h with
    | start => exact ⟨[], _, _, .start, closed_start⟩
    | @goto _ _ _ i _ _ hitem hc ih =>
        obtain ⟨γ, _, _, -, rfl⟩ := ih
        exact ⟨i :: γ, _, _, .read hitem hc, closed_moved⟩
  · rintro ⟨γ, c, a, h, rfl⟩
    induction h with
    | start =>
        rw [← closed_start]
        apply Collected.start
    | call _ _ _ _ ih => apply ih
    | read h hc ih =>
        rw [← closed_moved]
        apply Collected.goto ih h hc

/-- So there is a conflict in the collection exactly if there is one after some prefix. -/
theorem ambivalent_iff :
  Ambivalent g ↔ ∃ γ, Conflicting g (fun c => ∃ a, Held g γ c a) (Held g γ)
  := by
  constructor
  · rintro ⟨items, hitems, hconflicting⟩
    obtain ⟨γ, _, _, -, rfl⟩ := collected_iff.mp hitems
    exact ⟨γ, hconflicting⟩
  · rintro ⟨γ, hconflicting⟩
    refine ⟨Held g γ, collected_iff.mpr ?_, hconflicting⟩
    obtain ⟨c, a, h⟩ := hconflicting.exists_core fun c a h => ⟨a, h⟩
    exact ⟨γ, c, a, h, rfl⟩

/-! ### Items that are held and cores that are viable -/

/-- The lookahead of an item that is held follows the core. -/
theorem Held.follows (h : Held g γ c a) :
  Follows g γ c a
  := by
  induction h with
  | start => apply Follows.start
  | call _ hc hid hb ih =>
      rcases hb with hb | ⟨hrest, rfl⟩
      · apply Follows.first ih.viable hc hid hb
      · apply Follows.pass ih hc hid hrest
  | read _ hc ih => apply Follows.read ih hc

/-- Every symbol that stands behind another one in a rule vanishes or begins with a
terminal. -/
def Grammar.Fruitful (g : Grammar) : Prop :=
  ∀ r ∈ g.rules, ∀ i ∈ r.rhs.tail, g.Vanishes [i] ∨ ∃ b, g.Begins [i] b

/-- If each symbol of a sequence vanishes or begins with a terminal, some terminal begins the
sequence with a lookahead after it. -/
theorem exists_firstWith {s : List SymbolId}
    (hs : ∀ i ∈ s, g.Vanishes [i] ∨ ∃ b, g.Begins [i] b) (a : SymbolId) :
  ∃ b, FirstWith g s a b
  := by
  induction s with
  | nil => exact ⟨a, .inr ⟨.nil, rfl⟩⟩
  | cons i s ih =>
      rw [List.forall_mem_cons] at hs
      obtain ⟨hvanishes | ⟨b, hb⟩, hs⟩ := hs
      · obtain ⟨b, hb | ⟨hrest, rfl⟩⟩ := ih hs
        · exact ⟨b, .inl (.skip hvanishes hb)⟩
        · exact ⟨b, .inr ⟨Vanishes.cons_iff.mpr ⟨hvanishes, hrest⟩, rfl⟩⟩
      · exact ⟨b, .inl (hb.append_right s)⟩

/-- What is to be read after the next symbol stands behind another one in the rule. -/
theorem Core.mem_tail_of_after {rest : List SymbolId} {j : SymbolId}
    (hc : c.after g = i :: rest) (hj : j ∈ rest) :
  ∃ r, g.rule? c.rule = some r ∧ j ∈ r.rhs.tail
  := by
  rw [← Core.after_advance hc, Core.after, Core.advance] at hj
  cases hr : g.rule? c.rule with
  | none =>
      rw [hr] at hj
      cases hj
  | some r =>
      rw [hr] at hj
      change j ∈ r.rhs.drop (c.dot + 1) at hj
      rw [← List.drop_tail] at hj
      exact ⟨r, rfl, List.mem_of_mem_drop hj⟩

/-- In a fruitful grammar it then begins with a terminal or vanishes. -/
theorem Grammar.Fruitful.exists_firstWith (hg : g.Fruitful) {rest : List SymbolId}
    (hc : c.after g = i :: rest) (a : SymbolId) :
  ∃ b, FirstWith g rest a b
  := by
  apply ShiftReduce.exists_firstWith
  intro j hj
  obtain ⟨r, hr, hmem⟩ := Core.mem_tail_of_after hc hj
  cases hrule : c.rule with
  | accept =>
      rw [hrule] at hr
      cases hr
      cases hmem
  | user index =>
      rw [hrule] at hr
      apply hg r (Array.mem_of_getElem? hr) j hmem

/-- In a fruitful grammar viable cores are held with some lookahead. -/
theorem Viable.exists_held (hg : g.Fruitful) (h : Viable g γ c) :
  ∃ a, Held g γ c a
  := by
  induction h with
  | start => exact ⟨_, .start⟩
  | call _ hc hid ih =>
      obtain ⟨a, h⟩ := ih
      obtain ⟨b, hb⟩ := hg.exists_firstWith hc a
      exact ⟨b, .call h hc hid hb⟩
  | read _ hc ih =>
      obtain ⟨a, h⟩ := ih
      exact ⟨a, .read h hc⟩

/-- And they are held with each lookahead that follows them. -/
theorem Held.of_follows (hg : g.Fruitful) (h : Follows g γ c a) :
  Held g γ c a
  := by
  induction h with
  | start => apply Held.start
  | first hv hc hid hb =>
      obtain ⟨a, h⟩ := hv.exists_held hg
      apply Held.call h hc hid (.inl hb)
  | pass _ hc hid hrest ih => apply Held.call ih hc hid (.inr ⟨hrest, rfl⟩)
  | read _ hc ih => apply Held.read ih hc

/-! ### Finite collections -/

/-- The items that an item leads to, each of them after a prefix. -/
def Grammar.leads (g : Grammar) (γ : List SymbolId) (c : Core) (a : SymbolId) :
    List (List SymbolId × Core × SymbolId) :=
  match c.after g with
  | [] => []
  | i :: rest =>
    (i :: γ, c.advance, a) :: (g.rulesFor i).flatMap fun id =>
      (g.firstSets.ofSequence rest (.singleton a)).members.map fun b => (γ, ⟨id, 0⟩, b)

/-- The move of an item, with the lookahead it is made on. -/
def Grammar.move? (g : Grammar) (c : Core) (a : SymbolId) : Option (SymbolId × Move) :=
  match c.after g, c.rule with
  | i :: _, _ => if g.isTerminal i then some (i, .shift) else none
  | [], .user index => some (a, .reduce index)
  | [], .accept => some (a, .accept)

/-- A list that has the first item, and with an item all those it leads to, has all items. -/
theorem Held.mem (hg : g.Proper) {l : List (List SymbolId × Core × SymbolId)}
    (hstart : ([], ⟨.accept, 0⟩, endOfInputId) ∈ l)
    (hleads : ∀ x ∈ l, ∀ y ∈ g.leads x.1 x.2.1 x.2.2, y ∈ l) (h : Held g γ c a) :
  (γ, c, a) ∈ l
  := by
  induction h with
  | start => apply hstart
  | @call γ c a b i rest id h hc hid hb ih =>
      apply hleads _ ih
      rw [Grammar.leads, hc]
      apply List.mem_cons_of_mem
      refine List.mem_flatMap.mpr ⟨id, hid, List.mem_map.mpr ⟨b, ?_, rfl⟩⟩
      apply hg.mem_ofSequence.mpr
      rcases hb with hb | ⟨hrest, rfl⟩
      · apply Or.inl hb
      · apply Or.inr ⟨hrest, SymbolSet.mem_singleton.mpr rfl⟩
  | read h hc ih =>
      apply hleads _ ih
      rw [Grammar.leads, hc]
      apply List.mem_cons_self

/-- What is allowed is the move of some item. -/
theorem Allows.exists_move? {looks : Core → SymbolId → Prop} {x : SymbolId} {move : Move}
    (h : Allows g (fun c => ∃ a, looks c a) looks x move) :
  ∃ c a, looks c a ∧ g.move? c a = some (x, move)
  := by
  cases h with
  | @shift c rest h hc hx =>
      obtain ⟨a, h⟩ := h
      refine ⟨c, a, h, ?_⟩
      rw [Grammar.move?, hc]
      exact if_pos hx
  | reduce h hc =>
      refine ⟨_, _, h, ?_⟩
      rw [Grammar.move?, hc.2]
  | accept h hc =>
      refine ⟨_, _, h, ?_⟩
      rw [Grammar.move?, hc.2]

/-- If such a list has no items with different moves after one prefix, the collection has no
conflict. -/
theorem not_ambivalent (hg : g.Proper) {l : List (List SymbolId × Core × SymbolId)}
    (hstart : ([], ⟨.accept, 0⟩, endOfInputId) ∈ l)
    (hleads : ∀ x ∈ l, ∀ y ∈ g.leads x.1 x.2.1 x.2.2, y ∈ l)
    (hmoves : ∀ x ∈ l, ∀ y ∈ l, x.1 = y.1 →
      ∀ p ∈ g.move? x.2.1 x.2.2, ∀ q ∈ g.move? y.2.1 y.2.2, p.1 = q.1 → p.2 = q.2) :
  ¬ Ambivalent g
  := by
  rw [ambivalent_iff]
  rintro ⟨γ, x, move, move', hne, hmove, hmove'⟩
  obtain ⟨c, a, h, hc⟩ := hmove.exists_move?
  obtain ⟨c', a', h', hc'⟩ := hmove'.exists_move?
  apply hne
  apply hmoves _ (h.mem hg hstart hleads) _ (h'.mem hg hstart hleads) rfl _ hc _ hc' rfl

end ShiftReduce
