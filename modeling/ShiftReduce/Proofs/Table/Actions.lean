import ShiftReduce.Proofs.Automaton.Faithful
import ShiftReduce.Proofs.OrderedMap
import ShiftReduce.Table.Basic

/-!
# Claims and actions

The row of a state is made by claims, each of them for an action on a symbol.  A symbol that
is claimed once has the action that it is claimed for, and one that is claimed more than once
has a conflict (`Row.get?_claimAll`).  The claims of a state are those of its edges and those
of its items that have been read to the end.
-/

namespace ShiftReduce

/-! ### Contests -/

/-- What becomes of a place in a row when actions claim it one after the other. -/
def contest : Option Action → List Action → Option Action
  | former, [] => former
  | none, action :: actions => contest (some action) actions
  | some former, action :: actions => contest (some (former.contend action)) actions

theorem contest_some (former : Action) (actions : List Action) :
  ∃ action, contest (some former) actions = some action
    ∧ (actions = [] ∧ action = former ∨ action.isConflict = true)
  := by
  induction actions generalizing former with
  | nil => exact ⟨former, rfl, .inl ⟨rfl, rfl⟩⟩
  | cons a rest ih =>
      obtain ⟨action, haction, h⟩ := ih (former.contend a)
      refine ⟨action, haction, .inr ?_⟩
      rcases h with ⟨-, rfl⟩ | h
      · rfl
      · apply h

/-- The place of a claim has its action, or a conflict. -/
theorem contest_none_of_mem {actions : List Action} {a : Action} (h : a ∈ actions) :
  ∃ action, contest none actions = some action ∧ (action = a ∨ action.isConflict = true)
  := by
  cases actions with
  | nil => cases h
  | cons first rest =>
      obtain ⟨action, haction, hcases⟩ := contest_some first rest
      use action, haction
      rcases hcases with ⟨rfl, rfl⟩ | hconflict
      · left
        apply (List.mem_singleton.mp h).symm
      · right
        apply hconflict

/-- What is in a place and is no conflict has been claimed. -/
theorem mem_of_contest_none {actions : List Action} {a : Action}
    (h : contest none actions = some a) (ha : a.isConflict = false) :
  a ∈ actions
  := by
  cases actions with
  | nil => cases h
  | cons first rest =>
      obtain ⟨action, haction, hcases⟩ := contest_some first rest
      rw [contest, haction] at h
      cases h
      rcases hcases with ⟨-, rfl⟩ | hconflict
      · apply List.mem_cons_self
      · rw [ha] at hconflict
        cases hconflict

theorem mem_appendNew {α : Type} [DecidableEq α] {l l' : List α} {x : α} :
  x ∈ Action.appendNew l l' ↔ x ∈ l ∨ x ∈ l'
  := by
  rw [Action.appendNew]
  induction l' generalizing l with
  | nil => simp
  | cons y rest ih =>
      rw [List.foldl_cons, ih, List.mem_cons]
      split
      · rename_i hy
        constructor
        · rintro (hx | hx)
          · apply Or.inl hx
          · apply Or.inr (.inr hx)
        · rintro (hx | rfl | hx)
          · apply Or.inl hx
          · apply Or.inl hy
          · apply Or.inr hx
      · rw [List.mem_append, List.mem_singleton, or_assoc]

/-- What actions have that compete is what their conflict has, if this is so of any two. -/
theorem mem_contest {β : Type} {f : Action → List β}
    (hf : ∀ {a b : Action} {x : β}, x ∈ f (a.contend b) ↔ x ∈ f a ∨ x ∈ f b)
    {actions : List Action} {action : Action} (h : contest none actions = some action) {x : β} :
  x ∈ f action ↔ ∃ a ∈ actions, x ∈ f a
  := by
  have hsome : ∀ {actions : List Action} {former : Action},
      contest (some former) actions = some action →
      (x ∈ f action ↔ x ∈ f former ∨ ∃ a ∈ actions, x ∈ f a) := by
    intro actions
    induction actions with
    | nil =>
        intro former h
        cases h
        simp
    | cons a rest ih =>
        intro former h
        rw [ih h, hf, or_assoc, List.exists_mem_cons_iff]
  cases actions with
  | nil => cases h
  | cons a rest => rw [hsome h, List.exists_mem_cons_iff]

/-- A conflict shifts to the states that the competing actions move to. -/
theorem mem_targets_contest {actions : List Action} {action : Action}
    (h : contest none actions = some action) {target : StateId} :
  target ∈ action.targets ↔ ∃ a ∈ actions, target ∈ a.targets
  := mem_contest mem_appendNew h

/-- A conflict reduces by the rules that the competing actions reduce by. -/
theorem mem_rules_contest {actions : List Action} {action : Action}
    (h : contest none actions = some action) {id : RuleId} :
  id ∈ action.rules ↔ ∃ a ∈ actions, id ∈ a.rules
  := mem_contest mem_appendNew h

/-! ### Claims -/

/-- The dot of a core has come to the end of its rule. -/
def Core.Complete (g : Grammar) (c : Core) : Prop :=
  (∃ r, g.rule? c.rule = some r) ∧ c.after g = []

namespace Row

/-- The row after several claims. -/
def claimAll (row : Row) (claims : List (SymbolId × Action)) : Row :=
  claims.foldl (fun row claim => row.claim claim.1 claim.2) row

/-- The actions that claim a symbol. -/
def claimants (claims : List (SymbolId × Action)) (i : SymbolId) : List Action :=
  (claims.filter fun claim => claim.1 = i).map Prod.snd

theorem mem_claimants {claims : List (SymbolId × Action)} {i : SymbolId} {a : Action} :
  a ∈ claimants claims i ↔ (i, a) ∈ claims
  := by simp [claimants]

theorem claimants_append (claims claims' : List (SymbolId × Action)) (i : SymbolId) :
  claimants (claims ++ claims') i = claimants claims i ++ claimants claims' i
  := by simp [claimants]

/-- A claim is contested in the place of its symbol. -/
theorem get?_claim (row : Row) (i j : SymbolId) (a : Action) :
  (row.claim j a).get? i = if i = j then contest (row.get? j) [a] else row.get? i
  := by
  rw [claim, OrderedMap.get?_alter]
  cases row.get? j <;> rfl

/-- In the place of a symbol is what becomes of it when all its claimants have claimed it. -/
theorem get?_claimAll (row : Row) (claims : List (SymbolId × Action)) (i : SymbolId) :
  (row.claimAll claims).get? i = contest (row.get? i) (claimants claims i)
  := by
  induction claims generalizing row with
  | nil =>
      change row.get? i = contest (row.get? i) []
      cases row.get? i <;> rfl
  | cons first rest ih =>
      obtain ⟨j, a⟩ := first
      rw [claimAll, List.foldl_cons, ← claimAll, ih, get?_claim]
      by_cases hij : j = i
      · subst hij
        have hmine : claimants ((j, a) :: rest) j = a :: claimants rest j := by
          simp [claimants]
        rw [if_pos rfl, hmine]
        cases row.get? j <;> rfl
      · have hother : claimants ((j, a) :: rest) i = claimants rest i := by
          simp [claimants, hij]
        rw [if_neg (Ne.symm hij), hother]

/-- The claim of an edge. -/
def edgeClaim (g : Grammar) (edge : SymbolId × StateId) : SymbolId × Action :=
  (edge.1, if g.isTerminal edge.1 then .shift edge.2 else .goto edge.2)

/-- Edges claim a symbol at most once. -/
theorem claimants_edges (g : Grammar) (edges : OrderedMap SymbolId StateId) (i : SymbolId) :
  claimants (edges.entries.map (edgeClaim g)) i
    = (edges.get? i).toList.map (if g.isTerminal i then Action.shift else Action.goto)
  := by
  have hkey : (fun claim : SymbolId × Action => decide (claim.1 = i)) ∘ edgeClaim g
      = fun edge => decide (edge.1 = i) := rfl
  rw [claimants, List.filter_map, hkey]
  cases hedge : edges.get? i with
  | none =>
      have hnone : edges.entries.filter (fun edge => edge.1 = i) = [] := by
        rw [List.filter_eq_nil_iff]
        rintro ⟨j, target⟩ hmem heq
        obtain rfl := of_decide_eq_true heq
        rw [OrderedMap.get?_eq_some_iff.mpr hmem] at hedge
        cases hedge
      rw [hnone]
      rfl
  | some target =>
      rw [OrderedMap.filter_entries hedge]
      simp only [List.map_cons, List.map_nil, Option.toList_some, edgeClaim]
      split
      · rfl
      · rfl

/-- The claims of an item. -/
def itemClaims (g : Grammar) (item : Item) : List (SymbolId × Action) :=
  if item.isComplete g then
    match item.core.rule with
    | .accept => [(endOfInputId, .accept)]
    | .user index => item.lookaheads.members.map fun i => (i, .reduce (.user index))
  else
    []

/-- The claims of a state. -/
def claims (g : Grammar) (node : Node) : List (SymbolId × Action) :=
  node.edges.entries.map (edgeClaim g) ++ node.items.items.flatMap (itemClaims g)

theorem claimItem_eq (g : Grammar) (row : Row) (item : Item) :
  row.claimItem g item = row.claimAll (itemClaims g item)
  := by
  unfold claimItem itemClaims
  split
  · cases item.core.rule with
    | accept => rfl
    | user index => rw [claimAll, List.foldl_map]
  · rfl

/-- The row of a state is made by the claims of the state. -/
theorem ofNode_eq (g : Grammar) (node : Node) :
  ofNode g node = claimAll ∅ (claims g node)
  := by
  have hedges : claimEdges g ∅ node.edges = claimAll ∅ (node.edges.entries.map (edgeClaim g)) := by
    rw [claimAll, List.foldl_map]
    rfl
  have hitems : ∀ (items : List Item) (row : Row),
      items.foldl (claimItem g) row = claimAll row (items.flatMap (itemClaims g)) := by
    intro items
    induction items with
    | nil =>
        intro row
        rfl
    | cons item rest ih =>
        intro row
        rw [List.foldl_cons, ih, claimItem_eq, List.flatMap_cons, claimAll, claimAll, claimAll,
          List.foldl_append]
  rw [ofNode, hitems, hedges, claims, claimAll, claimAll, claimAll, List.foldl_append]

theorem get?_ofNode (g : Grammar) (node : Node) (i : SymbolId) :
  (ofNode g node).get? i = contest none (claimants (claims g node) i)
  := by
  rw [ofNode_eq, get?_claimAll]
  rfl

/-! ### Claims of a state -/

theorem isComplete_iff {g : Grammar} {item : Item} :
  item.isComplete g = true ↔ item.core.Complete g
  := by
  rw [Item.isComplete, Core.Complete, Bool.and_eq_true, List.isEmpty_iff,
    Option.isSome_iff_exists, Item.remaining_eq]

/-- An item claims its lookaheads for the reduction by its rule, when this has been read. -/
theorem mem_itemClaims {g : Grammar} {item : Item} {i : SymbolId} {a : Action} :
  (i, a) ∈ itemClaims g item ↔ item.core.Complete g
    ∧ (item.core.rule = .accept ∧ i = endOfInputId ∧ a = .accept
      ∨ ∃ index, item.core.rule = .user index ∧ i ∈ item.lookaheads
        ∧ a = .reduce (.user index))
  := by
  rw [itemClaims]
  split
  · rename_i h
    have hcomplete := isComplete_iff.mp h
    split
    · rename_i hrule
      simp [hcomplete, hrule]
    · rename_i index hrule
      simp [hcomplete, hrule, SymbolSet.mem_def, eq_comm]
  · rename_i h
    have hcomplete : ¬ item.core.Complete g := fun hread => h (isComplete_iff.mpr hread)
    simp [hcomplete]

/-- The claims of an item are all different. -/
theorem nodup_itemClaims (g : Grammar) (item : Item) :
  (itemClaims g item).Nodup
  := by
  rw [itemClaims]
  split
  · cases item.core.rule with
    | accept => apply List.nodup_singleton
    | user index =>
        apply List.Nodup.map _ item.lookaheads.nodup_members
        intro x y hxy
        apply (Prod.mk.inj hxy).1
  · apply List.nodup_nil

/-- A state claims a symbol for a shift or a goto along its edge over the symbol, and for the
reductions by the rules that have been read. -/
theorem mem_claims {g : Grammar} {node : Node} {i : SymbolId} {a : Action} :
  (i, a) ∈ claims g node
    ↔ (∃ target, node.edges.get? i = some target
        ∧ a = if g.isTerminal i then .shift target else .goto target)
      ∨ (∃ dot, node.items.HasCore ⟨.accept, dot⟩ ∧ (Core.mk .accept dot).Complete g
        ∧ i = endOfInputId ∧ a = .accept)
      ∨ ∃ index dot, node.items.Looks ⟨.user index, dot⟩ i
        ∧ (Core.mk (.user index) dot).Complete g ∧ a = .reduce (.user index)
  := by
  simp only [claims, List.mem_append, List.mem_map, List.mem_flatMap, mem_itemClaims, edgeClaim,
    Prod.mk.injEq, Prod.exists]
  constructor
  · rintro (⟨j, target, hedge, rfl, rfl⟩ | ⟨⟨⟨rule, dot⟩, l⟩, hitem, hcomplete, h⟩)
    · apply Or.inl ⟨target, OrderedMap.get?_eq_some_iff.mpr hedge, rfl⟩
    · rcases h with ⟨rfl, rfl, rfl⟩ | ⟨index, rfl, hi, rfl⟩
      · apply Or.inr (.inl ⟨dot, ⟨_, hitem, rfl⟩, hcomplete, rfl, rfl⟩)
      · apply Or.inr (.inr ⟨index, dot, ⟨_, hitem, rfl, hi⟩, hcomplete, rfl⟩)
  · rintro (⟨target, hedge, rfl⟩ | ⟨dot, ⟨item, hitem, hcore⟩, hcomplete, rfl, rfl⟩
      | ⟨index, dot, ⟨item, hitem, hcore, hi⟩, hcomplete, rfl⟩)
    · apply Or.inl ⟨i, target, OrderedMap.get?_eq_some_iff.mp hedge, rfl, rfl⟩
    · refine Or.inr ⟨item, hitem, ?_, .inl ⟨?_, rfl, rfl⟩⟩
      · rw [hcore]
        apply hcomplete
      · rw [hcore]
    · refine Or.inr ⟨item, hitem, ?_, .inr ⟨index, ?_, hi, rfl⟩⟩
      · rw [hcore]
        apply hcomplete
      · rw [hcore]

end Row

end ShiftReduce
