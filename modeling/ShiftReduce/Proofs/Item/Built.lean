import ShiftReduce.Proofs.Item.Hashed

/-!
# Items and sets that have been built

Items with hashes are made over a grammar, they are merged, and the dot moves over symbols in
them.  Sets of them are closures and what these merge into.  Each of these operations does what
the one without hashes does, and gives the result the hashes that are made from what is in it
(`HashedItem.merge_ofItem`, `HashedSet.merge_ofSet`).  So whatever has been built in any number
of steps has just those hashes (`HashedItem.Built.eq_ofItem`, `HashedSet.Built.exists_ofSet`).
-/

namespace ShiftReduce

/-! ### Cores -/

namespace HashedItem

variable {h : Hasher} {a b : Item}

theorem coreHash_congr (hcore : a.core = b.core) :
  (ofItem h a).coreHash = (ofItem h b).coreHash
  := by rw [ofItem, ofItem, hcore]

/-- Hashes do not keep items with the same core apart. -/
theorem sameCore_ofItem :
  (ofItem h a).sameCore (ofItem h b) = true ↔ a.core = b.core
  := by
  rw [sameCore, Bool.and_eq_true, decide_eq_true_iff, decide_eq_true_iff]
  constructor
  · apply And.right
  · intro hcore
    exact ⟨coreHash_congr hcore, hcore⟩

end HashedItem

namespace HashedSet

variable {h : Hasher} {s t : ItemSet}

/-- Two lists are equally long and their elements pass a test place by place. -/
theorem zip_all_iff {α β : Type} {p : α × β → Bool} {l : List α} {l' : List β} :
  (decide (l.length = l'.length) && (l.zip l').all p) = true
    ↔ List.Forall₂ (fun a b => p (a, b) = true) l l'
  := by
  rw [Bool.and_eq_true, decide_eq_true_iff, List.all_eq_true, List.forall₂_iff_zip]
  simp only [Prod.forall]

theorem forall₂_ofSet {p : HashedItem → HashedItem → Prop} :
  List.Forall₂ p (ofSet h s).items (ofSet h t).items
    ↔ List.Forall₂ (fun a b => p (.ofItem h a) (.ofItem h b)) s.items t.items
  := by
  rw [ofSet, ofSorted, ofSet, ofSorted, List.forall₂_map_left_iff, List.forall₂_map_right_iff]

/-- The hash of the cores of a set is made from its cores. -/
theorem coreHash_congr (hcores : s.cores = t.cores) :
  (ofSet h s).coreHash = (ofSet h t).coreHash
  := by
  have hmade : ∀ s : ItemSet, (ofSet h s).coreHash = h.finish (s.cores.foldl
      (fun state c => h.takeHash state (HashedItem.ofItem h ⟨c, ∅⟩).coreHash) h.initial) := by
    intro s
    simp only [ofSet, ofSorted, ItemSet.cores, List.foldl_map]
    rfl
  rw [hmade, hmade, hcores]

/-- Hashes do not keep sets with the same cores apart. -/
theorem sameCores_ofSet :
  (ofSet h s).sameCores (ofSet h t) = s.sameCores t
  := by
  rw [Bool.eq_iff_iff, sameCores, Bool.and_assoc, Bool.and_eq_true, zip_all_iff, forall₂_ofSet,
    decide_eq_true_iff, ItemSet.sameCores_iff_cores_eq]
  simp only [HashedItem.sameCore_ofItem]
  rw [← ItemSet.cores_eq_iff]
  constructor
  · apply And.right
  · intro hcores
    exact ⟨coreHash_congr hcores, hcores⟩

end HashedSet

/-! ### Merging -/

/-- An item with the lookaheads of another one added to its own. -/
def Item.join (a b : Item) : Item :=
  ⟨a.core, a.lookaheads ∪ b.lookaheads⟩

/-- Two lists of items have the same cores, place by place. -/
abbrev InStep (l l' : List Item) : Prop :=
  List.Forall₂ (fun a b => a.core = b.core) l l'

namespace InStep

variable {l l' : List Item}

theorem cores_join (hstep : InStep l l') :
  (List.zipWith Item.join l l').map Item.core = l.map Item.core
  := by
  induction hstep with
  | nil => rfl
  | cons hcore hrest ih => rw [List.zipWith_cons_cons, List.map_cons, ih, List.map_cons, Item.join]

theorem hasCore_join (hstep : InStep l l') {c : Core} :
  (∃ x ∈ List.zipWith Item.join l l', x.core = c) ↔ ∃ x ∈ l, x.core = c
  := by rw [← List.mem_map, hstep.cores_join, List.mem_map]

theorem looks_join (hstep : InStep l l') {c : Core} {i : SymbolId} :
  (∃ x ∈ List.zipWith Item.join l l', x.core = c ∧ i ∈ x.lookaheads)
    ↔ (∃ x ∈ l, x.core = c ∧ i ∈ x.lookaheads) ∨ ∃ x ∈ l', x.core = c ∧ i ∈ x.lookaheads
  := by
  induction hstep with
  | nil => simp
  | cons hcore hrest ih =>
      simp only [List.zipWith_cons_cons, List.exists_mem_cons_iff, ih, Item.join, hcore,
        SymbolSet.mem_union, and_or_left]
      apply or_or_or_comm

theorem ascending_join (hstep : InStep l l') (h : l.Pairwise fun a b => a.core < b.core) :
  (List.zipWith Item.join l l').Pairwise fun a b => a.core < b.core
  := by
  rw [← List.pairwise_map (R := fun c c' : Core => c < c')] at h ⊢
  rw [hstep.cores_join]
  apply h

end InStep

/-- Merging two sets joins the items in the same places. -/
theorem ItemSet.items_merge {s t u : ItemSet} (hmerge : s.merge t = .ok u) :
  u.items = List.zipWith Item.join s.items t.items
  := by
  have hcores : s.sameCores t = true := by
    by_contra hne
    rw [merge, if_neg hne] at hmerge
    cases hmerge
  have hstep := forall₂_items hcores
  obtain ⟨v, hv, hcore, hlook⟩ := merge_spec hcores
  obtain rfl : u = v := by
    rw [hmerge] at hv
    cases hv
    rfl
  have heq : u = ⟨_, InStep.ascending_join hstep s.ascending⟩ := by
    apply ext_facts
    · intro c
      rw [hcore]
      apply (InStep.hasCore_join hstep).symm
    · intro c i
      rw [hlook]
      apply (InStep.looks_join hstep).symm
  rw [heq]

/-- Items are merged as they are without hashes. -/
theorem HashedItem.merge_ofItem (h : Hasher) (a b : Item) :
  (ofItem h a).merge h (ofItem h b) = (a.merge b).map (ofItem h)
  := by
  rw [merge, Item.merge]
  by_cases hcore : a.core = b.core
  · rw [if_pos hcore, if_pos (sameCore_ofItem.mpr hcore)]
    rfl
  · rw [if_neg hcore, if_neg (mt sameCore_ofItem.mp hcore)]
    rfl

/-- Lists of items in step are merged item by item. -/
theorem InStep.mapM_merge {l l' : List Item} (hstep : InStep l l') (h : Hasher) :
  (((l.map (.ofItem h)).zip (l'.map (.ofItem h))).mapM fun (x, y) => HashedItem.merge h x y)
    = .ok ((List.zipWith Item.join l l').map (.ofItem h))
  := by
  induction hstep with
  | nil => rfl
  | @cons a b l l' hcore hrest ih =>
      have hfirst : HashedItem.merge h (.ofItem h a) (.ofItem h b)
          = .ok (.ofItem h (a.join b)) := by
        rw [HashedItem.merge_ofItem, Item.merge, if_pos hcore]
        rfl
      simp only [List.map_cons, List.zip_cons_cons, List.mapM_cons, hfirst, ih]
      rfl

namespace HashedSet

variable {h : Hasher}

/-- Items that are in order already stay so when they are sorted. -/
theorem ofItems_ofSet (s : ItemSet) :
  ofItems h (s.items.map (.ofItem h)) = ofSet h s
  := by
  rw [ofItems, List.mergeSort_of_pairwise, ofSet]
  rw [List.pairwise_map]
  apply s.ascending.imp
  intro a b hlt
  rw [decide_eq_true_iff]
  intro hgt
  apply Core.lt_irrefl _ (Core.lt_trans hlt hgt)

/-- Sets are merged as they are without hashes. -/
theorem merge_ofSet (s t : ItemSet) :
  (ofSet h s).merge h (ofSet h t) = (s.merge t).map (ofSet h)
  := by
  rw [merge, sameCores_ofSet]
  by_cases hcores : s.sameCores t = true
  · obtain ⟨u, hu, -⟩ := ItemSet.merge_spec hcores
    have hitems := InStep.mapM_merge (ItemSet.forall₂_items hcores) h
    rw [← ItemSet.items_merge hu] at hitems
    rw [if_pos hcores, hu, ofSet, ofSorted, ofSet, ofSorted, hitems]
    simp only [Except.map, ofItems_ofSet]
  · rw [if_neg hcores, ItemSet.merge, if_neg hcores]
    rfl

end HashedSet

/-! ### What is built -/

mutual

/-- Items that have been made over some grammar, merged, or taken from a set that has been
built, and those in which the dot has been moved. -/
inductive HashedItem.Built (h : Hasher) : HashedItem → Prop where
  | make {g : Grammar} {rule : RuleId} {dot : Nat} {lookaheads : SymbolSet} {x : HashedItem} :
    HashedItem.make h g rule dot lookaheads = .ok x → x.Built h
  | merge {x y z : HashedItem} : x.Built h → y.Built h → x.merge h y = .ok z → z.Built h
  | advance {x : HashedItem} : x.Built h → (x.advance h).Built h
  | item {s : HashedSet} {x : HashedItem} : s.Built h → x ∈ s.items → x.Built h

/-- Closures of items that have been built over some grammar, and what they merge into. -/
inductive HashedSet.Built (h : Hasher) : HashedSet → Prop where
  | closure {g : Grammar} {kernel : List HashedItem} {s : HashedSet} :
    (∀ x ∈ kernel, x.Built h) → HashedSet.closure h g kernel = some s → s.Built h
  | merge {s t u : HashedSet} : s.Built h → t.Built h → s.merge h t = .ok u → u.Built h

end

variable {h : Hasher}

/-- What a mapped computation gives is the image of a value. -/
theorem exists_of_map_eq_ok {ε α β : Type} {f : α → β} {e : Except ε α} {b : β}
    (heq : e.map f = .ok b) :
  ∃ a, b = f a
  := by
  cases e with
  | error e => cases heq
  | ok a =>
      cases heq
      exact ⟨a, rfl⟩

/-- A set that has been built is one without hashes, with the hashes that are made from it. -/
theorem HashedSet.Built.exists_ofSet {s : HashedSet} :
  s.Built h → ∃ t, s = ofSet h t
  | .closure _ hclosure => by
    -- Closures do not look at the hashes of their kernels.
    obtain ⟨m, -, rfl⟩ := Option.map_eq_some_iff.mp hclosure
    exact ⟨m.toSet, ofItems_gathered m⟩
  | .merge hs ht hmerge => by
    obtain ⟨s, rfl⟩ := exists_ofSet hs
    obtain ⟨t, rfl⟩ := exists_ofSet ht
    rw [merge_ofSet] at hmerge
    apply exists_of_map_eq_ok hmerge

/-- An item that has been built is one without hashes, with the hashes that are made from it. -/
theorem HashedItem.Built.exists_ofItem {x : HashedItem} :
  x.Built h → ∃ a, x = ofItem h a
  | .make hmake => exists_of_map_eq_ok hmake
  | .merge hx hy hmerge => by
    obtain ⟨a, rfl⟩ := exists_ofItem hx
    obtain ⟨b, rfl⟩ := exists_ofItem hy
    rw [merge_ofItem] at hmerge
    apply exists_of_map_eq_ok hmerge
  | .advance _ => ⟨_, rfl⟩
  | .item hs hmem => by
    obtain ⟨s, rfl⟩ := hs.exists_ofSet
    obtain ⟨a, -, rfl⟩ := List.mem_map.mp hmem
    exact ⟨a, rfl⟩

/-- The closure of the items in which the dot has been moved over a symbol has been built, if
they come from a set that has. -/
theorem HashedSet.Built.goto {g : Grammar} {i : SymbolId} {s t : HashedSet} (hs : s.Built h)
    (hgoto : HashedSet.closure h g (s.advance h g i) = some t) :
  t.Built h
  := by
  apply Built.closure _ hgoto
  intro x hx
  obtain ⟨y, hy, rfl⟩ := List.mem_map.mp hx
  apply HashedItem.Built.advance
  apply HashedItem.Built.item hs (List.mem_filter.mp hy).1

/-- The items of the language of optional symbols with `A` read can be made. -/
theorem HashedSet.built_behindA {lookaheads : List SymbolId}
    (hne : (SymbolSet.ofList lookaheads).isEmpty = false) :
  (behindA lookaheads).Built .rotating
  := by
  have hmake : HashedItem.make .rotating .optional (.user 0) 1 (.ofList lookaheads)
      = .ok (behindA lookaheads) := by
    have hrule : Grammar.optional.rule? (.user 0) = some ⟨2, [3, 4, 5]⟩ := rfl
    rw [HashedItem.make, Item.make, hrule]
    simp [hne, behindA, Except.map]
  apply HashedItem.Built.make hmake

end ShiftReduce
