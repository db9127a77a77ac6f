import ShiftReduce.Item.Passes
import ShiftReduce.Proofs.Item.Closure
import ShiftReduce.Proofs.OrderedMap

/-!
# Passes find the closure

The passes end for every kernel, and they find the closure (`ItemSet.closureByPasses_eq`).
The items gathered so far make up a set, and a pass does to this set what a round does; it
reports a change exactly when the set has new cores or new lookaheads.
-/

namespace ShiftReduce

namespace Gathering

/-- The set of the items gathered so far. -/
def toSet (m : Gathering) : ItemSet :=
  .ofList m.items

/-! ### What has been gathered -/

theorem mem_items {m : Gathering} {item : Item} :
  item ∈ m.items ↔ m.get? item.core = some item.lookaheads
  := by
  rw [OrderedMap.get?_eq_some_iff, items, List.mem_map]
  constructor
  · rintro ⟨entry, hentry, rfl⟩
    apply hentry
  · intro hentry
    exact ⟨_, hentry, rfl⟩

theorem hasCore_toSet {m : Gathering} {c : Core} :
  m.toSet.HasCore c ↔ ∃ l, m.get? c = some l
  := by
  rw [toSet, ItemSet.hasCore_ofList]
  constructor
  · rintro ⟨item, hitem, rfl⟩
    exact ⟨_, mem_items.mp hitem⟩
  · rintro ⟨l, hl⟩
    exact ⟨⟨c, l⟩, mem_items.mpr hl, rfl⟩

theorem looks_toSet {m : Gathering} {c : Core} {a : SymbolId} :
  m.toSet.Looks c a ↔ ∃ l, m.get? c = some l ∧ a ∈ l
  := by
  rw [toSet, ItemSet.looks_ofList]
  constructor
  · rintro ⟨item, hitem, rfl, ha⟩
    exact ⟨_, mem_items.mp hitem, ha⟩
  · rintro ⟨l, hl, ha⟩
    exact ⟨⟨c, l⟩, mem_items.mpr hl, rfl, ha⟩

/-- The items gathered are those of the set. -/
theorem mem_items_toSet {m : Gathering} {item : Item} :
  item ∈ m.toSet.items ↔ item ∈ m.items
  := by
  rw [ItemSet.mem_items_iff, hasCore_toSet, mem_items]
  simp only [looks_toSet]
  constructor
  · rintro ⟨⟨l, hl⟩, hlook⟩
    rw [hl]
    congr 1
    ext a
    rw [← hlook a]
    simp [hl]
  · intro hitem
    simp [hitem]

theorem toSet_add (m : Gathering) (item : Item) :
  (m.add item).toSet = m.toSet.add item
  := by
  apply ItemSet.ext_facts
  · intro c
    rw [ItemSet.hasCore_add, hasCore_toSet, hasCore_toSet, add]
    simp only [OrderedMap.get?_alter]
    split <;> simp_all
  · intro c a
    rw [ItemSet.looks_add, looks_toSet, looks_toSet, add]
    simp only [OrderedMap.get?_alter]
    split
    · rename_i hc
      subst hc
      cases hformer : m.get? item.core with
      | none => simp [SymbolSet.not_mem_empty]
      | some former => simp [or_comm]
    · rename_i hc
      simp [hc]

theorem toSet_foldl_add (m : Gathering) (l : List Item) :
  (l.foldl add m).toSet = m.toSet.addMany l
  := by
  induction l generalizing m with
  | nil => rfl
  | cons item rest ih =>
      rw [List.foldl_cons, ih, toSet_add]
      rfl

theorem toSet_ofList (l : List Item) :
  (ofList l).toSet = .ofList l
  := toSet_foldl_add ∅ l

/-! ### One pass -/

/-- A pass does what a round does. -/
theorem toSet_pass (g : Grammar) (m : Gathering) :
  ((pass g).run m).1.toSet = m.toSet.expand g
  := by
  rw [pass, sweep_fst]
  apply (toSet_foldl_add m _).trans
  apply ItemSet.addMany_congr
  apply (toSet_ofList _).trans
  apply ItemSet.ext_facts
  · intro c
    simp only [ItemSet.hasCore_ofList, List.mem_flatMap, mem_items_toSet]
  · intro c a
    simp only [ItemSet.looks_ofList, List.mem_flatMap, mem_items_toSet]

/-- Taking in an item reports a change exactly when there are more facts afterwards. -/
theorem absorb_snd (m : Gathering) (item : Item) :
  ((m.absorb item).2 = false → (m.absorb item).1 = m) ∧
    ((m.absorb item).2 = true → m.toSet.facts.card < (m.absorb item).1.toSet.facts.card)
  := by
  have hget : (m.add item).get? item.core = some ((m.get? item.core).getD ∅ ∪ item.lookaheads) := by
    rw [add, OrderedMap.get?_alter, if_pos rfl]
  have hgrow : (m.add item).toSet ≠ m.toSet →
      m.toSet.facts.card < (m.add item).toSet.facts.card := by
    rw [toSet_add]
    apply ItemSet.card_facts_lt_of_ne
    · intro c hc
      apply ItemSet.hasCore_add.mpr (.inr hc)
    · intro c a ha
      apply ItemSet.looks_add.mpr (.inr ha)
  cases hformer : m.get? item.core with
  | none =>
      simp only [absorb, hformer, Bool.true_eq_false, false_implies, true_and, forall_const]
      apply hgrow
      intro heq
      have hcore := hasCore_toSet.mpr ⟨_, hget⟩
      rw [heq, hasCore_toSet, hformer] at hcore
      simp at hcore
  | some former =>
      simp only [absorb, hformer, SymbolSet.grew, decide_eq_false_iff_not, decide_eq_true_iff]
      have hsub : ∀ a ∈ former, a ∈ former ∪ item.lookaheads :=
        fun a ha => SymbolSet.mem_union.mpr (.inl ha)
      constructor
      · intro hsame
        apply OrderedMap.alter_eq_self hformer
        by_contra hne
        apply hsame (SymbolSet.size_lt hsub hne)
      · intro hlt
        apply hgrow
        intro heq
        apply Nat.ne_of_lt hlt
        congr 1
        ext a
        have hlook : (m.add item).toSet.Looks item.core a ↔ m.toSet.Looks item.core a := by
          rw [heq]
        rw [looks_toSet, looks_toSet, hget, hformer] at hlook
        simpa using hlook.symm

end Gathering

/-! ### Closures -/

/-- The passes end for every kernel, be its items those of the grammar or not, and find its
closure. -/
theorem ItemSet.closureByPasses_eq {g : Grammar} (hg : g.Proper) (kernel : List Item) :
  closureByPasses g kernel = some (closure g kernel)
  := by
  have hchanged := fun m : Gathering => sweep_changed Gathering.absorb (I := fun _ => True)
    (l := (Gathering.ofList (m.items.flatMap (Item.predicted g))).items)
    (fun m : Gathering => m.toSet.facts.card) (fun _ _ _ _ => trivial)
    (fun m _ item _ => (m.absorb_snd item).1) (fun m _ item _ => (m.absorb_snd item).2)
    (a := m) trivial
  have hstart := Gathering.toSet_ofList kernel
  obtain ⟨m, hm, -, hset⟩ := Pass.exists_saturate (Gathering.pass g)
    (I := fun _ => True) Gathering.toSet (fun s => s.facts.card)
    (fun m _ => (hchanged m).1) (fun m _ => Gathering.toSet_pass g m)
    (fun m _ => (hchanged m).2.1) (fun m _ => (hchanged m).2.2) (n := maxRounds g kernel)
    (c := Gathering.ofList kernel) trivial (hstart ▸ expand_closure hg kernel)
  rw [closureByPasses, hm]
  rw [hstart] at hset
  exact congrArg some hset

end ShiftReduce
