import Mathlib.Data.List.Basic
import ShiftReduce.OrderedMap

/-!
# Entries of maps in order of insertion

A map has one entry for each of its keys.  So putting all its entries into another map
overrides the values of that one at its own keys, and changes no others.

A map can be an index of an array: under each key it has the places of the elements with that
key.  An element is found there in the same place as if all elements were looked at.
-/

namespace ShiftReduce

namespace OrderedMap

variable {α β : Type} [DecidableEq α]

/-- A new key is appended. -/
theorem alterEntries_of_not_mem {key : α} {f : Option β → β} {l : List (α × β)}
    (h : key ∉ l.map Prod.fst) :
  alterEntries key f l = l ++ [(key, f none)]
  := by
  induction l with
  | nil => rfl
  | cons entry rest ih =>
      rw [List.map_cons, List.mem_cons, not_or] at h
      rw [alterEntries, if_neg (Ne.symm h.1), ih h.2]
      rfl

/-- The value at a key is that of the entry with the key. -/
theorem get?_eq_some_iff {m : OrderedMap α β} {k : α} {b : β} :
  m.get? k = some b ↔ (k, b) ∈ m.entries
  := by
  obtain ⟨l, hl⟩ := m
  simp only [get?]
  induction l with
  | nil => simp
  | cons entry rest ih =>
      obtain ⟨k', b'⟩ := entry
      rw [List.map_cons, List.nodup_cons] at hl
      by_cases hk : k = k'
      · subst hk
        have hnone : (k, b) ∉ rest := fun h => hl.1 (List.mem_map.mpr ⟨_, h, rfl⟩)
        simp [hnone, eq_comm]
      · have hbeq : (k == k') = false := by simpa using hk
        simp [List.lookup_cons, hbeq, ih hl.2, hk]

/-- Where the new value at a key is the former one, nothing changes. -/
theorem alter_eq_self {m : OrderedMap α β} {k : α} {b : β} {f : Option β → β}
    (h : m.get? k = some b) (hf : f (some b) = b) :
  m.alter k f = m
  := by
  have hentries : ∀ l : List (α × β), l.lookup k = some b → alterEntries k f l = l := by
    intro l hl
    induction l with
    | nil => cases hl
    | cons entry rest ih =>
        obtain ⟨k', b'⟩ := entry
        rw [alterEntries]
        by_cases hk : k' = k
        · subst hk
          obtain rfl : b' = b := by simpa using hl
          rw [if_pos rfl, hf]
        · have hbeq : (k == k') = false := by simpa using Ne.symm hk
          rw [if_neg hk, ih (by simpa [List.lookup_cons, hbeq] using hl)]
  obtain ⟨l, hl⟩ := m
  apply (OrderedMap.mk.injEq _ _ _ _).mpr
  apply hentries l h

/-- Putting the entries of a map one after the other into another one. -/
theorem get?_foldl_put {γ : Type} (h : β → γ) (m : OrderedMap α β) (slot : OrderedMap α γ)
    (k : α) :
  (m.entries.foldl (fun slot (key, b) => slot.put key (h b)) slot).get? k
    = ((m.get? k).map h).or (slot.get? k)
  := by
  obtain ⟨l, hl⟩ := m
  simp only [get?]
  induction l generalizing slot with
  | nil => simp
  | cons entry rest ih =>
      obtain ⟨k', b'⟩ := entry
      rw [List.map_cons, List.nodup_cons] at hl
      rw [List.foldl_cons, ih _ hl.2]
      have hput := get?_put slot k' (h b') k
      simp only [get?] at hput
      rw [hput]
      by_cases hk : k = k'
      · subst hk
        have hnone : rest.lookup k = none := by
          rw [List.lookup_eq_none_iff]
          intro entry hentry
          rw [bne_iff_ne]
          rintro rfl
          apply hl.1 (List.mem_map.mpr ⟨entry, hentry, rfl⟩)
        simp [hnone]
      · have hbeq : (k == k') = false := by simpa using hk
        simp [List.lookup_cons, hbeq, hk]

/-- Putting entries with new keys appends them. -/
theorem entries_foldl_put {l : List (α × β)} {slot : OrderedMap α β}
    (h : ((slot.entries ++ l).map Prod.fst).Nodup) :
  (l.foldl (fun slot (key, b) => slot.put key b) slot).entries = slot.entries ++ l
  := by
  induction l generalizing slot with
  | nil => rw [List.foldl_nil, List.append_nil]
  | cons entry rest ih =>
      obtain ⟨key, b⟩ := entry
      have hput : (slot.put key b).entries = slot.entries ++ [(key, b)] := by
        apply alterEntries_of_not_mem
        rw [List.map_append, List.nodup_append] at h
        intro hkey
        apply h.2.2 key hkey key List.mem_cons_self rfl
      have happend : (slot.put key b).entries ++ rest = slot.entries ++ (key, b) :: rest := by
        rw [hput, List.append_assoc]
        rfl
      rw [List.foldl_cons, ih (happend ▸ h), happend]

/-- Putting the entries of a map one after the other into the empty one makes the same map. -/
theorem foldl_put_empty (m : OrderedMap α β) :
  m.entries.foldl (fun slot (key, b) => slot.put key b) ∅ = m
  := by
  apply (OrderedMap.mk.injEq _ _ _ _).mpr
  apply entries_foldl_put m.distinct

/-- There is exactly one entry with a key. -/
theorem filter_entries {m : OrderedMap α β} {k : α} {b : β} (h : m.get? k = some b) :
  m.entries.filter (fun entry => entry.1 = k) = [(k, b)]
  := by
  obtain ⟨l, hl⟩ := m
  simp only [get?] at h ⊢
  induction l with
  | nil => cases h
  | cons entry rest ih =>
      obtain ⟨k', b'⟩ := entry
      rw [List.map_cons, List.nodup_cons] at hl
      by_cases hk : k = k'
      · subst hk
        have hrest : rest.filter (fun entry => entry.1 = k) = [] := by
          rw [List.filter_eq_nil_iff]
          intro entry hentry heq
          apply hl.1 (List.mem_map.mpr ⟨entry, hentry, of_decide_eq_true heq⟩)
        rw [List.filter_cons_of_pos (by simp), hrest]
        simpa using h
      · have hbeq : (k == k') = false := by simpa using hk
        simp only [List.lookup_cons, hbeq] at h
        rw [List.filter_cons_of_neg (by simpa using Ne.symm hk), ih hl.2 h]

/-! ### Keys taken out -/

/-- A key that is taken out has no value any more, and the other keys keep theirs. -/
theorem get?_erase (m : OrderedMap α β) (key k : α) :
  (m.erase key).get? k = if k = key then none else m.get? k
  := by
  ext b
  rw [get?_eq_some_iff, erase, List.mem_filter, decide_eq_true_iff]
  split
  · simp_all
  · simp_all [get?_eq_some_iff]

/-! ### Indexes -/

section

variable {γ : Type} {key : γ → α} {index : OrderedMap α (List Nat)} {xs : Array γ}

/-- An index has under each key the places of the elements with that key, in order. -/
def Lists (key : γ → α) (index : OrderedMap α (List Nat)) (xs : Array γ) : Prop :=
  ∀ k, (index.get? k).getD [] = (List.range xs.size).filter fun i => xs[i]?.map key = some k

theorem lists_empty :
  Lists key ∅ (#[] : Array γ)
  := by
  intro k
  rfl

/-- Where only elements with a certain key are looked for, the first place that is found in the
index is the first of all. -/
theorem Lists.find?_eq (h : Lists key index xs) {k : α} {p : γ → Bool} {found : Nat → Bool}
    (hfound : ∀ (i : Nat) (hi : i < xs.size), found i = p xs[i])
    (hkey : ∀ x ∈ xs, p x = true → key x = k) :
  ((index.get? k).getD []).find? found = xs.findIdx? p
  := by
  rw [h, List.find?_filter]
  have hiff : ∀ {i : Nat} (hi : i < xs.size),
      xs[i]?.map key = some k ∧ found i = true ↔ p xs[i] = true := by
    intro i hi
    rw [Array.getElem?_eq_getElem hi, Option.map_some, hfound i hi, and_iff_right_iff_imp]
    intro hp
    rw [hkey _ (Array.getElem_mem hi) hp]
  cases hfind : xs.findIdx? p with
  | some i =>
      obtain ⟨hlt, hi, hbefore⟩ := Array.findIdx?_eq_some_iff_getElem.mp hfind
      apply List.find?_range_eq_some.mpr
      refine ⟨?_, List.mem_range.mpr hlt, ?_⟩
      · simp only [decide_eq_true_iff, hiff hlt]
        apply hi
      · intro j hj
        simp only [decide_eq_true_iff, hiff (Nat.lt_trans hj hlt)]
        simpa using hbefore j hj
  | none =>
      apply List.find?_range_eq_none.mpr
      intro i hi
      simp only [decide_eq_true_iff, hiff hi]
      simpa using Array.findIdx?_eq_none_iff.mp hfind xs[i] (Array.getElem_mem hi)

/-- The place of a new element comes last under its key. -/
theorem Lists.push (h : Lists key index xs) (x : γ) :
  Lists key (index.alter (key x) fun former => former.getD [] ++ [xs.size]) (xs.push x)
  := by
  intro k
  have hold : ((List.range xs.size).filter fun i => (xs.push x)[i]?.map key = some k)
      = (index.get? k).getD [] := by
    rw [h]
    apply List.filter_congr
    intro i hi
    rw [Array.getElem?_push, if_neg (Nat.ne_of_lt (List.mem_range.mp hi))]
  rw [Array.size_push, List.range_succ, List.filter_append, hold, get?_alter,
    List.filter_singleton, Array.getElem?_push_size]
  by_cases hk : k = key x
  · subst hk
    simp
  · simp [hk, Ne.symm hk]

/-- An element may be replaced by one with the same key. -/
theorem Lists.set (h : Lists key index xs) {i : Nat} (hi : i < xs.size) {x : γ}
    (hkey : key x = key xs[i]) :
  Lists key index (xs.setIfInBounds i x)
  := by
  intro k
  rw [h, Array.size_setIfInBounds]
  apply List.filter_congr
  intro j _
  rw [Array.getElem?_setIfInBounds]
  by_cases heq : i = j
  · subst heq
    rw [if_pos rfl, if_pos hi, Array.getElem?_eq_getElem hi, Option.map_some, Option.map_some, hkey]
  · rw [if_neg heq]

end

/-! ### Numbers of keys -/

/-- A new key is one more. -/
theorem size_put_of_none {m : OrderedMap α β} {key : α} (h : m.get? key = none) (value : β) :
  (m.put key value).size = m.size + 1
  := by
  have hkey : key ∉ m.entries.map Prod.fst := by
    intro hmem
    obtain ⟨⟨k, b⟩, hentry, rfl⟩ := List.mem_map.mp hmem
    rw [get?_eq_some_iff.mpr hentry] at h
    cases h
  have hentries : (m.put key value).entries = m.entries ++ [(key, value)] :=
    alterEntries_of_not_mem hkey
  rw [size, hentries, List.length_append]
  rfl

/-- A key that is taken out is one less. -/
theorem size_erase_of_some {m : OrderedMap α β} {key : α} {b : β} (h : m.get? key = some b) :
  (m.erase key).size + 1 = m.size
  := by
  have hlength := List.length_eq_length_filter_add (l := m.entries) fun entry => entry.1 = key
  rw [filter_entries h] at hlength
  simp only [size, erase, hlength]
  simp [Nat.add_comm]

end OrderedMap

end ShiftReduce
