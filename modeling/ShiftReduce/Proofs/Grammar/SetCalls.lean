import Mathlib.Data.List.Forall2
import ShiftReduce.Grammar.SetCalls

/-!
# Ways to keep sets that answer alike

Two ways to keep sets are compared by a relation between their sets.  If each operation keeps
sets related and the tests agree on related sets, then a call keeps lists of sets related, place
by place, and has the same answer for both (`SymbolSets.Agree.answer`).  So all calls of a program
have the same answers (`SymbolSets.Agree.answers`).
-/

namespace ShiftReduce

namespace SymbolSets

variable {H : Type} {a b : SymbolSets H}

/-- Two ways to keep sets give the same answers for related sets, and related sets become related
ones. -/
structure Agree (a b : SymbolSets H) (R : a.Set → b.Set → Prop) : Prop where
  empty : R a.empty b.empty
  ofList : ∀ ids, R (a.ofList ids) (b.ofList ids)
  insert : ∀ {s t}, R s t → ∀ id,
    R (a.insert s id).1 (b.insert t id).1 ∧ (a.insert s id).2 = (b.insert t id).2
  extend : ∀ {s t}, R s t → ∀ ids, R (a.extend s ids) (b.extend t ids)
  union : ∀ {s t s' t'}, R s t → R s' t' →
    R (a.union s s').1 (b.union t t').1 ∧ (a.union s s').2 = (b.union t t').2
  contains : ∀ {s t}, R s t → ∀ id, a.contains s id = b.contains t id
  isSubset : ∀ {s t s' t'}, R s t → R s' t' → a.isSubset s s' = b.isSubset t t'
  size : ∀ {s t}, R s t → a.size s = b.size t
  isEmpty : ∀ {s t}, R s t → a.isEmpty s = b.isEmpty t
  members : ∀ {s t}, R s t → a.members s = b.members t
  same : ∀ {s t s' t'}, R s t → R s' t' → a.same s s' = b.same t t'
  compare : ∀ {s t s' t'}, R s t → R s' t' → a.compare s s' = b.compare t t'
  hash : ∀ {s t}, R s t → a.hash s = b.hash t

/-- Related sets and the same answer. -/
def Alike (R : a.Set → b.Set → Prop) (x : List a.Set × SetAnswer H)
    (y : List b.Set × SetAnswer H) : Prop :=
  List.Forall₂ R x.1 y.1 ∧ x.2 = y.2

variable {R : a.Set → b.Set → Prop} {sets : List a.Set} {sets' : List b.Set}

/-- In the same place of related lists there are related sets or none. -/
theorem getElem?_cases (h : List.Forall₂ R sets sets') (k : Nat) :
  (∃ s t, sets[k]? = some s ∧ sets'[k]? = some t ∧ R s t)
    ∨ sets[k]? = none ∧ sets'[k]? = none
  := by
  induction h generalizing k with
  | nil => exact .inr ⟨rfl, rfl⟩
  | cons hfirst _ ih =>
      cases k with
      | zero => exact .inl ⟨_, _, rfl, rfl, hfirst⟩
      | succ k => apply ih k

theorem forall₂_set (h : List.Forall₂ R sets sets') (k : Nat) {s : a.Set} {t : b.Set}
    (hst : R s t) :
  List.Forall₂ R (sets.set k s) (sets'.set k t)
  := by
  induction h generalizing k with
  | nil => exact .nil
  | cons hfirst hrest ih =>
      cases k with
      | zero => exact .cons hst hrest
      | succ k => exact .cons hfirst (ih k)

theorem alike_push (h : List.Forall₂ R sets sets') {s : a.Set} {t : b.Set} (hst : R s t) :
  Alike R (sets ++ [s], .done) (sets' ++ [t], .done)
  := ⟨List.rel_append h (.cons hst .nil), rfl⟩

theorem alike_on (h : List.Forall₂ R sets sets') (k : Nat) {f : a.Set → a.Set × SetAnswer H}
    {g : b.Set → b.Set × SetAnswer H}
    (hfg : ∀ s t, R s t → R (f s).1 (g t).1 ∧ (f s).2 = (g t).2) :
  Alike R (a.on sets k f) (b.on sets' k g)
  := by
  rcases getElem?_cases h k with ⟨s, t, hs, ht, hst⟩ | ⟨hs, ht⟩
  · rw [on, on, hs, ht]
    exact ⟨forall₂_set h k (hfg s t hst).1, (hfg s t hst).2⟩
  · rw [on, on, hs, ht]
    exact ⟨h, rfl⟩

theorem alike_both (h : List.Forall₂ R sets sets') (k j : Nat)
    {f : a.Set → a.Set → a.Set × SetAnswer H} {g : b.Set → b.Set → b.Set × SetAnswer H}
    (hfg : ∀ s t s' t', R s t → R s' t' →
      R (f s s').1 (g t t').1 ∧ (f s s').2 = (g t t').2) :
  Alike R (a.both sets k j f) (b.both sets' k j g)
  := by
  rcases getElem?_cases h j with ⟨s', t', hs', ht', hst'⟩ | ⟨hs', ht'⟩
  · rw [both, both, hs', ht']
    apply alike_on h
    intro s t hst
    apply hfg s t s' t' hst hst'
  · rw [both, both, hs', ht']
    exact ⟨h, rfl⟩

/-- A call keeps sets related and has the same answer. -/
theorem Agree.answer (h : Agree a b R) (hsets : List.Forall₂ R sets sets') (call : SetCall) :
  Alike R (a.answer sets call) (b.answer sets' call)
  := by
  cases call with
  | new => exact alike_push hsets h.empty
  | ofList ids => exact alike_push hsets (h.ofList ids)
  | clone k =>
      rw [SymbolSets.answer, SymbolSets.answer]
      rcases getElem?_cases hsets k with ⟨s, t, hs, ht, hst⟩ | ⟨hs, ht⟩
      · rw [hs, ht]
        exact alike_push hsets hst
      · rw [hs, ht]
        exact ⟨hsets, rfl⟩
  | insert k id =>
      apply alike_on hsets
      intro s t hst
      exact ⟨(h.insert hst id).1, congrArg _ (h.insert hst id).2⟩
  | extend k ids =>
      apply alike_on hsets
      intro s t hst
      exact ⟨h.extend hst ids, rfl⟩
  | union k j =>
      apply alike_both hsets
      intro s t s' t' hst hst'
      exact ⟨(h.union hst hst').1, congrArg _ (h.union hst hst').2⟩
  | contains k id =>
      apply alike_on hsets
      intro s t hst
      exact ⟨hst, congrArg _ (h.contains hst id)⟩
  | isSubset k j =>
      apply alike_both hsets
      intro s t s' t' hst hst'
      exact ⟨hst, congrArg _ (h.isSubset hst hst')⟩
  | size k =>
      apply alike_on hsets
      intro s t hst
      exact ⟨hst, congrArg₂ _ (h.size hst) (h.isEmpty hst)⟩
  | members k =>
      apply alike_on hsets
      intro s t hst
      exact ⟨hst, congrArg _ (h.members hst)⟩
  | compare k j =>
      apply alike_both hsets
      intro s t s' t' hst hst'
      exact ⟨hst, congrArg₂ _ (h.same hst hst') (h.compare hst hst')⟩
  | hash k =>
      apply alike_on hsets
      intro s t hst
      exact ⟨hst, congrArg _ (h.hash hst)⟩

/-- Whatever calls are made, the answers are the same. -/
theorem Agree.answers (h : Agree a b R) (hsets : List.Forall₂ R sets sets')
    (calls : List SetCall) :
  a.answers sets calls = b.answers sets' calls
  := by
  induction calls generalizing sets sets' with
  | nil => rfl
  | cons call rest ih =>
      obtain ⟨hafter, hanswer⟩ := h.answer hsets call
      rw [SymbolSets.answers, SymbolSets.answers, hanswer, ih hafter]

end SymbolSets

end ShiftReduce
