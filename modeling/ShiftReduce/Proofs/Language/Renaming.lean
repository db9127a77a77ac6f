import Mathlib.Data.Set.Function
import ShiftReduce.Proofs.Language.Definable

/-!
# Renaming the labels of a language

A renaming gives other names to the labels and leaves the reserved symbols alone.  A language is
renamed to another one if its rules are those of the other one in some order, with other labels,
and different labels of it stay different.
-/

namespace ShiftReduce

variable {V V' E E' : Type} {ρ : String → String} {names : Set String}

/-! ### Symbols -/

namespace Symbol

/-- The symbol with another name, if it has one. -/
def rename (ρ : String → String) : Symbol → Symbol
  | label name => label (ρ name)
  | endOfInput => endOfInput
  | start => start

/-- The name of the symbol, if it has one, is among some names. -/
def Within (names : Set String) (s : Symbol) : Prop :=
  ∀ name, s.name? = some name → name ∈ names

/-- Renaming keeps the reserved symbols apart from the labels. -/
theorem isReserved_rename (ρ : String → String) (s : Symbol) :
  (s.rename ρ).isReserved = s.isReserved
  := by cases s <;> rfl

theorem rename_of_isReserved {s : Symbol} (h : s.isReserved = true) :
  s.rename ρ = s
  := by
  cases s with
  | label name => cases h
  | _ => rfl

theorem within_of_isReserved {s : Symbol} (h : s.isReserved = true) :
  s.Within names
  := by
  intro name hname
  cases s with
  | label name => cases h
  | _ => cases hname

/-- The end of the input stays what it is, and no label becomes it. -/
theorem rename_eq_endOfInput {s : Symbol} :
  s.rename ρ = endOfInput ↔ s = endOfInput
  := by cases s <;> simp [rename]

/-- Symbols stay different if their names do. -/
theorem rename_injOn (hρ : Set.InjOn ρ names) :
  Set.InjOn (rename ρ) {s | s.Within names}
  := by
  intro s hs s' hs' h
  cases s with
  | label name =>
      cases s' with
      | label name' =>
          rw [hρ (hs name rfl) (hs' name' rfl) (label.inj h)]
      | _ => cases h
  | _ => cases s' <;> first | rfl | cases h

/-- Lists of symbols stay different if their symbols do. -/
theorem map_rename_injOn {symbols : Set Symbol} (h : Set.InjOn (rename ρ) symbols)
    {l l' : List Symbol} (hl : ∀ s ∈ l, s ∈ symbols) (hl' : ∀ s ∈ l', s ∈ symbols)
    (hmap : l.map (rename ρ) = l'.map (rename ρ)) :
  l = l'
  := by
  induction l generalizing l' with
  | nil => rw [List.map_eq_nil_iff.mp hmap.symm]
  | cons s rest ih =>
      cases l' with
      | nil => cases hmap
      | cons s' rest' =>
          obtain ⟨hs, hrest⟩ := List.forall_mem_cons.mp hl
          obtain ⟨hs', hrest'⟩ := List.forall_mem_cons.mp hl'
          obtain ⟨hfirst, hmap⟩ := List.cons.inj hmap
          rw [h hs hs' hfirst, ih hrest hrest' hmap]

end Symbol

/-! ### Rules -/

namespace Production

/-- The symbols of a rule. -/
def symbols (p : Production V) : List Symbol :=
  p.lhs :: p.rhs

/-- The left-hand side and the right-hand side of a rule. -/
def shape (p : Production V) : Symbol × List Symbol :=
  (p.lhs, p.rhs)

/-- The second rule is the first one with other labels. -/
structure Renames (ρ : String → String) (p : Production V) (p' : Production V') : Prop where
  lhs : p'.lhs = p.lhs.rename ρ
  rhs : p'.rhs = p.rhs.map (Symbol.rename ρ)

theorem sameShape_iff {p p' : Production V} :
  p.sameShape p' = true ↔ p.lhs = p'.lhs ∧ p.rhs = p'.rhs
  := by simp [sameShape]

/-- A rule is renamed in one way. -/
theorem Renames.shape_eq {p : Production V} {p' q' : Production V'} (hp' : p.Renames ρ p')
    (hq' : p.Renames ρ q') :
  p'.shape = q'.shape
  := by rw [shape, shape, hp'.lhs, hp'.rhs, hq'.lhs, hq'.rhs]

theorem Renames.mem_symbols_iff {p : Production V} {p' : Production V'} (h : p.Renames ρ p')
    {s' : Symbol} :
  s' ∈ p'.symbols ↔ ∃ s ∈ p.symbols, s.rename ρ = s'
  := by
  rw [symbols, h.lhs, h.rhs, ← List.map_cons (f := Symbol.rename ρ), List.mem_map]
  rfl

end Production

/-! ### Languages -/

namespace Language

/-- The symbols of the rules of a language. -/
def symbols (language : Language V E) : Set Symbol :=
  {s | ∃ p ∈ language.rules, s ∈ p.symbols}

/-- The second language is the first one with its labels renamed and its rules in another
order.  The labels are among some names that the renaming keeps apart. -/
structure Renamed (ρ : String → String) (names : Set String) (language : Language V E)
    (language' : Language V' E') : Prop where
  injOn : Set.InjOn ρ names
  within : ∀ s ∈ language.symbols, s.Within names
  startWithin : language.start.Within names
  rules : (language.rules.map fun p => (p.lhs.rename ρ, p.rhs.map (Symbol.rename ρ))).Perm
    (language'.rules.map Production.shape)
  start : language'.start = language.start.rename ρ

namespace Renamed

variable {language : Language V E} {language' : Language V' E'}

/-- Each rule is renamed to a rule of the other language. -/
theorem exists_image (h : language.Renamed ρ names language') {p : Production V}
    (hp : p ∈ language.rules) :
  ∃ p' ∈ language'.rules, p.Renames ρ p'
  := by
  have hmem := h.rules.subset (List.mem_map_of_mem hp)
  obtain ⟨p', hp', hshape⟩ := List.mem_map.mp hmem
  use p', hp'
  constructor
  · apply congrArg Prod.fst hshape
  · apply congrArg Prod.snd hshape

/-- Each rule of the other language has been renamed from a rule. -/
theorem exists_origin (h : language.Renamed ρ names language') {p' : Production V'}
    (hp' : p' ∈ language'.rules) :
  ∃ p ∈ language.rules, p.Renames ρ p'
  := by
  have hmem := h.rules.symm.subset (List.mem_map_of_mem hp')
  obtain ⟨p, hp, hshape⟩ := List.mem_map.mp hmem
  use p, hp
  constructor
  · apply (congrArg Prod.fst hshape).symm
  · apply (congrArg Prod.snd hshape).symm

theorem length_eq (h : language.Renamed ρ names language') :
  language.rules.length = language'.rules.length
  := by simpa using h.rules.length_eq

/-- The symbols of the other language are the renamed ones. -/
theorem bijOn (h : language.Renamed ρ names language') :
  Set.BijOn (Symbol.rename ρ) language.symbols language'.symbols
  := by
  refine ⟨?_, ?_, ?_⟩
  · rintro s ⟨p, hp, hs⟩
    obtain ⟨p', hp', hrenames⟩ := h.exists_image hp
    exact ⟨p', hp', hrenames.mem_symbols_iff.mpr ⟨s, hs, rfl⟩⟩
  · apply (Symbol.rename_injOn h.injOn).mono h.within
  · rintro s' ⟨p', hp', hs'⟩
    obtain ⟨p, hp, hrenames⟩ := h.exists_origin hp'
    obtain ⟨s, hs, rfl⟩ := hrenames.mem_symbols_iff.mp hs'
    exact ⟨s, ⟨p, hp, hs⟩, rfl⟩

/-- A rule expands the start symbol of the one language if one does in the other. -/
theorem expands_start_iff (h : language.Renamed ρ names language') :
  (∃ p ∈ language.rules, p.lhs = language.start)
    ↔ ∃ p' ∈ language'.rules, p'.lhs = language'.start
  := by
  rw [h.start]
  constructor
  · rintro ⟨p, hp, hlhs⟩
    obtain ⟨p', hp', hrenames⟩ := h.exists_image hp
    use p', hp'
    rw [hrenames.lhs, hlhs]
  · rintro ⟨p', hp', hlhs⟩
    obtain ⟨p, hp, hrenames⟩ := h.exists_origin hp'
    use p, hp
    rw [hrenames.lhs] at hlhs
    have hwithin := h.within p.lhs ⟨p, hp, List.mem_cons_self⟩
    apply Symbol.rename_injOn h.injOn hwithin h.startWithin hlhs

/-- Rules that are renamed to the same rule have the same symbols. -/
theorem shape_eq_of_renames (h : language.Renamed ρ names language') {p q : Production V}
    {p' : Production V'} (hp : p ∈ language.rules) (hq : q ∈ language.rules)
    (hpp' : p.Renames ρ p') (hqp' : q.Renames ρ p') :
  p.shape = q.shape
  := by
  have hmap : p.symbols.map (Symbol.rename ρ) = q.symbols.map (Symbol.rename ρ) := by
    rw [Production.symbols, Production.symbols, List.map_cons, List.map_cons, ← hpp'.lhs,
      ← hpp'.rhs, ← hqp'.lhs, ← hqp'.rhs]
  have heq := Symbol.map_rename_injOn h.bijOn.injOn (fun s hs => ⟨p, hp, hs⟩)
    (fun s hs => ⟨q, hq, hs⟩) hmap
  obtain ⟨hlhs, hrhs⟩ := List.cons.inj heq
  rw [Production.shape, Production.shape, hlhs, hrhs]

end Renamed

/-- A definable language has a rule in one place only. -/
theorem Definable.place_unique {language : Language V E} (h : language.Definable) {i j : Nat}
    {p q : Production V} (hi : language.rules[i]? = some p) (hj : language.rules[j]? = some q)
    (hshape : p.shape = q.shape) :
  i = j
  := by
  obtain ⟨hlt, rfl⟩ := List.getElem?_eq_some_iff.mp hi
  obtain ⟨hlt', rfl⟩ := List.getElem?_eq_some_iff.mp hj
  have hpairwise := List.pairwise_iff_getElem.mp h.pairwise_sameShape
  obtain ⟨hlhs, hrhs⟩ := Prod.mk.inj hshape
  rcases Nat.lt_trichotomy i j with hij | rfl | hij
  · have hdiffer := hpairwise i j hlt hlt' hij
    rw [Production.sameShape_iff.mpr ⟨hlhs, hrhs⟩] at hdiffer
    cases hdiffer
  · rfl
  · have hdiffer := hpairwise j i hlt' hlt hij
    rw [Production.sameShape_iff.mpr ⟨hlhs.symm, hrhs.symm⟩] at hdiffer
    cases hdiffer

end Language

end ShiftReduce
