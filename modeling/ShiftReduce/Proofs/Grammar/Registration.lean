import ShiftReduce.Grammar.Registry
import ShiftReduce.Proofs.Grammar.Numbering

/-!
# Entering symbols

Symbols that are entered in a table are listed in the order in which they first occur
(`SymbolTable.toList_enterAll`).  A program that enters some symbols one by one, with their kinds,
leaves the table of all of them, unless there are more of them than numbers with 16 bits
(`Registration.Enters`).  Programs with this property can be put in sequence.
-/

namespace ShiftReduce

/-! ### Symbols in the order of their entry -/

namespace SymbolTable

variable {t u : SymbolTable} {s : Symbol} {l l' : List Symbol}

theorem mem_toList_iff :
  s ∈ t.toList ↔ ∃ i, t.id? s = some i
  := by
  simp only [id?_eq_some_iff]
  rw [toList, Array.mem_toList_iff, Array.mem_iff_getElem?]
  rfl

theorem contains_eq_true_iff :
  t.contains s = true ↔ s ∈ t.toList
  := by rw [mem_toList_iff, contains, Option.isSome_iff_exists]

theorem symbols_intern_of_none (h : t.id? s = none) :
  (t.intern s).1.symbols = t.symbols.push s
  := by
  rw [intern]
  split
  · rename_i i hi
    rw [h] at hi
    cases hi
  · rfl

/-- The table in which all symbols of a list have numbers, one after the other. -/
def enterAll (t : SymbolTable) (l : List Symbol) : SymbolTable :=
  l.foldl (fun t s => (t.intern s).1) t

theorem enterAll_cons :
  t.enterAll (s :: l) = (t.intern s).1.enterAll l
  := rfl

theorem enterAll_append :
  t.enterAll (l ++ l') = (t.enterAll l).enterAll l'
  := List.foldl_append

theorem extends_enterAll :
  t.Extends (t.enterAll l)
  := by
  induction l generalizing t with
  | nil => apply Extends.refl
  | cons s rest ih => apply (t.extends_intern s).trans ih

theorem exists_id?_enterAll (h : s ∈ l) :
  ∃ i, (t.enterAll l).id? s = some i
  := by
  induction l generalizing t with
  | nil => cases h
  | cons s' rest ih =>
      rw [enterAll_cons]
      rcases List.mem_cons.mp h with rfl | h
      · exact ⟨_, extends_enterAll _ _ (t.id?_intern s)⟩
      · apply ih h

/-- A symbol is listed at the end if it has not been listed yet. -/
theorem toList_intern (h : t.toList = l.eraseDups) (s : Symbol) :
  (t.intern s).1.toList = (l ++ [s]).eraseDups
  := by
  cases hs : t.id? s with
  | some i =>
      have hmem : s ∈ t.toList := mem_toList_iff.mpr ⟨i, hs⟩
      rw [h, List.mem_eraseDups] at hmem
      rw [intern_of_some hs, h, eraseDups_append_of_mem hmem]
  | none =>
      have hmem : s ∉ t.toList := by
        rw [mem_toList_iff, hs]
        nofun
      rw [h, List.mem_eraseDups] at hmem
      rw [toList, symbols_intern_of_none hs, Array.toList_push, eraseDups_append_of_not_mem hmem,
        ← h, toList]

/-- The symbols are listed in the order in which they first occur. -/
theorem toList_enterAll (h : t.toList = l.eraseDups) :
  (t.enterAll l').toList = (l ++ l').eraseDups
  := by
  induction l' generalizing t l with
  | nil => rwa [List.append_nil]
  | cons s rest ih =>
      rw [List.append_cons, enterAll_cons]
      apply ih (toList_intern h s)

theorem size_le_size_intern (s : Symbol) :
  t.size ≤ (t.intern s).1.size
  := by
  cases hs : t.id? s with
  | some i =>
      have hsame : (t.intern s).1 = t := congrArg Prod.fst (intern_of_some hs)
      apply Nat.le_of_eq (congrArg size hsame.symm)
  | none =>
      rw [size, size, symbols_intern_of_none hs, Array.size_push]
      apply Nat.le_succ

theorem size_le_size_enterAll :
  t.size ≤ (t.enterAll l).size
  := by
  induction l generalizing t with
  | nil => apply Nat.le_refl
  | cons s rest ih => apply Nat.le_trans (size_le_size_intern s) ih

theorem internMany_fst :
  (t.internMany l).1 = t.enterAll l
  := by
  rw [internMany_eq]
  generalize (#[] : Array SymbolId) = ids
  induction l generalizing t ids with
  | nil => rfl
  | cons s rest ih => apply ih

theorem mem_toList_ofList :
  s ∈ (ofList l).toList ↔ s ∈ l
  := by
  rw [ofList, internMany_fst, toList_enterAll (l := []) rfl, List.mem_eraseDups, List.nil_append]

end SymbolTable

namespace Grammar

variable {V : Type}

theorem numberRules_fst (rules : List (Production V)) :
  (numberRules rules).1 = reservedSymbols.enterAll (rules.flatMap fun p => p.lhs :: p.rhs)
  := by
  rw [numberRules_eq]
  generalize reservedSymbols = t
  generalize (#[] : Array Rule) = numbered
  induction rules generalizing t numbered with
  | nil => rfl
  | cons p rest ih =>
      rw [List.foldl_cons, ih, List.flatMap_cons, SymbolTable.enterAll_append, numberNext,
        SymbolTable.internMany_fst]
      rfl

end Grammar

/-! ### Classes of symbols -/

namespace SymbolClasses

variable {V : Type}

/-- The kind that is noted with a symbol. -/
def kindOf (classes : SymbolClasses) : Symbol → SymbolKind
  | .endOfInput => .terminal
  | .start => .nonterminal
  | s => (classes.kind? s).getD .terminal

theorem kindOf_label (classes : SymbolClasses) (name : String) :
  classes.kindOf (.label name) = (classes.kind? (.label name)).getD .terminal
  := rfl

theorem contains_nonterminals_iff {rules : List (Production V)} {s : Symbol} :
  (ofRules rules).nonterminals.contains s = true ↔ ∃ p ∈ rules, p.lhs = s
  := by rw [SymbolTable.contains_eq_true_iff, ofRules, SymbolTable.mem_toList_ofList, List.mem_map]

/-- Every symbol of a rule is of some kind. -/
theorem kind?_ofRules {rules : List (Production V)} {p : Production V} (hp : p ∈ rules)
    {s : Symbol} (hs : s ∈ p.lhs :: p.rhs) :
  (ofRules rules).kind? s
    = some (if ∃ p ∈ rules, p.lhs = s then .nonterminal else .terminal)
  := by
  rw [kind?]
  by_cases hlhs : ∃ p ∈ rules, p.lhs = s
  · rw [if_pos (contains_nonterminals_iff.mpr hlhs), if_pos hlhs]
  · have hrhs : (ofRules rules).terminals.contains s = true := by
      rw [SymbolTable.contains_eq_true_iff, ofRules, SymbolTable.mem_toList_ofList,
        List.mem_filter, List.mem_flatMap]
      constructor
      · rcases List.mem_cons.mp hs with rfl | hs
        · cases hlhs ⟨p, hp, rfl⟩
        · exact ⟨p, hp, hs⟩
      · rw [Bool.not_eq_true', ← Bool.not_eq_true]
        apply mt contains_nonterminals_iff.mp hlhs
    rw [if_neg (mt contains_nonterminals_iff.mp hlhs), if_pos hrhs, if_neg hlhs]

end SymbolClasses

/-! ### Entering symbols -/

/-- The number of a symbol in 16 bits. -/
def SymbolTable.number (t : SymbolTable) (s : Symbol) : UInt16 :=
  .ofNat ((t.id? s).getD 0)

theorem SymbolTable.number_of_id? {t : SymbolTable} {s : Symbol} {i : SymbolId}
    (h : t.id? s = some i) :
  t.number s = .ofNat i
  := by rw [number, h, Option.getD_some]

namespace Registration

variable {α β γ : Type} {classes : SymbolClasses} {l l' : List Symbol}

/-- The registration of the symbols of a table, with the kinds of these. -/
def noted (classes : SymbolClasses) (t : SymbolTable) : Registration where
  symbols := t
  kinds := t.symbols.map classes.kindOf

theorem reserved_eq_noted :
  reserved = noted classes Grammar.reservedSymbols
  := by
  have hsymbols : Grammar.reservedSymbols.symbols = #[.endOfInput, .start] := rfl
  simp [reserved, noted, hsymbols, SymbolClasses.kindOf]

/-- The program enters some symbols, and returns what their numbers say.  It fails if there are
too many symbols then. -/
structure Enters (classes : SymbolClasses) (program : Registering α) (l : List Symbol)
    (value : SymbolTable → α) : Prop where
  run : ∀ t : SymbolTable, Grammar.reservedSymbols.Extends t → t.size ≤ UInt16.size →
    program.run (noted classes t)
      = if (t.enterAll l).size ≤ UInt16.size then
          .ok (value (t.enterAll l), noted classes (t.enterAll l))
        else .error (.grammar .tooManySymbols)
  value_eq : ∀ t u : SymbolTable, t.Extends u → (∀ s ∈ l, ∃ i, t.id? s = some i) →
    value u = value t

/-- A program that enters nothing. -/
theorem enters_pure (a : α) :
  Enters classes (pure a) [] fun _ => a
  where
  run t _ hsize := by
    rw [if_pos (by exact hsize)]
    rfl
  value_eq _ _ _ _ := rfl

/-- Two programs in sequence enter the symbols of the one and then those of the other. -/
theorem Enters.pair {program : Registering α} {program' : Registering β}
    {value : SymbolTable → α} {value' : SymbolTable → β} (h : Enters classes program l value)
    (h' : Enters classes program' l' value') (f : α → β → γ) :
  Enters classes (do return f (← program) (← program')) (l ++ l')
    fun u => f (value u) (value' u)
  := by
  constructor
  · intro t hreserved hsize
    rw [SymbolTable.enterAll_append, StateT.run_bind, h.run t hreserved hsize]
    by_cases hfits : (t.enterAll l).size ≤ UInt16.size
    · have hknown : ∀ s ∈ l, ∃ i, (t.enterAll l).id? s = some i :=
        fun s => SymbolTable.exists_id?_enterAll
      have hrun := h'.run _ (hreserved.trans SymbolTable.extends_enterAll) hfits
      have hvalue := h.value_eq _ ((t.enterAll l).enterAll l') SymbolTable.extends_enterAll hknown
      rw [if_pos hfits, hvalue]
      change StateT.run (program' >>= fun b => pure (f _ b)) (noted classes (t.enterAll l)) = _
      rw [StateT.run_bind, hrun]
      split <;> rfl
    · have hlarger : ¬ ((t.enterAll l).enterAll l').size ≤ UInt16.size :=
        fun hle => hfits (Nat.le_trans SymbolTable.size_le_size_enterAll hle)
      rw [if_neg hfits, if_neg hlarger]
      rfl
  · intro t u hext hknown
    rw [h.value_eq t u hext fun s hs => hknown s (List.mem_append_left _ hs),
      h'.value_eq t u hext fun s hs => hknown s (List.mem_append_right _ hs)]

/-- Programs in sequence enter all their symbols. -/
theorem Enters.mapM {program : β → Registering α} {symbols : β → List Symbol}
    {value : SymbolTable → β → α} {bs : List β}
    (h : ∀ b ∈ bs, Enters classes (program b) (symbols b) (value · b)) :
  Enters classes (bs.mapM program) (bs.flatMap symbols) fun u => bs.map (value u)
  := by
  induction bs with
  | nil => apply enters_pure
  | cons b rest ih =>
      rw [List.mapM_cons, List.flatMap_cons]
      apply (h b List.mem_cons_self).pair (ih fun b hb => h b (List.mem_cons_of_mem _ hb)) List.cons

theorem run_enter_of_some {t : SymbolTable} {s : Symbol} {i : SymbolId} (h : t.id? s = some i)
    (hlt : i < UInt16.size) :
  (enter classes s).run (noted classes t) = .ok (.ofNat i, noted classes t)
  := by
  have hcontains : t.contains s = true := by rw [SymbolTable.contains, h, Option.isSome_some]
  simp only [enter, bind_pure_comp, noted, StateT.run_bind, StateT.run_get, pure_bind, hcontains,
    ↓reduceIte, SymbolTable.intern_of_some h, hlt, StateT.run_pure]
  rfl

/-- A symbol that is new is noted with its kind. -/
theorem run_enter_of_none {t : SymbolTable} {s : Symbol} (h : t.id? s = none)
    (hkind : classes.kind? s = some (classes.kindOf s)) :
  (enter classes s).run (noted classes t)
    = if t.size < UInt16.size then .ok (.ofNat t.size, noted classes (t.intern s).1)
      else .error (.grammar .tooManySymbols)
  := by
  have hcontains : t.contains s = false := by rw [SymbolTable.contains, h, Option.isSome_none]
  have hnoted : noted classes (t.intern s).1
      = ⟨(t.intern s).1, (t.symbols.map classes.kindOf).push (classes.kindOf s)⟩ := by
    rw [noted, SymbolTable.symbols_intern_of_none h, Array.map_push]
  rw [hnoted]
  simp only [enter, bind_pure_comp, hkind, noted, StateT.run_bind, StateT.run_get, pure_bind,
    hcontains, Bool.false_eq_true, ↓reduceIte, SymbolTable.intern_snd_of_none h, StateT.run_set]
  split <;> rfl

/-- A symbol of some kind is entered. -/
theorem enters_enter {s : Symbol} {kind : SymbolKind} (h : classes.kind? s = some kind) :
  Enters classes (enter classes s) [s] (SymbolTable.number · s)
  := by
  constructor
  · intro t hreserved hsize
    have henter : t.enterAll [s] = (t.intern s).1 := rfl
    rw [henter]
    cases hs : t.id? s with
    | some i =>
        have hlt := Nat.lt_of_lt_of_le (SymbolTable.lt_size hs) hsize
        rw [SymbolTable.intern_of_some hs, if_pos hsize, SymbolTable.number_of_id? hs,
          run_enter_of_some hs hlt]
    | none =>
        have hkind : classes.kind? s = some (classes.kindOf s) := by
          cases s with
          | endOfInput => cases hs.symm.trans (hreserved .endOfInput endOfInputId rfl)
          | start => cases hs.symm.trans (hreserved .start startId rfl)
          | label name => rw [classes.kindOf_label, h, Option.getD_some]
        have hsize : (t.intern s).1.size = t.size + 1 := by
          rw [SymbolTable.size, SymbolTable.symbols_intern_of_none hs, Array.size_push,
            SymbolTable.size]
        rw [run_enter_of_none hs hkind, hsize, SymbolTable.number_of_id? (t.id?_intern s),
          SymbolTable.intern_snd_of_none hs]
        rfl
  · intro t u hext hknown
    obtain ⟨i, hi⟩ := hknown s List.mem_cons_self
    rw [SymbolTable.number_of_id? hi, SymbolTable.number_of_id? (hext s i hi)]

/-- The rule on the numbers of its symbols. -/
def registered {V : Type} (t : SymbolTable) (p : Production V) : RegisteredRule where
  lhs := t.number p.lhs
  rhs := p.rhs.map t.number

/-- The symbols of a rule are entered, that of the left-hand side first. -/
theorem enters_enterRule {V : Type} {p : Production V}
    (h : ∀ s ∈ p.lhs :: p.rhs, classes.kind? s ≠ none) :
  Enters classes (enterRule classes p) (p.lhs :: p.rhs) (registered · p)
  := by
  have henter : ∀ s ∈ p.lhs :: p.rhs,
      Enters classes (enter classes s) [s] (SymbolTable.number · s) := by
    intro s hs
    obtain ⟨kind, hkind⟩ := Option.ne_none_iff_exists'.mp (h s hs)
    apply enters_enter hkind
  obtain ⟨hlhs, hrhs⟩ := List.forall_mem_cons.mp henter
  have hsymbols : p.rhs.flatMap (fun s => [s]) = p.rhs := List.flatMap_singleton' p.rhs
  have hpair := hlhs.pair (Enters.mapM hrhs) RegisteredRule.mk
  rw [hsymbols] at hpair
  exact hpair

end Registration

end ShiftReduce
