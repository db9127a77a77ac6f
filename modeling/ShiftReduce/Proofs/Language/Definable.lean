import ShiftReduce.Language
import ShiftReduce.ParseTree

/-!
# Definable languages

A language is definable if it is completed from a definition that has been reached from the
empty one by calls that were not refused.  No rule of such a language mentions a reserved
symbol, and no rule is there twice.
-/

namespace ShiftReduce

variable {V E : Type}

theorem Production.sameShape_comm (p p' : Production V) :
  p.sameShape p' = p'.sameShape p
  := by simp [sameShape, eq_comm]

/-- A definition that calls have led to from the empty one. -/
inductive Definition.Reached : Definition V E → Prop where
  | empty : Reached .empty
  | addLexRule {d : Definition V E} (hd : Reached d) (rule : LexRule V E) :
      Reached (d.addLexRule rule)
  | addRule {d d' : Definition V E} {rule : Production V} (hd : Reached d)
      (h : d.addRule rule = .ok d') : Reached d'
  | setStart {d d' : Definition V E} {symbol : Symbol} (hd : Reached d)
      (h : d.setStart symbol = .ok d') : Reached d'

/-- A language that some calls define. -/
def Language.Definable (language : Language V E) : Prop :=
  ∃ d : Definition V E, d.Reached ∧ d.complete = .ok language

/-! ### Labels -/

/-- A label with at least one character, and no reserved symbol. -/
def Symbol.IsName (s : Symbol) : Prop :=
  ∃ name, s = .label name ∧ name ≠ ""

/-- A rule without reserved symbols. -/
structure Production.IsLabelled (rule : Production V) : Prop where
  lhs : rule.lhs.isReserved = false
  rhs : ∀ s ∈ rule.rhs, s.isReserved = false

namespace Symbol

theorem IsName.isReserved_eq {s : Symbol} (h : s.IsName) :
  s.isReserved = false
  := by
  obtain ⟨name, rfl, -⟩ := h
  rfl

/-- Labels with at least one character pass verification, and nothing else does. -/
theorem verify_eq_ok_iff {s : Symbol} :
  s.verify = .ok () ↔ s.IsName
  := by
  cases s with
  | endOfInput => exact ⟨nofun, nofun⟩
  | start => exact ⟨nofun, nofun⟩
  | label name =>
      rw [verify]
      by_cases hname : name = ""
      · rw [if_pos (String.isEmpty_iff.mpr hname)]
        refine ⟨nofun, ?_⟩
        rintro ⟨_, ⟨⟩, hne⟩
        cases hne hname
      · rw [if_neg (mt String.isEmpty_iff.mp hname)]
        exact ⟨fun _ => ⟨name, rfl, hname⟩, fun _ => rfl⟩

theorem forM_verify_eq_ok_iff {symbols : List Symbol} :
  symbols.forM verify = .ok () ↔ ∀ s ∈ symbols, s.IsName
  := by
  induction symbols with
  | nil => exact ⟨fun _ => nofun, fun _ => rfl⟩
  | cons s rest ih =>
      have hcons : (s :: rest).forM verify = s.verify >>= fun _ => rest.forM verify := rfl
      rw [hcons, List.forall_mem_cons, ← ih, ← verify_eq_ok_iff]
      cases s.verify with
      | error e => exact ⟨nofun, nofun⟩
      | ok u => exact ⟨fun h => ⟨rfl, h⟩, fun h => h.2⟩

end Symbol

/-! ### Definitions -/

namespace Definition

/-- The symbols of a rule that is not refused are labels, and the definition has one rule more
than before. -/
theorem addRule_eq_ok {d d' : Definition V E} {rule : Production V}
    (h : d.addRule rule = .ok d') :
  (∀ s ∈ rule.lhs :: rule.rhs, s.IsName) ∧ d.rules.any rule.sameShape = false
    ∧ d' = { d with rules := d.rules ++ [rule] }
  := by
  rw [addRule] at h
  cases hlhs : rule.lhs.verify with
  | error e =>
      rw [hlhs] at h
      cases h
  | ok u =>
      cases hrhs : rule.rhs.forM Symbol.verify with
      | error e =>
          rw [hlhs, hrhs] at h
          cases h
      | ok u =>
          rw [hlhs, hrhs] at h
          cases hshape : d.rules.any rule.sameShape with
          | true =>
              rw [hshape] at h
              cases h
          | false =>
              rw [hshape] at h
              cases h
              refine ⟨?_, rfl, rfl⟩
              rw [List.forall_mem_cons]
              exact ⟨Symbol.verify_eq_ok_iff.mp hlhs, Symbol.forM_verify_eq_ok_iff.mp hrhs⟩

/-- Another start symbol is a label, and leaves the rules alone. -/
theorem setStart_eq_ok {d d' : Definition V E} {symbol : Symbol}
    (h : d.setStart symbol = .ok d') :
  symbol.IsName ∧ d' = { d with start := some symbol }
  := by
  rw [setStart] at h
  cases hs : symbol.verify with
  | error e =>
      rw [hs] at h
      cases h
  | ok u =>
      rw [hs] at h
      cases h
      exact ⟨Symbol.verify_eq_ok_iff.mp hs, rfl⟩

/-- All symbols of the production rules and the start symbol are labels. -/
structure IsNamed (d : Definition V E) : Prop where
  rules : ∀ rule ∈ d.rules, ∀ s ∈ rule.lhs :: rule.rhs, s.IsName
  start : ∀ s ∈ d.start, s.IsName

/-- The symbols of a definition that has been reached are labels. -/
theorem Reached.isNamed {d : Definition V E} (hd : d.Reached) :
  d.IsNamed
  := by
  induction hd with
  | empty => exact ⟨nofun, nofun⟩
  | addLexRule _ _ ih => exact ⟨ih.rules, ih.start⟩
  | addRule _ h ih =>
      obtain ⟨hnames, -, rfl⟩ := addRule_eq_ok h
      refine ⟨?_, ih.start⟩
      intro p hp
      rcases List.mem_append.mp hp with hp | hp
      · apply ih.rules p hp
      · obtain rfl := List.mem_singleton.mp hp
        apply hnames
  | setStart _ h ih =>
      obtain ⟨hname, rfl⟩ := setStart_eq_ok h
      refine ⟨ih.rules, ?_⟩
      rintro _ ⟨⟩
      apply hname

/-- The rules of a definition that has been reached have no reserved symbols. -/
theorem Reached.isLabelled {d : Definition V E} (hd : d.Reached) :
  ∀ p ∈ d.rules, p.IsLabelled
  := by
  intro p hp
  obtain ⟨hlhs, hrhs⟩ := List.forall_mem_cons.mp (hd.isNamed.rules p hp)
  exact ⟨hlhs.isReserved_eq, fun s hs => (hrhs s hs).isReserved_eq⟩

/-- No two rules of a definition that has been reached expand the same symbol to the same
symbols. -/
theorem Reached.pairwise_sameShape {d : Definition V E} (hd : d.Reached) :
  d.rules.Pairwise fun p p' => p.sameShape p' = false
  := by
  induction hd with
  | empty => apply List.Pairwise.nil
  | addLexRule _ _ ih => apply ih
  | addRule _ h ih =>
      obtain ⟨-, hshape, rfl⟩ := addRule_eq_ok h
      rw [List.pairwise_append]
      refine ⟨ih, List.pairwise_singleton _ _, ?_⟩
      intro p hp p' hp'
      obtain rfl := List.mem_singleton.mp hp'
      rw [Production.sameShape_comm]
      apply eq_false_of_ne_true
      apply List.any_eq_false.mp hshape p hp
  | setStart _ h ih =>
      obtain ⟨-, rfl⟩ := setStart_eq_ok h
      apply ih

/-- Changes in sequence that do not fail begin with one that does not fail. -/
theorem exists_of_foldlM_cons {α β ε : Type} {f : β → α → Except ε β} {a : α} {l : List α}
    {b b' : β} (h : (a :: l).foldlM f b = .ok b') :
  ∃ b₁, f b a = .ok b₁ ∧ l.foldlM f b₁ = .ok b'
  := by
  rw [List.foldlM_cons] at h
  cases hb : f b a with
  | error e =>
      rw [hb] at h
      cases h
  | ok b₁ =>
      rw [hb] at h
      exact ⟨b₁, rfl, h⟩

/-- Rules can be added one after the other. -/
theorem Reached.addRules {d d' : Definition V E} (hd : d.Reached)
    {rules : List (Production V)} (h : rules.foldlM Definition.addRule d = .ok d') :
  d'.Reached
  := by
  induction rules generalizing d with
  | nil =>
      cases h
      apply hd
  | cons rule rest ih =>
      obtain ⟨d₁, hrule, hrest⟩ := exists_of_foldlM_cons h
      apply ih (.addRule hd hrule) hrest

/-- What a definition is completed to. -/
theorem complete_eq_ok {d : Definition V E} {language : Language V E}
    (h : d.complete = .ok language) :
  (∀ rule ∈ d.lexRules, ∀ s ∈ rule.symbol, s.IsName) ∧ language.lexRules = d.lexRules
    ∧ language.rules = d.rules
    ∧ (d.start <|> d.rules.head?.map Production.lhs) = some language.start
  := by
  rw [complete] at h
  cases hlex : (d.lexRules.filterMap LexRule.symbol).forM Symbol.verify with
  | error e =>
      rw [hlex] at h
      cases h
  | ok u =>
      rw [hlex] at h
      cases hstart : d.start <|> d.rules.head?.map Production.lhs with
      | none =>
          simp only [hstart] at h
          cases h
      | some symbol =>
          simp only [hstart] at h
          cases h
          refine ⟨?_, rfl, rfl, rfl⟩
          intro rule hrule s hs
          apply Symbol.forM_verify_eq_ok_iff.mp hlex
          apply List.mem_filterMap.mpr ⟨rule, hrule, hs⟩

theorem rules_of_complete {d : Definition V E} {language : Language V E}
    (h : d.complete = .ok language) :
  language.rules = d.rules
  := (complete_eq_ok h).2.2.1

end Definition

/-- The rules of a definable language have no reserved symbols. -/
theorem Language.Definable.isLabelled {language : Language V E} (h : language.Definable) :
  ∀ p ∈ language.rules, p.IsLabelled
  := by
  obtain ⟨d, hd, hcomplete⟩ := h
  rw [Definition.rules_of_complete hcomplete]
  apply hd.isLabelled

/-- No two rules of a definable language expand the same symbol to the same symbols. -/
theorem Language.Definable.pairwise_sameShape {language : Language V E}
    (h : language.Definable) :
  language.rules.Pairwise fun p p' => p.sameShape p' = false
  := by
  obtain ⟨d, hd, hcomplete⟩ := h
  rw [Definition.rules_of_complete hcomplete]
  apply hd.pairwise_sameShape

/-- A language is definable if a definition of it comes of its rules, added one after the other. -/
theorem Language.definable_of_addRules {language : Language V E} {d : Definition V E}
    (hrules : language.rules.foldlM Definition.addRule .empty = .ok d)
    (hcomplete : d.complete = .ok language) :
  language.Definable
  := ⟨d, .addRules .empty hrules, hcomplete⟩

/-! ### A small language -/

/-- The language of the words that are one `a` and then some `b`. -/
def Language.small : Language ParseTree Empty where
  lexRules := []
  rules :=
    [{ lhs := .label "s", rhs := [.label "a"] },
     { lhs := .label "s", rhs := [.label "s", .label "b"] }]
  start := .label "s"

theorem Language.small_definable :
  small.Definable
  := definable_of_addRules rfl rfl

end ShiftReduce
