import ShiftReduce.Proofs.Grammar.Proper
import ShiftReduce.Proofs.Grammar.Registration

/-!
# The registry of a language stands for it

The registry of a definable language is a faithful encoding of it (`Registry.Faithful`): symbols and
rules come back from their numbers, kinds are those that the rules give, and rules are listed by
their left-hand sides in their order.  That a language is registered depends on its start symbol and
on how many symbols and rules it has, and on nothing else (`Registry.ofLanguage_faithful`).
-/

namespace ShiftReduce

/-! ### Rules by their left-hand sides -/

/-- The rules are listed in their order, after those that have been there already. -/
theorem getD_foldl_alter (rules : List (RegisteredRule × Nat))
    (m : OrderedMap UInt16 (List UInt16)) (x : UInt16) :
  ((rules.foldl
      (fun m (rule, index) => m.alter rule.lhs fun numbers =>
        numbers.getD [] ++ [RuleNumber.ofIndex index]) m).get? x).getD []
    = (m.get? x).getD []
      ++ (rules.filter fun (rule, _) => rule.lhs = x).map fun (_, index) => RuleNumber.ofIndex index
  := by
  induction rules generalizing m with
  | nil => simp
  | cons entry rest ih =>
      obtain ⟨rule, index⟩ := entry
      rw [List.foldl_cons, ih, OrderedMap.get?_alter]
      by_cases hx : rule.lhs = x
      · simp [hx]
      · simp [hx, Ne.symm hx]

theorem getD_indexRules (accept : RegisteredRule) (rules : List RegisteredRule) (x : UInt16) :
  ((indexRules accept rules).get? x).getD []
    = (if x = accept.lhs then [RuleNumber.accept] else [])
      ++ (rules.zipIdx.filter fun (rule, _) => rule.lhs = x).map
        fun (_, index) => RuleNumber.ofIndex index
  := by
  rw [indexRules, getD_foldl_alter, OrderedMap.get?_alter]
  split <;> rfl

/-! ### The registry of a language -/

variable {V E : Type}

/-- The symbols of a language in the order in which they are met, the reserved ones first. -/
def Language.mentioned (language : Language V E) : List Symbol :=
  .endOfInput :: .start :: language.rules.flatMap fun p => p.lhs :: p.rhs

namespace Registry

/-- The table of the symbols of a language. -/
def tableOf (language : Language V E) : SymbolTable :=
  Grammar.reservedSymbols.enterAll (language.rules.flatMap fun p => p.lhs :: p.rhs)

theorem toList_tableOf (language : Language V E) :
  (tableOf language).toList = language.mentioned.eraseDups
  := by
  have hreserved : Grammar.reservedSymbols.toList
      = [Symbol.endOfInput, Symbol.start].eraseDups := rfl
  apply SymbolTable.toList_enterAll hreserved

theorem size_tableOf (language : Language V E) :
  (tableOf language).size = language.mentioned.eraseDups.length
  := by
  rw [← toList_tableOf, SymbolTable.toList, Array.length_toList, SymbolTable.size]

/-- The symbols that have numbers are those of the language. -/
theorem exists_id?_iff {language : Language V E} {s : Symbol} :
  (∃ i, (tableOf language).id? s = some i) ↔ s ∈ language.mentioned
  := by rw [← SymbolTable.mem_toList_iff, toList_tableOf, List.mem_eraseDups]

theorem mem_mentioned_of_mem {language : Language V E} {p : Production V}
    (hp : p ∈ language.rules) {s : Symbol} (hs : s ∈ p.lhs :: p.rhs) :
  s ∈ language.mentioned
  := List.mem_cons_of_mem _ (List.mem_cons_of_mem _ (List.mem_flatMap.mpr ⟨p, hp, hs⟩))

theorem start_mem_mentioned {language : Language V E}
    (h : ∃ p ∈ language.rules, p.lhs = language.start) :
  language.start ∈ language.mentioned
  := by
  obtain ⟨p, hp, hlhs⟩ := h
  apply mem_mentioned_of_mem hp (hlhs ▸ List.mem_cons_self)

/-- The registry of a language, if there are numbers enough. -/
def encoding (language : Language V E) : Registry :=
  let table := tableOf language
  let rules := language.rules.map (Registration.registered table)
  let accept : RegisteredRule := { lhs := 1, rhs := [table.number language.start] }
  { symbols := table
    kinds := table.symbols.map (SymbolClasses.ofRules language.rules).kindOf
    rules := rules.toArray
    accept
    rulesByLhs := indexRules accept rules }

/-- All rules of a language are entered, and then the start symbol has its number already. -/
theorem run_enterRules (language : Language V E) :
  (language.rules.mapM (Registration.enterRule (.ofRules language.rules))).run .reserved
    = if (tableOf language).size ≤ UInt16.size then
        .ok (language.rules.map (Registration.registered (tableOf language)),
          .noted (.ofRules language.rules) (tableOf language))
      else .error (.grammar .tooManySymbols)
  := by
  have henters : ∀ p ∈ language.rules, Registration.Enters (.ofRules language.rules)
      (Registration.enterRule (.ofRules language.rules) p) (p.lhs :: p.rhs)
      (Registration.registered · p) := by
    intro p hp
    apply Registration.enters_enterRule
    intro s hs
    rw [SymbolClasses.kind?_ofRules hp hs]
    nofun
  rw [Registration.reserved_eq_noted]
  apply (Registration.Enters.mapM henters).run _ (SymbolTable.Extends.refl _) (by decide)

theorem run_enter_start {language : Language V E}
    (h : ∃ p ∈ language.rules, p.lhs = language.start)
    (hsize : (tableOf language).size ≤ UInt16.size) :
  (Registration.enter (.ofRules language.rules) language.start).run
      (.noted (.ofRules language.rules) (tableOf language))
    = .ok ((tableOf language).number language.start,
        .noted (.ofRules language.rules) (tableOf language))
  := by
  obtain ⟨i, hi⟩ := exists_id?_iff.mpr (start_mem_mentioned h)
  rw [Registration.run_enter_of_some hi (Nat.lt_of_lt_of_le (SymbolTable.lt_size hi) hsize),
    SymbolTable.number_of_id? hi]

/-- A language is registered if some rule expands the start symbol and there are not too many
symbols and rules. -/
theorem ofLanguage_eq (language : Language V E) :
  ofLanguage language =
    if ∃ p ∈ language.rules, p.lhs = language.start then
      if language.mentioned.eraseDups.length > 65536 then .error (.grammar .tooManySymbols)
      else if language.rules.length ≥ 65534 then .error (.grammar .tooManyRules)
      else .ok (encoding language)
    else .error (.grammar (.startNotNonterminal language.start))
  := by
  have hexpands : (SymbolClasses.ofRules language.rules).nonterminals.contains language.start = true
      ↔ ∃ p ∈ language.rules, p.lhs = language.start := SymbolClasses.contains_nonterminals_iff
  rw [← size_tableOf, ofLanguage]
  by_cases h : ∃ p ∈ language.rules, p.lhs = language.start
  · rw [hexpands.mpr h, if_pos h, run_enterRules]
    by_cases hsize : (tableOf language).size > 65536
    · rw [if_pos hsize, if_neg (Nat.not_le_of_gt hsize)]
      rfl
    · have hle : (tableOf language).size ≤ UInt16.size := Nat.le_of_not_gt hsize
      have hstart := run_enter_start h hle
      rw [if_neg hsize, if_pos hle]
      by_cases hrules : language.rules.length ≥ Grammar.ruleLimit
      · simp only [bind, Except.bind, List.length_map, hrules, ↓reduceIte]
        exact (if_pos hrules).symm
      · simp only [bind, Except.bind, List.length_map, hrules, ↓reduceIte, hstart]
        exact (if_neg hrules).symm
  · rw [eq_false_of_ne_true (mt hexpands.mp h), if_neg h]
    rfl

/-! ### What the numbers stand for -/

theorem toNat_ofNat_of_lt_size {i n : Nat} (h : i < n) (hn : n ≤ UInt16.size) :
  (UInt16.ofNat i).toNat = i
  := UInt16.toNat_ofNat_of_lt (Nat.lt_of_lt_of_le h hn)

/-- Symbols and numbers belong together in one way. -/
theorem symbolNumber?_eq_some_iff {r : Registry} (h : r.symbolCount ≤ UInt16.size) {s : Symbol}
    {x : UInt16} :
  r.symbolNumber? s = some x ↔ r.symbol? x = some s
  := by
  rw [symbolNumber?, symbol?, ← SymbolTable.id?_eq_some_iff, Option.map_eq_some_iff]
  constructor
  · rintro ⟨i, hi, rfl⟩
    rw [toNat_ofNat_of_lt_size (SymbolTable.lt_size hi) h]
    apply hi
  · intro hx
    exact ⟨x.toNat, hx, UInt16.ofNat_toNat⟩

theorem exists_symbol?_iff {r : Registry} {x : UInt16} :
  (∃ s, r.symbol? x = some s) ↔ x.toNat < r.symbolCount
  := by
  rw [symbol?, SymbolTable.symbol?, symbolCount, SymbolTable.size, ← Option.isSome_iff_exists]
  simp

/-- The rule at a place has the number after that place. -/
theorem index?_ofIndex {index : Nat} (h : index < Grammar.ruleLimit) :
  RuleNumber.index? (RuleNumber.ofIndex index) = some index
  := by
  have hlt : index < UInt16.size := Nat.lt_trans h (by decide)
  have hnat : (UInt16.ofNat index).toNat = index := toNat_ofNat_of_lt_size hlt (Nat.le_refl _)
  have hne : RuleNumber.ofIndex index ≠ RuleNumber.accept := by
    intro heq
    have hzero : (index + 1) % UInt16.size = 0 := by
      rw [← hnat]
      exact congrArg UInt16.toNat heq
    have hsucc : index + 1 < UInt16.size := Nat.lt_trans (Nat.succ_lt_succ h) (by decide)
    rw [Nat.mod_eq_of_lt hsucc] at hzero
    cases hzero
  rw [RuleNumber.index?, if_neg hne, RuleNumber.ofIndex, UInt16.add_sub_cancel, hnat]

theorem mapM_map_of_forall {α β : Type} {f : β → Option α} {g : α → β} {l : List α}
    (h : ∀ a ∈ l, f (g a) = some a) :
  (l.map g).mapM f = some l
  := by
  induction l with
  | nil => rfl
  | cons a rest ih =>
      obtain ⟨ha, hrest⟩ := List.forall_mem_cons.mp h
      rw [List.map_cons, List.mapM_cons, ha, ih hrest]
      rfl

/-- The registry stands for the language.  The symbols have their numbers in the order in which they
are met, and each number below that of all symbols belongs to one of them.  The rule with the number
of a place is about the symbols of the rule at that place.  The nonterminals are the reserved start
symbol and the left-hand sides of rules, and the rules are listed by these in their order. -/
structure Faithful (r : Registry) (language : Language V E) : Prop where
  symbols : r.symbols.toList = language.mentioned.eraseDups
  number_place : ∀ i s, language.mentioned.eraseDups[i]? = some s →
    r.symbolNumber? s = some (.ofNat i) ∧ (UInt16.ofNat i).toNat = i
  number_iff : ∀ s x, r.symbolNumber? s = some x ↔ r.symbol? x = some s
  symbol_iff : ∀ x, (∃ s, r.symbol? x = some s) ↔ x.toNat < r.symbolCount
  numbered_iff : ∀ s, (∃ x, r.symbolNumber? s = some x) ↔ s ∈ language.mentioned
  ruleCount : r.rules.size = language.rules.length
  rule : ∀ index p, language.rules[index]? = some p →
    (r.rule? (RuleNumber.ofIndex index)).bind r.decode? = some (p.lhs, p.rhs)
      ∧ RuleNumber.index? (RuleNumber.ofIndex index) = some index
  accept : (r.rule? RuleNumber.accept).bind r.decode? = some (.start, [language.start])
  kind : ∀ s x, r.symbolNumber? s = some x →
    r.kind? x = some
      (if s = .start ∨ ∃ p ∈ language.rules, p.lhs = s then .nonterminal else .terminal)
  rulesFor : ∀ s x, r.symbolNumber? s = some x →
    r.rulesFor x = (if s = .start then [RuleNumber.accept] else [])
      ++ (language.rules.zipIdx.filter fun (p, _) => p.lhs = s).map
        fun (_, index) => RuleNumber.ofIndex index

section

variable {language : Language V E}

/-- The symbols of a language are those that have numbers. -/
theorem exists_symbolNumber?_iff {s : Symbol} :
  (∃ x, (encoding language).symbolNumber? s = some x) ↔ s ∈ language.mentioned
  := by
  rw [← exists_id?_iff, symbolNumber?]
  simp only [Option.map_eq_some_iff]
  constructor
  · rintro ⟨_, i, hi, -⟩
    exact ⟨i, hi⟩
  · rintro ⟨i, hi⟩
    exact ⟨_, i, hi, rfl⟩

theorem symbolNumber?_of_mem {s : Symbol} (hs : s ∈ language.mentioned) :
  (encoding language).symbolNumber? s = some ((tableOf language).number s)
  := by
  obtain ⟨i, hi⟩ := exists_id?_iff.mpr hs
  rw [SymbolTable.number_of_id? hi]
  exact congrArg (Option.map UInt16.ofNat) hi

/-- The symbols of a rule come back from its numbers. -/
theorem decode?_registered (hsize : (tableOf language).size ≤ UInt16.size) {lhs : Symbol}
    {rhs : List Symbol} (h : ∀ s ∈ lhs :: rhs, s ∈ language.mentioned) :
  (encoding language).decode?
      ⟨(tableOf language).number lhs, rhs.map (tableOf language).number⟩
    = some (lhs, rhs)
  := by
  have hcount : (encoding language).symbolCount ≤ UInt16.size := hsize
  have hsymbol : ∀ s ∈ lhs :: rhs,
      (encoding language).symbol? ((tableOf language).number s) = some s :=
    fun s hs => (symbolNumber?_eq_some_iff hcount).mp (symbolNumber?_of_mem (h s hs))
  obtain ⟨hlhs, hrhs⟩ := List.forall_mem_cons.mp hsymbol
  simp only [decode?, hlhs, mapM_map_of_forall hrhs]
  rfl

/-- The kinds of the symbols of a language. -/
theorem kindOf_ofRules (hl : language.Definable) {s : Symbol} (hs : s ∈ language.mentioned) :
  (SymbolClasses.ofRules language.rules).kindOf s
    = if s = .start ∨ ∃ p ∈ language.rules, p.lhs = s then .nonterminal else .terminal
  := by
  cases s with
  | endOfInput =>
      rw [if_neg]
      · rfl
      · rintro (hstart | ⟨p, hp, hlhs⟩)
        · cases hstart
        · have hlabel := (hl.isLabelled p hp).lhs
          rw [hlhs] at hlabel
          cases hlabel
  | start =>
      rw [if_pos (.inl rfl)]
      rfl
  | label name =>
      have hrule : ∃ p ∈ language.rules, .label name ∈ p.lhs :: p.rhs := by
        simpa [Language.mentioned, List.mem_flatMap] using hs
      obtain ⟨p, hp, hs⟩ := hrule
      rw [SymbolClasses.kindOf_label, SymbolClasses.kind?_ofRules hp hs, Option.getD_some]
      simp

/-- The symbol with a number has its kind in the same place. -/
theorem kind?_of_symbol? {s : Symbol} {x : UInt16} (h : (encoding language).symbol? x = some s) :
  (encoding language).kind? x = some ((SymbolClasses.ofRules language.rules).kindOf s)
  := by
  have hsymbol : (tableOf language).symbols[x.toNat]? = some s := h
  rw [kind?, encoding, Array.getElem?_map, hsymbol, Option.map_some]

/-- Different symbols have different numbers. -/
theorem number_eq_number_iff (hsize : (tableOf language).size ≤ UInt16.size) {s s' : Symbol}
    (hs : s ∈ language.mentioned) (hs' : s' ∈ language.mentioned) :
  (tableOf language).number s' = (tableOf language).number s ↔ s' = s
  := by
  have hcount : (encoding language).symbolCount ≤ UInt16.size := hsize
  constructor
  · intro h
    have hsymbol := (symbolNumber?_eq_some_iff hcount).mp (symbolNumber?_of_mem hs)
    have hsymbol' := (symbolNumber?_eq_some_iff hcount).mp (symbolNumber?_of_mem hs')
    rw [h, hsymbol] at hsymbol'
    apply (Option.some.inj hsymbol').symm
  · apply congrArg

theorem number_start :
  (tableOf language).number .start = 1
  := by
  have hstart : (tableOf language).id? .start = some startId :=
    SymbolTable.extends_enterAll _ _ rfl
  rw [SymbolTable.number_of_id? hstart]
  rfl

/-- Rules are listed by the numbers of their left-hand sides. -/
theorem rulesFor_number (hsize : (tableOf language).size ≤ UInt16.size) {s : Symbol}
    (hs : s ∈ language.mentioned) :
  (encoding language).rulesFor ((tableOf language).number s)
    = (if s = .start then [RuleNumber.accept] else [])
      ++ (language.rules.zipIdx.filter fun (p, _) => p.lhs = s).map
        fun (_, index) => RuleNumber.ofIndex index
  := by
  have hstart : (tableOf language).number s = 1 ↔ s = .start := by
    have hmem : Symbol.start ∈ language.mentioned := List.mem_cons_of_mem _ List.mem_cons_self
    rw [← number_eq_number_iff hsize hmem hs, number_start]
  rw [rulesFor, encoding, getD_indexRules, List.zipIdx_map, List.filter_map, List.map_map]
  congr 1
  · simp only [hstart]
  · congr 1
    apply List.filter_congr
    rintro ⟨p, index⟩ hmem
    have hp := mem_mentioned_of_mem (List.fst_mem_of_mem_zipIdx hmem) List.mem_cons_self
    apply decide_eq_decide.mpr (number_eq_number_iff hsize hs hp)

/-- The registry of a definable language stands for it, if there are numbers enough. -/
theorem faithful_encoding (hl : language.Definable)
    (hstart : ∃ p ∈ language.rules, p.lhs = language.start)
    (hsize : (tableOf language).size ≤ UInt16.size)
    (hrules : language.rules.length < Grammar.ruleLimit) :
  (encoding language).Faithful language
  := by
  have hcount : (encoding language).symbolCount ≤ UInt16.size := hsize
  have hnumber {s : Symbol} {x : UInt16} (h : (encoding language).symbolNumber? s = some x) :
      s ∈ language.mentioned ∧ x = (tableOf language).number s := by
    have hs := exists_symbolNumber?_iff.mp ⟨x, h⟩
    rw [symbolNumber?_of_mem hs] at h
    exact ⟨hs, (Option.some.inj h).symm⟩
  constructor
  · apply toList_tableOf
  · intro i s hs
    rw [← toList_tableOf, SymbolTable.toList, Array.getElem?_toList] at hs
    have hi : (tableOf language).id? s = some i := SymbolTable.id?_eq_some_iff.mpr hs
    exact ⟨congrArg (Option.map UInt16.ofNat) hi,
      toNat_ofNat_of_lt_size (SymbolTable.lt_size hi) hsize⟩
  · intro s x
    apply symbolNumber?_eq_some_iff hcount
  · intro x
    apply exists_symbol?_iff
  · intro s
    apply exists_symbolNumber?_iff
  · rw [encoding, List.size_toArray, List.length_map]
  · intro index p hp
    obtain ⟨hlt, -⟩ := List.getElem?_eq_some_iff.mp hp
    have hindex := index?_ofIndex (Nat.lt_trans hlt hrules)
    refine ⟨?_, hindex⟩
    have hrule : (encoding language).rule? (RuleNumber.ofIndex index)
        = some (Registration.registered (tableOf language) p) := by
      rw [rule?, hindex]
      change (language.rules.map (Registration.registered (tableOf language))).toArray[index]? = _
      rw [List.getElem?_toArray, List.getElem?_map, hp, Option.map_some]
    rw [hrule, Option.bind_some]
    apply decode?_registered hsize fun s => mem_mentioned_of_mem (List.mem_of_getElem? hp)
  · have haccept : (encoding language).rule? RuleNumber.accept = some
        ⟨(tableOf language).number .start, [language.start].map (tableOf language).number⟩ := by
      rw [number_start]
      rfl
    rw [haccept, Option.bind_some]
    apply decode?_registered hsize
    have hmem := start_mem_mentioned hstart
    simpa [Language.mentioned] using hmem
  · intro s x hx
    obtain ⟨hs, -⟩ := hnumber hx
    rw [kind?_of_symbol? ((symbolNumber?_eq_some_iff hcount).mp hx), kindOf_ofRules hl hs]
  · intro s x hx
    obtain ⟨hs, rfl⟩ := hnumber hx
    apply rulesFor_number hsize hs

/-- A definable language is registered unless no rule expands the start symbol, or else there are
more than 65536 symbols, the two reserved ones included, or else at least 65534 rules.  No symbol
that is entered lacks a kind, and the registry stands for the language. -/
theorem ofLanguage_faithful (hl : language.Definable) :
  (ofLanguage language = .error (.grammar (.startNotNonterminal language.start))
      ↔ ¬ ∃ p ∈ language.rules, p.lhs = language.start)
    ∧ (ofLanguage language = .error (.grammar .tooManySymbols)
      ↔ (∃ p ∈ language.rules, p.lhs = language.start)
        ∧ language.mentioned.eraseDups.length > 65536)
    ∧ (ofLanguage language = .error (.grammar .tooManyRules)
      ↔ (∃ p ∈ language.rules, p.lhs = language.start)
        ∧ language.mentioned.eraseDups.length ≤ 65536 ∧ language.rules.length ≥ 65534)
    ∧ ((∃ r, ofLanguage language = .ok r)
      ↔ (∃ p ∈ language.rules, p.lhs = language.start)
        ∧ language.mentioned.eraseDups.length ≤ 65536 ∧ language.rules.length < 65534)
    ∧ (∀ s, ofLanguage language ≠ .error (.unclassified s))
    ∧ ∀ r, ofLanguage language = .ok r → r.Faithful language
  := by
  rw [ofLanguage_eq]
  by_cases hstart : ∃ p ∈ language.rules, p.lhs = language.start
  · by_cases hsize : language.mentioned.eraseDups.length > 65536
    · simp [hstart, hsize]
    · have hle := Nat.le_of_not_gt hsize
      by_cases hrules : language.rules.length ≥ 65534
      · simp [hstart, hsize, hrules, hle]
      · have hlt := Nat.lt_of_not_ge hrules
        have hfits : (tableOf language).size ≤ UInt16.size := by rwa [size_tableOf]
        simp [hstart, hsize, hrules, hle, hlt, faithful_encoding hl hstart hfits hlt]
  · simp [hstart]

/-- The symbols of the small language in their order, and its two rules, which are those of `s`. -/
theorem ofLanguage_faithful_small :
  ∃ r, ofLanguage Language.small = .ok r ∧ r.Faithful Language.small
    ∧ r.symbols.toList = [.endOfInput, .start, .label "s", .label "a", .label "b"]
    ∧ r.symbolNumber? (.label "s") = some 2 ∧ r.rulesFor 2 = [1, 2]
  := by
  obtain ⟨-, -, -, hregistered, -, hfaithful⟩ := ofLanguage_faithful Language.small_definable
  obtain ⟨r, hr⟩ := hregistered.mpr (by decide)
  have hr' := hfaithful r hr
  obtain ⟨hnumber, -⟩ := hr'.number_place 2 (.label "s") (by decide)
  exact ⟨r, hr, hr', hr'.symbols, hnumber, hr'.rulesFor _ _ hnumber⟩

end

end Registry

end ShiftReduce
