import Mathlib.Data.List.Induction
import ShiftReduce.Proofs.Lexer.Exclusivity

/-!
# Precedence of rules

Of the matches at the start of a text the one with the highest priority is taken, of several
such the longest one, and of several such again the one by the rule in the first slot.  The
rules of a lexer are in the first slots, in their order.  A rule that is added goes into the
slot emptied last, which is the one of the rule that it replaces if there is such a rule, and
only if no slot is empty into a new one after all others.

So rules that have been added come in the order in which they were added as long as none of them
has filled an empty slot.  In general they do not (`Lexer.later_rule_first`).
-/

/-! ### Places in lists -/

namespace List

variable {α : Type}

/-- A list with one more element has it in the last place and the others where they were. -/
theorem getElem?_append_singleton_iff {l : List α} {last x : α} {k : Nat} :
  (l ++ [last])[k]? = some x ↔ l[k]? = some x ∨ k = l.length ∧ last = x
  := by
  rcases Nat.lt_trichotomy k l.length with hlt | rfl | hgt
  · simp [getElem?_append_left hlt, Nat.ne_of_lt hlt]
  · simp
  · have hne := Nat.ne_of_gt hgt
    have hnone : (l ++ [last])[k]? = none := by
      apply getElem?_eq_none
      rw [length_append, length_singleton]
      apply hgt
    simp [hnone, hne, Nat.le_of_lt hgt]

/-- Of two places in a list the later one comes after what stands between them. -/
theorem exists_between_of_append_eq {earlier earlier' later later' : List α} {x x' : α}
    (heq : earlier' ++ x' :: later' = earlier ++ x :: later)
    (hlt : earlier.length < earlier'.length) :
  ∃ between, earlier' = earlier ++ x :: between ∧ later = between ++ x' :: later'
  := by
  rcases append_eq_append_iff.mp heq with ⟨rest, rfl, -⟩ | ⟨rest, rfl, hrest⟩
  · rw [length_append] at hlt
    omega
  · cases rest with
    | nil => simp at hlt
    | cons first between =>
        obtain ⟨rfl, rfl⟩ := cons.inj hrest
        exact ⟨between, rfl, rfl⟩

end List

namespace ShiftReduce

/-! ### Slots after putting in and taking out -/

namespace Slots

variable {α : Type} {s : Slots α} {occupants : List (Occupant α)}

/-- The slot that is filled next: the one emptied last, or else a new one after all others. -/
def vacancy (s : Slots α) : Nat :=
  s.free.headD s.slots.length

/-- The slot filled next has been empty. -/
theorem Holds.not_occupied_vacancy (h : s.Holds occupants) (occupant : Occupant α) :
  s.slots[s.vacancy]? ≠ some (some occupant)
  := by
  rw [vacancy]
  cases hfree : s.free with
  | nil => simp
  | cons place free => simp [h.free place (hfree ▸ List.mem_cons_self)]

/-- Putting in a value occupies that slot and no other one. -/
theorem Holds.getElem?_fill (h : s.Holds occupants) {label : String} {value : α} {k : Nat}
    {occupant : Occupant α} :
  (s.fill label value).slots[k]? = some (some occupant) ↔
    s.slots[k]? = some (some occupant) ∨ k = s.vacancy ∧ occupant = ⟨some label, value⟩
  := by
  have hempty := h.not_occupied_vacancy occupant
  rw [vacancy] at *
  rw [Slots.fill]
  cases hfree : s.free with
  | nil =>
      simp only [List.headD_nil, List.getElem?_append]
      split
      · rename_i hlt
        simp [Nat.ne_of_lt hlt]
      · rename_i hle
        rw [List.getElem?_eq_none (Nat.le_of_not_lt hle), List.getElem?_singleton]
        have hiff : k - s.slots.length = 0 ↔ k = s.slots.length := by omega
        simp [hiff, eq_comm]
  | cons place free =>
      obtain ⟨hlt, -⟩ := List.getElem?_eq_some_iff.mp (h.free place (hfree ▸ List.mem_cons_self))
      rw [hfree] at hempty
      simp only [List.headD_cons, List.getElem?_set] at *
      by_cases hk : place = k
      · subst hk
        rw [if_pos rfl, if_pos hlt, or_iff_right hempty, Option.some_inj, Option.some_inj, eq_comm]
        simp
      · simp [hk, Ne.symm hk]

/-- Taking out the value under a label vacates its slot and no other one. -/
theorem Holds.getElem?_erase (h : s.Holds occupants) {label : String} {k : Nat}
    {occupant : Occupant α} :
  (s.erase label).slots[k]? = some (some occupant) ↔
    s.slots[k]? = some (some occupant) ∧ occupant.label ≠ some label
  := by
  have hlabel : (s.erase label).slots[k]? = some (some occupant) →
      occupant.label ≠ some label := by
    intro hk
    have hmem : occupant ∈ (s.erase label).slots.filterMap id := by
      simpa using List.mem_of_getElem? hk
    have hwithout := (h.erase label).perm.mem_iff.mp hmem
    simpa [without] using (List.mem_filter.mp hwithout).2
  cases hplace : s.place? label with
  | none =>
      have hsame : s.erase label = s := by rw [Slots.erase, hplace]
      rw [hsame] at hlabel ⊢
      exact ⟨fun hk => ⟨hk, hlabel hk⟩, And.left⟩
  | some place =>
      obtain ⟨other, hother, hother'⟩ := getElem?_of_place? hplace
      obtain ⟨hlt, -⟩ := List.getElem?_eq_some_iff.mp hother
      have hslots : (s.erase label).slots = s.slots.set place none := by
        rw [Slots.erase, hplace]
      rw [hslots] at hlabel ⊢
      by_cases hk : place = k
      · subst hk
        rw [List.getElem?_set_self hlt, hother]
        constructor
        · intro hnone
          cases hnone
        · rintro ⟨hsame, hne⟩
          cases hsame
          cases hne hother'
      · rw [List.getElem?_set_ne hk] at hlabel ⊢
        exact ⟨fun hk => ⟨hk, hlabel hk⟩, And.left⟩

/-- Putting in a value under a label leaves the values under other labels where they are. -/
theorem Holds.getElem?_insert (h : s.Holds occupants) {label : String} {value : α} {k : Nat}
    {occupant : Occupant α} :
  (s.insert label value).slots[k]? = some (some occupant) ↔
    s.slots[k]? = some (some occupant) ∧ occupant.label ≠ some label ∨
      k = (s.erase label).vacancy ∧ occupant = ⟨some label, value⟩
  := by rw [Slots.insert, (h.erase label).getElem?_fill, h.getElem?_erase]

end Slots

theorem label_ne_iff {given : Option String} {label : String} :
  given ≠ some label ↔ ∀ other ∈ given, ¬ label = other
  := by cases given <;> simp [eq_comm]

section Library

variable [PatternLibrary] {V E : Type}

/-! ### The preferred one of several matches -/

namespace Match

/-- A match in one place is preferred to a match in another place, or is the same. -/
def Precedes (k : Nat) (m : Match V E) (k' : Nat) (m' : Match V E) : Prop :=
  m'.rule.priority < m.rule.priority ∨ m'.rule.priority = m.rule.priority ∧
    (m'.length < m.length ∨ m'.length = m.length ∧ k ≤ k')

/-- The match in a place of a list is preferred to those in all other places. -/
def Leads (l : List (Option (Match V E))) (k : Nat) (m : Match V E) : Prop :=
  l[k]? = some (some m) ∧ ∀ k' m', l[k']? = some (some m') → Precedes k m k' m'

theorem beats_iff {m m' : Match V E} :
  m.beats m' = true ↔ m'.rule.priority < m.rule.priority ∨
    m'.rule.priority = m.rule.priority ∧ m'.length < m.length
  := by simp [beats]

/-- At most one match is preferred to all others. -/
theorem Leads.unique {l : List (Option (Match V E))} {k k' : Nat} {m m' : Match V E}
    (h : Leads l k m) (h' : Leads l k' m') :
  m = m'
  := by
  have hk : k = k' := by
    have hprecedes := h.2 k' m' h'.1
    have hprecedes' := h'.2 k m h.1
    rw [Precedes] at hprecedes hprecedes'
    omega
  have hm := h.1
  rw [hk, h'.1] at hm
  simpa using hm.symm

/-- In one more place without a match nothing is preferred. -/
theorem Leads.push_none {l : List (Option (Match V E))} {k : Nat} {m : Match V E}
    (h : Leads l k m) :
  Leads (l ++ [none]) k m
  := by
  use List.getElem?_append_singleton_iff.mpr (.inl h.1)
  intro k' m' hk'
  rcases List.getElem?_append_singleton_iff.mp hk' with hk' | ⟨-, hm'⟩
  · apply h.2 k' m' hk'
  · cases hm'

/-- One more match that does not beat the best one is not preferred. -/
theorem Leads.push_of_not_beats {l : List (Option (Match V E))} {k : Nat} {m last : Match V E}
    (h : Leads l k m) (hlast : last.beats m ≠ true) :
  Leads (l ++ [some last]) k m
  := by
  rw [ne_eq, beats_iff] at hlast
  obtain ⟨hlt, -⟩ := List.getElem?_eq_some_iff.mp h.1
  use List.getElem?_append_singleton_iff.mpr (.inl h.1)
  intro k' m' hk'
  rcases List.getElem?_append_singleton_iff.mp hk' with hk' | ⟨rfl, hm'⟩
  · apply h.2 k' m' hk'
  · cases hm'
    rw [Precedes]
    omega

/-- One more match is preferred to all others if it beats the best one. -/
theorem Leads.push_of_beats {l : List (Option (Match V E))} {k : Nat} {m last : Match V E}
    (h : Leads l k m) (hlast : last.beats m = true) :
  Leads (l ++ [some last]) l.length last
  := by
  rw [beats_iff] at hlast
  use List.getElem?_append_singleton_iff.mpr (.inr ⟨rfl, rfl⟩)
  intro k' m' hk'
  rw [Precedes]
  rcases List.getElem?_append_singleton_iff.mp hk' with hk' | ⟨rfl, hm'⟩
  · have hprecedes := h.2 k' m' hk'
    rw [Precedes] at hprecedes
    omega
  · cases hm'
    omega

/-- The first match of all is preferred. -/
theorem leads_push_of_none {l : List (Option (Match V E))} {last : Match V E}
    (h : ∀ (k : Nat) (m : Match V E), l[k]? ≠ some (some m)) :
  Leads (l ++ [some last]) l.length last
  := by
  use List.getElem?_append_singleton_iff.mpr (.inr ⟨rfl, rfl⟩)
  intro k' m' hk'
  rcases List.getElem?_append_singleton_iff.mp hk' with hk' | ⟨rfl, hm'⟩
  · cases h k' m' hk'
  · cases hm'
    exact .inr ⟨rfl, .inr ⟨rfl, Nat.le_refl _⟩⟩

/-- One more match is compared with the best one of the others. -/
theorem best?_append_singleton (l : List (Option (Match V E))) (last : Option (Match V E)) :
  best? ((l ++ [last]).filterMap id) = last.elim (best? (l.filterMap id))
    (prefer (best? (l.filterMap id)))
  := by cases last <;> simp [best?, List.foldl_append]

/-- Without a best match there are none, and a best match is preferred to all others. -/
theorem best?_spec (l : List (Option (Match V E))) :
  (best? (l.filterMap id) = none → ∀ (k : Nat) (m : Match V E), l[k]? ≠ some (some m)) ∧
    ∀ m, best? (l.filterMap id) = some m → ∃ k, Leads l k m
  := by
  induction l using List.reverseRecOn with
  | nil => simp [best?]
  | append_singleton l last ih =>
      obtain ⟨hnone, hsome⟩ := ih
      rw [best?_append_singleton]
      cases last with
      | none =>
          constructor
          · intro hbest k m hk
            rcases List.getElem?_append_singleton_iff.mp hk with hk | ⟨-, hm⟩
            · apply hnone hbest k m hk
            · cases hm
          · intro m hbest
            obtain ⟨k, hleads⟩ := hsome m hbest
            exact ⟨k, hleads.push_none⟩
      | some last =>
          cases hbest : best? (l.filterMap id) with
          | none =>
              constructor
              · intro h
                cases h
              · rintro _ ⟨⟩
                exact ⟨_, leads_push_of_none (hnone hbest)⟩
          | some former =>
              obtain ⟨k, hleads⟩ := hsome former hbest
              rw [Option.elim_some, prefer.eq_2]
              constructor
              · intro h
                split at h <;> cases h
              · intro m h
                split at h
                · rename_i hbeats
                  cases h
                  exact ⟨_, hleads.push_of_beats hbeats⟩
                · rename_i hbeats
                  cases h
                  exact ⟨k, hleads.push_of_not_beats hbeats⟩

/-- The best match is the one that is preferred to all others. -/
theorem best?_eq_some_iff {l : List (Option (Match V E))} {m : Match V E} :
  best? (l.filterMap id) = some m ↔ ∃ k, Leads l k m
  := by
  obtain ⟨hnone, hsome⟩ := best?_spec l
  constructor
  · apply hsome
  · rintro ⟨k, hleads⟩
    cases hbest : best? (l.filterMap id) with
    | none => cases hnone hbest k m hleads.1
    | some m' =>
        obtain ⟨k', hleads'⟩ := hsome m' hbest
        rw [hleads.unique hleads']

theorem best?_eq_none_iff {l : List (Option (Match V E))} :
  best? (l.filterMap id) = none ↔ ∀ (k : Nat) (m : Match V E), l[k]? ≠ some (some m)
  := by
  constructor
  · apply (best?_spec l).1
  · intro hall
    cases hbest : best? (l.filterMap id) with
    | none => rfl
    | some m =>
        obtain ⟨k, hleads⟩ := best?_eq_some_iff.mp hbest
        cases hall k m hleads.1

end Match

namespace Tokenization

/-! ### The match that is taken -/

/-- The rule in a slot is visible and has a match at the start of a text. -/
def Offers (t : Tokenization V E) (text : List Char) (k : Nat) (m : Match V E) : Prop :=
  ∃ occupant, t.rules.slots[k]? = some (some occupant) ∧
    t.isVisible occupant.value.toLexRule = true ∧ occupant.value.match? text = some m

/-- The match by the rule in a slot has the highest priority of all matches at the start of a
text and the greatest length of those, and no earlier slot has another such match. -/
structure Selects (t : Tokenization V E) (text : List Char) (k : Nat) (m : Match V E) : Prop where
  offers : t.Offers text k m
  priority : ∀ {k' m'}, t.Offers text k' m' → m'.rule.priority ≤ m.rule.priority
  length : ∀ {k' m'}, t.Offers text k' m' → m'.rule.priority = m.rule.priority →
    m'.length ≤ m.length
  first : ∀ {k' m'}, t.Offers text k' m' → m'.rule.priority = m.rule.priority →
    m'.length = m.length → k ≤ k'

/-- The match that a slot has at the start of a text. -/
def offer? (t : Tokenization V E) (text : List Char) (slot : Option (Occupant (CompiledRule V E))) :
    Option (Match V E) :=
  slot.bind fun occupant =>
    if t.isVisible occupant.value.toLexRule then occupant.value.match? text else none

/-- The matches in the order of the slots. -/
theorem match?_eq_best? (t : Tokenization V E) (text : List Char) :
  t.match? text = Match.best? ((t.rules.slots.map (t.offer? text)).filterMap id)
  := by
  rw [match?, visibleRules, Slots.values, List.filterMap_map, ← List.filterMap_eq_filter,
    List.filterMap_filterMap, List.filterMap_filterMap]
  congr 1
  apply List.filterMap_congr
  intro slot _
  cases slot with
  | none => rfl
  | some occupant =>
      simp only [Option.map_some, Option.bind_some, Function.comp_apply, id_eq, offer?,
        Option.guard_apply]
      split <;> rfl

theorem getElem?_map_offer? {t : Tokenization V E} {text : List Char} {k : Nat} {m : Match V E} :
  (t.rules.slots.map (t.offer? text))[k]? = some (some m) ↔ t.Offers text k m
  := by
  rw [List.getElem?_map, Option.map_eq_some_iff]
  constructor
  · rintro ⟨slot, hslot, hoffer⟩
    obtain ⟨occupant, rfl, hmatch⟩ := Option.bind_eq_some_iff.mp hoffer
    rw [Option.ite_none_right_eq_some] at hmatch
    exact ⟨occupant, hslot, hmatch⟩
  · rintro ⟨occupant, hslot, hvisible, hmatch⟩
    use some occupant, hslot
    rw [offer?, Option.bind_some, if_pos hvisible, hmatch]

/-- The match that is taken is the one that is selected. -/
theorem match?_eq_some_iff {t : Tokenization V E} {text : List Char} {m : Match V E} :
  t.match? text = some m ↔ ∃ k, t.Selects text k m
  := by
  rw [match?_eq_best?, Match.best?_eq_some_iff]
  apply exists_congr
  intro k
  rw [Match.Leads, getElem?_map_offer?]
  simp only [getElem?_map_offer?, Match.Precedes]
  constructor
  · rintro ⟨hoffers, hall⟩
    use hoffers
    · intro k' m' h
      have hcases := hall k' m' h
      omega
    · intro k' m' h hpriority
      have hcases := hall k' m' h
      omega
    · intro k' m' h hpriority hlength
      have hcases := hall k' m' h
      omega
  · intro h
    use h.offers
    intro k' m' h'
    have hpriority := h.priority h'
    have hlength := h.length h'
    have hfirst := h.first h'
    omega

theorem match?_eq_none_iff {t : Tokenization V E} {text : List Char} :
  t.match? text = none ↔ ∀ k m, ¬ t.Offers text k m
  := by
  rw [match?_eq_best?, Match.best?_eq_none_iff]
  simp only [ne_eq, getElem?_map_offer?]

end Tokenization

/-! ### Slots after some requests -/

/-- A request takes out the rule under a label. -/
def Request.vacates (label : String) : Request V E → Bool
  | add other rule => other = label && rule.compile.isOk
  | remove other => other = label
  | _ => false

theorem Tokenization.afterAll_append_singleton (t : Tokenization V E)
    (requests : List (Request V E)) (request : Request V E) :
  t.afterAll (requests ++ [request]) = (t.afterAll requests).after request
  := by simp [afterAll, List.foldl_append]

namespace Lexer

variable {lexer : Lexer V E} {requests : List (Request V E)}

/-- The request in place `n` has added a rule under a label, the rule went into slot `k`, and no
later request has removed or replaced it. -/
def AddedAt (lexer : Lexer V E) (requests : List (Request V E)) (n k : Nat) (label : String)
    (rule : CompiledRule V E) : Prop :=
  ∃ earlier source later, requests = earlier ++ .add label source :: later ∧ n = earlier.length ∧
    source.compile = .ok rule ∧ (∀ request ∈ later, request.vacates label = false) ∧
    k = ((lexer.start.afterAll earlier).rules.erase label).vacancy

/-- A rule that has been added is there after one more request if this one has added it, or has
not taken it out. -/
theorem addedAt_append_singleton {request : Request V E} {n k : Nat} {label : String}
    {rule : CompiledRule V E} :
  lexer.AddedAt (requests ++ [request]) n k label rule ↔
    lexer.AddedAt requests n k label rule ∧ request.vacates label = false ∨
    n = requests.length ∧ ∃ source, request = .add label source ∧ source.compile = .ok rule ∧
      k = ((lexer.start.afterAll requests).rules.erase label).vacancy
  := by
  constructor
  · rintro ⟨earlier, source, later, heq, hn, hcompile, hlater, hk⟩
    rcases List.eq_nil_or_concat later with rfl | ⟨later, last, rfl⟩
    · obtain ⟨rfl, hlast⟩ := List.append_inj' heq rfl
      exact .inr ⟨hn, source, List.singleton_inj.mp hlast, hcompile, hk⟩
    · rw [List.concat_eq_append, ← List.cons_append, ← List.append_assoc] at heq
      obtain ⟨rfl, hlast⟩ := List.append_inj' heq rfl
      obtain rfl := List.singleton_inj.mp hlast
      simp only [List.concat_eq_append, List.forall_mem_append, List.forall_mem_singleton] at hlater
      exact .inl ⟨⟨earlier, source, later, rfl, hn, hcompile, hlater.1, hk⟩, hlater.2⟩
  · rintro (⟨⟨earlier, source, later, rfl, hn, hcompile, hlater, hk⟩, hlast⟩
      | ⟨hn, source, rfl, hcompile, hk⟩)
    · refine ⟨earlier, source, later ++ [request], by simp, hn, hcompile, ?_, hk⟩
      rw [List.forall_mem_append, List.forall_mem_singleton]
      exact ⟨hlater, hlast⟩
    · exact ⟨requests, source, [], rfl, hn, hcompile, by simp, hk⟩

/-- After one more request a slot has what it had, unless the request takes that out, or what
the request puts into it. -/
theorem getElem?_slots_append_singleton (request : Request V E) {k : Nat}
    {occupant : Occupant (CompiledRule V E)} :
  (lexer.start.afterAll (requests ++ [request])).rules.slots[k]? = some (some occupant) ↔
    (lexer.start.afterAll requests).rules.slots[k]? = some (some occupant) ∧
      (∀ label ∈ occupant.label, request.vacates label = false) ∨
    ∃ label source, request = .add label source ∧ source.compile = .ok occupant.value ∧
      occupant.label = some label ∧
      k = ((lexer.start.afterAll requests).rules.erase label).vacancy
  := by
  have hholds := lexer.holds_registered requests
  rw [Tokenization.afterAll_append_singleton]
  cases request with
  | add label source =>
      cases hcompile : source.compile with
      | error e =>
          simp [Tokenization.after, Tokenization.addRule_of_compile_error hcompile,
            Except.toOption, Request.vacates, hcompile, Except.isOk, Except.toBool]
      | ok compiled =>
          simp only [Tokenization.after, Tokenization.addRule_of_compile hcompile,
            Except.toOption, Option.getD_some, hholds.getElem?_insert, Request.vacates, hcompile,
            Except.isOk, Except.toBool, Bool.and_true, decide_eq_false_iff_not, label_ne_iff]
          apply or_congr_right
          constructor
          · rintro ⟨rfl, rfl⟩
            exact ⟨label, source, rfl, hcompile, rfl, rfl⟩
          · rintro ⟨_, _, ⟨⟩, hcompile', hlabel, rfl⟩
            rw [hcompile] at hcompile'
            obtain ⟨given, value⟩ := occupant
            cases hcompile'
            cases hlabel
            exact ⟨rfl, rfl⟩
  | remove label =>
      simp [Tokenization.after, Tokenization.removeRule, hholds.getElem?_erase, label_ne_iff,
        Request.vacates]
  | _ => simp [Tokenization.after, Request.vacates]

/-- The slots without labels are the first ones, with the rules of the lexer in their order. -/
theorem getElem?_slots_none {k : Nat} {rule : CompiledRule V E} :
  (lexer.start.afterAll requests).rules.slots[k]? = some (some ⟨none, rule⟩) ↔
    lexer.rules[k]? = some rule
  := by
  induction requests using List.reverseRecOn with
  | nil =>
      change (lexer.rules.map fun value => some (⟨none, value⟩ : Occupant _))[k]? = _ ↔ _
      simp
  | append_singleton requests request ih =>
      rw [getElem?_slots_append_singleton, ih]
      simp

/-- The slots with labels have the rules that have been added and neither removed nor replaced
since. -/
theorem getElem?_slots_some {k : Nat} {label : String} {rule : CompiledRule V E} :
  (lexer.start.afterAll requests).rules.slots[k]? = some (some ⟨some label, rule⟩) ↔
    ∃ n, lexer.AddedAt requests n k label rule
  := by
  induction requests using List.reverseRecOn with
  | nil =>
      change (lexer.rules.map fun value => some (⟨none, value⟩ : Occupant _))[k]? = _ ↔ _
      simp [AddedAt]
  | append_singleton requests request ih =>
      rw [getElem?_slots_append_singleton, ih]
      simp only [addedAt_append_singleton, exists_or, exists_and_right, exists_eq,
        true_and, Option.mem_def, Option.some.injEq, forall_eq']
      apply or_congr_right
      constructor
      · rintro ⟨label', source, hrequest, hcompile, rfl, hk⟩
        exact ⟨source, hrequest, hcompile, hk⟩
      · rintro ⟨source, hrequest, hcompile, hk⟩
        exact ⟨label, source, hrequest, hcompile, rfl, hk⟩

/-- The rules that have been added are in slots after those of the lexer. -/
theorem AddedAt.length_le {n k : Nat} {label : String} {rule : CompiledRule V E}
    (h : lexer.AddedAt requests n k label rule) :
  lexer.rules.length ≤ k
  := by
  have hslot := getElem?_slots_some.mpr ⟨n, h⟩
  by_contra hlt
  have hget := List.getElem?_eq_getElem (Nat.lt_of_not_le hlt)
  rw [getElem?_slots_none.mpr hget] at hslot
  cases hslot

/-- A rule that has been added when no slot was empty is in a slot after those of all rules
that had been added before. -/
theorem AddedAt.slot_lt {n n' k k' : Nat} {label label' : String} {rule rule' : CompiledRule V E}
    (h : lexer.AddedAt requests n k label rule) (h' : lexer.AddedAt requests n' k' label' rule')
    (hlt : n < n')
    (hfull : ((lexer.start.afterAll (requests.take n')).rules.erase label').free = []) :
  k < k'
  := by
  obtain ⟨earlier', source', later', rfl, rfl, hcompile', -, rfl⟩ := h'
  rw [List.take_left] at hfull
  -- the earlier rule was in its slot when the later one was added, and it has another label
  obtain ⟨hslot, hne⟩ :
      (lexer.start.afterAll earlier').rules.slots[k]? = some (some ⟨some label, rule⟩) ∧
        label ≠ label' := by
    obtain ⟨earlier, source, later, heq, rfl, hcompile, hlater, hk⟩ := h
    obtain ⟨between, rfl, rfl⟩ := List.exists_between_of_append_eq heq hlt
    simp only [List.forall_mem_append, List.forall_mem_cons] at hlater
    constructor
    · apply getElem?_slots_some.mpr ⟨_, earlier, source, between, rfl, rfl, hcompile, hlater.1, hk⟩
    · rintro rfl
      have hvacates := hlater.2.1
      simp [Request.vacates, hcompile', Except.isOk, Except.toBool] at hvacates
  have hget := (lexer.holds_registered earlier').getElem?_erase.mpr ⟨hslot, by simpa using hne⟩
  obtain ⟨hlength, -⟩ := List.getElem?_eq_some_iff.mp hget
  rw [Slots.vacancy, hfull]
  apply hlength

/-- Wherever a tokenization gets to, it gets there by some requests.  Whatever has been added and
removed by them, the match that is taken at the start of a text has the highest priority and of
such matches the greatest length, and of several of these its rule has the first slot.  The rules
of the lexer come first and in their order.  The rules that have been added and are still there
come after them, each in the slot that was the next one to be filled when it was added; if no slot
was empty then, it comes after all rules added before. -/
theorem match_by_slots (lexer : Lexer V E) :
  (∀ text earlier pieces p, (lexer.first text earlier).Reads pieces p →
    ∃ requests, p.tokenization = lexer.start.afterAll requests) ∧
  ∀ requests : List (Request V E),
    (∀ text, (lexer.start.afterAll requests).match? text = none ↔
      ∀ k m, ¬ (lexer.start.afterAll requests).Offers text k m) ∧
    (∀ text m, (lexer.start.afterAll requests).match? text = some m ↔
      ∃ k, (lexer.start.afterAll requests).Selects text k m) ∧
    (∀ (k : Nat) (rule : CompiledRule V E),
      (lexer.start.afterAll requests).rules.slots[k]? = some (some ⟨none, rule⟩) ↔
        lexer.rules[k]? = some rule) ∧
    (∀ (k : Nat) (label : String) (rule : CompiledRule V E),
      (lexer.start.afterAll requests).rules.slots[k]? = some (some ⟨some label, rule⟩) ↔
        ∃ n, lexer.AddedAt requests n k label rule) ∧
    (∀ n k label rule, lexer.AddedAt requests n k label rule → lexer.rules.length ≤ k) ∧
    ∀ n n' k k' label label' rule rule', lexer.AddedAt requests n k label rule →
      lexer.AddedAt requests n' k' label' rule' → n < n' →
      ((lexer.start.afterAll (requests.take n')).rules.erase label').free = [] → k < k'
  := by
  constructor
  · intro text earlier pieces p hreads
    exact hreads.exists_requests
  intro requests
  refine ⟨?_, ?_, ?_, ?_, ?_, ?_⟩
  · intro text
    apply Tokenization.match?_eq_none_iff
  · intro text m
    apply Tokenization.match?_eq_some_iff
  · intro k rule
    apply getElem?_slots_none
  · intro k label rule
    apply getElem?_slots_some
  · intro n k label rule h
    apply h.length_le
  · intro n n' k k' label label' rule rule' h h' hlt hfull
    apply h.slot_lt h' hlt hfull

end Lexer

end Library

namespace Lexer

/-- The requests to add two rules, to remove the first one, and to add a third one. -/
def refillingRequests : List (Request Unit Unit) :=
  [.add "a" (literalRule (.label "A") "?"), .add "b" (literalRule (.label "B") "!"),
   .remove "a", .add "c" (literalRule (.label "C") "!")]

/-- The third rule gets the slot of the first one, before that of the second one.  Both match
the same text with the same priority, and the match by the third rule is taken, although the
second one was added before. -/
theorem later_rule_first :
  ∃ (lexer : Lexer Unit Unit) (b c : Match Unit Unit),
    ofRules [literalRule (.label "PCT") "%"] = .ok lexer ∧
    b.rule.toLexRule = literalRule (.label "B") "!" ∧
    c.rule.toLexRule = literalRule (.label "C") "!" ∧
    lexer.AddedAt refillingRequests 1 2 "b" b.rule ∧
    lexer.AddedAt refillingRequests 3 1 "c" c.rule ∧
    (lexer.start.afterAll refillingRequests).Offers ['!'] 2 b ∧
    b.rule.priority = c.rule.priority ∧ b.length = c.length ∧
    (lexer.start.afterAll refillingRequests).match? ['!'] = some c
  := by
  obtain ⟨lexer, hlexer⟩ : ∃ lexer : Lexer Unit Unit,
      ofRules [literalRule (.label "PCT") "%"] = .ok lexer := ⟨_, rfl⟩
  obtain ⟨b, hb⟩ : ∃ b : CompiledRule Unit Unit,
      (literalRule (.label "B") "!").compile = .ok b := ⟨_, rfl⟩
  obtain ⟨c, hc⟩ : ∃ c : CompiledRule Unit Unit,
      (literalRule (.label "C") "!").compile = .ok c := ⟨_, rfl⟩
  refine ⟨lexer, ⟨b, 1, Nat.one_pos⟩, ⟨c, 1, Nat.one_pos⟩, hlexer, ?_⟩
  cases hlexer
  cases hb
  cases hc
  refine ⟨rfl, rfl, ?_, ?_, ?_, rfl, rfl, rfl⟩
  · exact ⟨[_], _, [_, _], rfl, rfl, rfl, by decide, rfl⟩
  · exact ⟨[_, _, _], _, [], rfl, rfl, rfl, by decide, rfl⟩
  · exact ⟨⟨some "b", _⟩, rfl, rfl, rfl⟩

end Lexer

end ShiftReduce
