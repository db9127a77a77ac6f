import ShiftReduce.Lexer.Arena
import ShiftReduce.Proofs.Lexer.Precedence
import ShiftReduce.Proofs.OrderedMap

/-!
# Arenas and labels

The slots, the empty slots and the labels of an arena go together whatever rules are added and
removed: each label is that of the rule added last under it, if it has not been removed since,
and the rules of the lexer stay in the first slots (`Controller.labels_name_last_added`).

An arena is read as labelled slots, in which every value carries its label.  Putting values in
and taking them out does the same to both (`Arena.Reads`).  So what the slots have is known from
the requests made so far.  What remains are the empty slots, all of which are listed, and the
number of slots, which is that of the labels and the empty slots together.
-/

namespace ShiftReduce

/-! ### The places of labels -/

namespace Slots

variable {α : Type} {s : Slots α} {occupants : List (Occupant α)}

/-- A label stands in one slot only. -/
theorem Holds.slot_unique (h : s.Holds occupants) {label : String} {k k' : Nat} {value value' : α}
    (hk : s.slots[k]? = some (some ⟨some label, value⟩))
    (hk' : s.slots[k']? = some (some ⟨some label, value'⟩)) :
  k = k'
  := by
  have hnodup : ((s.slots.filterMap id).filterMap Occupant.label).Nodup :=
    (h.perm.filterMap Occupant.label).nodup_iff.mpr h.labels
  rw [List.filterMap_filterMap, List.Nodup, List.pairwise_filterMap,
    List.pairwise_iff_getElem] at hnodup
  obtain ⟨hlt, hslot⟩ := List.getElem?_eq_some_iff.mp hk
  obtain ⟨hlt', hslot'⟩ := List.getElem?_eq_some_iff.mp hk'
  rcases Nat.lt_trichotomy k k' with hkk' | rfl | hkk'
  · cases hnodup k k' hlt hlt' hkk' label (by simp [hslot]) label (by simp [hslot']) rfl
  · rfl
  · cases hnodup k' k hlt' hlt hkk' label (by simp [hslot']) label (by simp [hslot]) rfl

/-- The place of a label is the slot whose occupant has it. -/
theorem Holds.place?_eq_some_iff (h : s.Holds occupants) {label : String} {k : Nat} :
  s.place? label = some k ↔ ∃ value, s.slots[k]? = some (some ⟨some label, value⟩)
  := by
  constructor
  · intro hplace
    obtain ⟨⟨given, value⟩, hslot, rfl⟩ := getElem?_of_place? hplace
    use value, hslot
  · rintro ⟨value, hk⟩
    have hbound : s.isBound label = true := by
      apply h.isBound_iff.mpr ⟨⟨some label, value⟩, _, rfl⟩
      apply h.perm.mem_iff.mp
      simpa using List.mem_of_getElem? hk
    obtain ⟨place, hplace⟩ := Option.isSome_iff_exists.mp hbound
    obtain ⟨⟨given, value'⟩, hslot, rfl⟩ := getElem?_of_place? hplace
    rw [hplace, h.slot_unique hslot hk]

end Slots

namespace Arena

variable {α : Type} {a : Arena α} {s : Slots α} {occupants : List (Occupant α)}

/-! ### Arenas and labelled slots -/

/-- An arena has in its slots what labelled slots have, lists the same slots as empty, and knows
the places of the labels. -/
structure Reads (a : Arena α) (s : Slots α) : Prop where
  slots : a.slots = s.slots.map (Option.map Occupant.value)
  free : a.free = s.free
  labels : ∀ label, a.labels.get? label = s.place? label

namespace Reads

/-- A slot has a value if there is one in the labelled slot, under some label or none. -/
theorem getElem?_eq_some_iff (h : a.Reads s) {k : Nat} {value : α} :
  a.slots[k]? = some (some value) ↔ ∃ label, s.slots[k]? = some (some ⟨label, value⟩)
  := by
  rw [h.slots, List.getElem?_map, Option.map_eq_some_iff]
  constructor
  · rintro ⟨slot, hslot, hvalue⟩
    obtain ⟨⟨label, value⟩, rfl, rfl⟩ := Option.map_eq_some_iff.mp hvalue
    use label, hslot
  · rintro ⟨label, hslot⟩
    exact ⟨_, hslot, rfl⟩

theorem getElem?_eq_none_iff (h : a.Reads s) {k : Nat} :
  a.slots[k]? = some none ↔ s.slots[k]? = some none
  := by simp [h.slots]

/-- A label is that of the occupant of its slot. -/
theorem get?_labels_iff (h : a.Reads s) (hs : s.Holds occupants) {label : String} {k : Nat} :
  a.labels.get? label = some k ↔ ∃ value, s.slots[k]? = some (some ⟨some label, value⟩)
  := by rw [h.labels, hs.place?_eq_some_iff]

/-- Labels name slots that are occupied. -/
theorem occupied (h : a.Reads s) (hs : s.Holds occupants) {label : String} {k : Nat}
    (hk : a.labels.get? label = some k) :
  ∃ value, a.slots[k]? = some (some value)
  := by
  obtain ⟨value, hslot⟩ := (h.get?_labels_iff hs).mp hk
  use value
  apply h.getElem?_eq_some_iff.mpr ⟨_, hslot⟩

end Reads

/-! ### Putting in and taking out -/

theorem ofList_eq (values : List α) :
  ofList values = ⟨values.map some, [], ∅⟩
  := by
  have hfoldl : ∀ slots : List (Option α),
      values.foldl (fun (a : Arena α) value => (a.insert value).1) ⟨slots, [], ∅⟩
        = ⟨slots ++ values.map some, [], ∅⟩ := by
    induction values with
    | nil => simp
    | cons value rest ih =>
        intro slots
        rw [List.foldl_cons]
        apply (ih (slots ++ [some value])).trans
        simp
  apply hfoldl []

theorem removeLabelled_of_none {label : String} (h : a.labels.get? label = none) :
  a.removeLabelled label = (a, false)
  := by rw [removeLabelled, h]

/-- What a label names is taken out, and its slot becomes the first one to be filled. -/
theorem removeLabelled_of_some {label : String} {k : Nat} {value : α}
    (h : a.labels.get? label = some k) (hk : a.slots[k]? = some (some value)) :
  a.removeLabelled label = (⟨a.slots.set k none, k :: a.free, a.labels.erase label⟩, true)
  := by simp [removeLabelled, remove, h, hk]

/-- A label that has been removed names nothing. -/
theorem get?_removeLabelled_self (label : String) :
  (a.removeLabelled label).1.labels.get? label = none
  := by
  rw [removeLabelled]
  cases hlabel : a.labels.get? label with
  | none => apply hlabel
  | some k =>
      simp only [remove]
      split <;> simp [OrderedMap.get?_erase]

/-- Taking out the value under a label does the same to an arena and to labelled slots. -/
theorem Reads.removeLabelled (h : a.Reads s) (hs : s.Holds occupants) (label : String) :
  (a.removeLabelled label).1.Reads (s.erase label)
    ∧ (a.removeLabelled label).2 = s.isBound label
  := by
  cases hplace : s.place? label with
  | none =>
      have hbound : s.isBound label = false := by rw [Slots.isBound, hplace, Option.isSome_none]
      rw [removeLabelled_of_none ((h.labels label).trans hplace),
        Slots.erase_of_not_isBound hbound]
      exact ⟨h, hbound.symm⟩
  | some k =>
      have hlabel := (h.labels label).trans hplace
      obtain ⟨value, hk⟩ := h.occupied hs hlabel
      have herase : s.erase label = ⟨s.slots.set k none, k :: s.free⟩ := by
        rw [Slots.erase, hplace]
      rw [removeLabelled_of_some hlabel hk]
      constructor
      · constructor
        · simp [herase, h.slots, List.map_set]
        · simp [herase, h.free]
        · intro other
          ext j
          rw [OrderedMap.get?_erase, (hs.erase label).place?_eq_some_iff]
          simp only [hs.getElem?_erase]
          split
          · simp_all
          · rename_i hne
            simp [h.labels, hs.place?_eq_some_iff, hne]
      · rw [Slots.isBound, hplace, Option.isSome_some]

/-- Where no slot is empty a value is put into a new one, which its label names. -/
theorem insertLabelled_of_nil {label : String} {value : α} {b : Arena α}
    (hb : (a.removeLabelled label).1 = b) (hfree : b.free = []) :
  a.insertLabelled label value
    = ⟨b.slots ++ [some value], [], b.labels.put label b.slots.length⟩
  := by simp [insertLabelled, insert, hb, hfree]

/-- Where slots are empty a value is put into the one emptied last, which its label names. -/
theorem insertLabelled_of_cons {label : String} {value : α} {b : Arena α} {k : Nat}
    {free : List Nat} (hb : (a.removeLabelled label).1 = b) (hfree : b.free = k :: free) :
  a.insertLabelled label value = ⟨b.slots.set k (some value), free, b.labels.put label k⟩
  := by simp [insertLabelled, insert, hb, hfree]

/-- Putting a value under a label does the same to an arena and to labelled slots. -/
theorem Reads.insertLabelled (h : a.Reads s) (hs : s.Holds occupants) (label : String)
    (value : α) :
  (a.insertLabelled label value).Reads (s.insert label value)
  := by
  have herased := (h.removeLabelled hs label).1
  have hlabels : ∀ k, k = (s.erase label).vacancy → ∀ other,
      ((a.removeLabelled label).1.labels.put label k).get? other
        = (s.insert label value).place? other := by
    rintro k rfl other
    ext j
    rw [OrderedMap.get?_put, (hs.insert label value).place?_eq_some_iff]
    simp only [hs.getElem?_insert]
    split
    · rename_i heq
      simp [heq, eq_comm]
    · rename_i hne
      rw [herased.get?_labels_iff (hs.erase label)]
      simp [hs.getElem?_erase, hne]
  cases hfree : (s.erase label).free with
  | nil =>
      rw [insertLabelled_of_nil rfl (herased.free.trans hfree), Slots.insert, Slots.fill, hfree]
      constructor
      · simp [herased.slots]
      · rfl
      · intro other
        have hk : (a.removeLabelled label).1.slots.length = (s.erase label).vacancy := by
          simp [Slots.vacancy, hfree, herased.slots]
        rw [hlabels _ hk, Slots.insert, Slots.fill, hfree]
  | cons k free =>
      rw [insertLabelled_of_cons rfl (herased.free.trans hfree), Slots.insert, Slots.fill, hfree]
      constructor
      · simp [herased.slots, List.map_set]
      · rfl
      · intro other
        have hk : k = (s.erase label).vacancy := by rw [Slots.vacancy, hfree, List.headD_cons]
        rw [hlabels k hk, Slots.insert, Slots.fill, hfree]

/-! ### Empty slots and the number of slots -/

/-- All empty slots are listed, and there are as many slots as values without labels, labels and
empty slots. -/
structure Tight (n : Nat) (a : Arena α) : Prop where
  listed : ∀ k, a.slots[k]? = some none → k ∈ a.free
  length : a.slots.length = n + a.labels.size + a.free.length

theorem Tight.ofList (values : List α) :
  (ofList values).Tight values.length
  := by
  rw [ofList_eq]
  constructor
  · intro k hk
    simp at hk
  · simp [OrderedMap.size, EmptyCollection.emptyCollection, OrderedMap.empty]

variable {n : Nat}

theorem Tight.removeLabelled (ha : a.Tight n) (h : a.Reads s) (hs : s.Holds occupants)
    (label : String) :
  (a.removeLabelled label).1.Tight n
  := by
  cases hlabel : a.labels.get? label with
  | none =>
      rw [removeLabelled_of_none hlabel]
      apply ha
  | some k =>
      obtain ⟨value, hk⟩ := h.occupied hs hlabel
      rw [removeLabelled_of_some hlabel hk]
      constructor
      · intro j hj
        rw [List.getElem?_set] at hj
        split at hj
        · rename_i heq
          rw [heq]
          apply List.mem_cons_self
        · apply List.mem_cons_of_mem _ (ha.listed j hj)
      · have hsize := OrderedMap.size_erase_of_some hlabel
        simp only [List.length_set, List.length_cons, ha.length]
        omega

theorem Tight.insertLabelled (ha : a.Tight n) (h : a.Reads s) (hs : s.Holds occupants)
    (label : String) (value : α) :
  (a.insertLabelled label value).Tight n
  := by
  have hremoved := ha.removeLabelled h hs label
  have hsize := OrderedMap.size_put_of_none (a.get?_removeLabelled_self label)
  cases hfree : (a.removeLabelled label).1.free with
  | nil =>
      have hlength := hremoved.length
      rw [hfree] at hlength
      rw [insertLabelled_of_nil rfl hfree]
      constructor
      · intro k hk
        rcases List.getElem?_append_singleton_iff.mp hk with hk | ⟨-, hk⟩
        · rw [← hfree]
          apply hremoved.listed k hk
        · cases hk
      · simp only [List.length_append, List.length_singleton, List.length_nil, hsize, hlength]
        omega
  | cons j free =>
      have hlength := hremoved.length
      rw [hfree] at hlength
      rw [insertLabelled_of_cons rfl hfree]
      constructor
      · intro k hk
        rw [List.getElem?_set] at hk
        split at hk
        · split at hk <;> cases hk
        · rename_i hne
          have hmem := hremoved.listed k hk
          rw [hfree] at hmem
          apply List.mem_of_ne_of_mem (Ne.symm hne) hmem
      · simp only [List.length_set, hsize, hlength, List.length_cons]
        omega

theorem length_removeLabelled (label : String) :
  (a.removeLabelled label).1.slots.length = a.slots.length
  := by
  rw [removeLabelled]
  split
  · simp only [remove]
    split <;> simp
  · rfl

/-- A new slot is made only if no slot is empty then. -/
theorem length_insertLabelled (label : String) (value : α) :
  (a.insertLabelled label value).slots.length = a.slots.length
    ∨ (a.insertLabelled label value).free = []
  := by
  cases hfree : (a.removeLabelled label).1.free with
  | nil =>
      right
      rw [insertLabelled_of_nil rfl hfree]
  | cons k free =>
      left
      rw [insertLabelled_of_cons rfl hfree, List.length_set, length_removeLabelled]

end Arena

section Library

variable [PatternLibrary] {V E : Type}

/-! ### Rules after some requests -/

/-- A rule has been added under a label, and no later request has removed or replaced it. -/
def LastAdded (requests : List (Request V E)) (label : String) (rule : CompiledRule V E) : Prop :=
  ∃ earlier source later, requests = earlier ++ .add label source :: later
    ∧ source.compile = .ok rule ∧ ∀ request ∈ later, request.vacates label = false

/-- The rules that have been added last are in the slots that they went into. -/
theorem lastAdded_iff (lexer : Lexer V E) {requests : List (Request V E)} {label : String}
    {rule : CompiledRule V E} :
  LastAdded requests label rule
    ↔ ∃ k : Nat, (lexer.start.afterAll requests).rules.slots[k]? = some (some ⟨some label, rule⟩)
  := by
  simp only [Lexer.getElem?_slots_some]
  constructor
  · rintro ⟨earlier, source, later, heq, hcompile, hlater⟩
    exact ⟨_, _, earlier, source, later, heq, rfl, hcompile, hlater, rfl⟩
  · rintro ⟨k, n, earlier, source, later, heq, -, hcompile, hlater, -⟩
    exact ⟨earlier, source, later, heq, hcompile, hlater⟩

/-- The slots, the empty slots and the labels of an arena go together.  Some values are in the
first slots, and have no labels.  The labels name different slots after these, each of them with
the value that is bound to the label, and they name all that are occupied.  The empty slots are
listed once each. -/
structure Arena.Binds {α : Type} (a : Arena α) (first : List α) (bound : String → α → Prop) :
    Prop where
  inOrder : a.slots.take first.length = first.map some
  bound : ∀ label value, (∃ k, a.labels.get? label = some k ∧ a.slots[k]? = some (some value))
    ↔ bound label value
  occupied : ∀ label k, a.labels.get? label = some k →
    first.length ≤ k ∧ ∃ value, a.slots[k]? = some (some value)
  distinct : ∀ label label' k, a.labels.get? label = some k → a.labels.get? label' = some k →
    label = label'
  labelled : ∀ k value, first.length ≤ k → a.slots[k]? = some (some value) →
    ∃ label, a.labels.get? label = some k
  free : ∀ k, k ∈ a.free ↔ a.slots[k]? = some none
  nodup : a.free.Nodup

namespace Controller

/-- The controller after a request. -/
def after (c : Controller V E) : Request V E → Controller V E
  | .jump state => { c with states := c.states.jump state }
  | .call state => { c with states := c.states.call state }
  | .leave => { c with states := c.states.leave }
  | .add label rule => (c.addRule label rule).1
  | .remove label => (c.removeRule label).1

/-- The controller after some requests. -/
def afterAll (c : Controller V E) (requests : List (Request V E)) : Controller V E :=
  requests.foldl after c

theorem afterAll_append_singleton (c : Controller V E) (requests : List (Request V E))
    (request : Request V E) :
  c.afterAll (requests ++ [request]) = (c.afterAll requests).after request
  := by simp [afterAll, List.foldl_append]

theorem addRule_of_compile {rule : LexRule V E} {compiled : CompiledRule V E}
    (h : rule.compile = .ok compiled) (c : Controller V E) (label : String) :
  c.addRule label rule = ({ c with
    exclusive := (c.exclusive ++ rule.exclusiveStates).eraseDups
    rules := c.rules.insertLabelled label compiled }, .ok ())
  := by rw [addRule, h]

theorem addRule_of_compile_error {rule : LexRule V E} {e : PatternError}
    (h : rule.compile = .error e) (c : Controller V E) (label : String) :
  c.addRule label rule = (c, .error e)
  := by rw [addRule, h]

/-- A request leaves the arena as it is, takes something out, or puts something in. -/
theorem rules_after_cases (c : Controller V E) (request : Request V E) :
  (c.after request).rules = c.rules
    ∨ (∃ label, (c.after request).rules = (c.rules.removeLabelled label).1)
    ∨ ∃ label rule, (c.after request).rules = c.rules.insertLabelled label rule
  := by
  cases request with
  | add label rule =>
      rw [after]
      cases hcompile : rule.compile with
      | error e =>
          rw [addRule_of_compile_error hcompile]
          apply Or.inl rfl
      | ok compiled =>
          rw [addRule_of_compile hcompile]
          exact .inr (.inr ⟨label, compiled, rfl⟩)
  | remove label => exact .inr (.inl ⟨label, rfl⟩)
  | _ => apply Or.inl rfl

/-- A controller has the states of a tokenization, its exclusive states, and its rules in an
arena. -/
structure Reads (c : Controller V E) (t : Tokenization V E) : Prop where
  states : c.states = t.states
  rules : c.rules.Reads t.rules
  exclusive : c.exclusive = t.exclusive

/-- A request does the same to a controller and to a tokenization. -/
theorem Reads.after {c : Controller V E} {t : Tokenization V E} (h : c.Reads t)
    {registered : List (Occupant (CompiledRule V E))} (ht : t.rules.Holds registered)
    (request : Request V E) :
  (c.after request).Reads (t.after request)
  := by
  cases request with
  | jump state => exact ⟨congrArg (·.jump state) h.states, h.rules, h.exclusive⟩
  | call state => exact ⟨congrArg (·.call state) h.states, h.rules, h.exclusive⟩
  | leave => exact ⟨congrArg StateStack.leave h.states, h.rules, h.exclusive⟩
  | add label rule =>
      rw [Controller.after, Tokenization.after]
      cases hcompile : rule.compile with
      | error e =>
          rw [addRule_of_compile_error hcompile, Tokenization.addRule_of_compile_error hcompile]
          apply h
      | ok compiled =>
          rw [addRule_of_compile hcompile, Tokenization.addRule_of_compile hcompile]
          constructor
          · apply h.states
          · apply h.rules.insertLabelled ht
          · rw [h.exclusive]
            rfl
  | remove label => exact ⟨h.states, (h.rules.removeLabelled ht label).1, h.exclusive⟩

variable (lexer : Lexer V E) (requests : List (Request V E))

/-- Requests do the same to the controller of a lexer and to its tokenization. -/
theorem reads_afterAll :
  ((ofLexer lexer).afterAll requests).Reads (lexer.start.afterAll requests)
  := by
  induction requests using List.reverseRecOn with
  | nil =>
      constructor
      · rfl
      · constructor
        · change (Arena.ofList lexer.rules).slots = (Slots.ofList lexer.rules).slots.map _
          rw [Arena.ofList_eq]
          simp [Slots.ofList]
        · change (Arena.ofList lexer.rules).free = []
          rw [Arena.ofList_eq]
        · intro label
          change (Arena.ofList lexer.rules).labels.get? label
            = (Slots.ofList lexer.rules).place? label
          rw [Arena.ofList_eq, Slots.place?_ofList]
          rfl
      · rfl
  | append_singleton requests request ih =>
      rw [afterAll_append_singleton, Tokenization.afterAll_append_singleton]
      apply ih.after (lexer.holds_registered requests)

/-- All empty slots are listed, and the other ones are those of the lexer and the labels. -/
theorem tight_afterAll :
  ((ofLexer lexer).afterAll requests).rules.Tight lexer.rules.length
  := by
  induction requests using List.reverseRecOn with
  | nil => apply Arena.Tight.ofList
  | append_singleton requests request ih =>
      have hreads := (reads_afterAll lexer requests).rules
      have hholds := lexer.holds_registered requests
      rw [afterAll_append_singleton]
      rcases rules_after_cases ((ofLexer lexer).afterAll requests) request with
        hrules | ⟨label, hrules⟩ | ⟨label, rule, hrules⟩
      · rw [hrules]
        apply ih
      · rw [hrules]
        apply ih.removeLabelled hreads hholds
      · rw [hrules]
        apply ih.insertLabelled hreads hholds

/-- There are as many slots as the lexer has rules and as there have been labels at some time. -/
theorem exists_length_eq :
  ∃ earlier, earlier <+: requests
    ∧ ((ofLexer lexer).afterAll requests).rules.slots.length
      = lexer.rules.length + ((ofLexer lexer).afterAll earlier).rules.labels.size
  := by
  induction requests using List.reverseRecOn with
  | nil =>
      use [], List.prefix_rfl
      have hlength := (tight_afterAll lexer []).length
      change _ = _ + _ + (Arena.ofList lexer.rules).free.length at hlength
      rw [hlength, Arena.ofList_eq, List.length_nil, Nat.add_zero]
  | append_singleton requests request ih =>
      obtain ⟨earlier, hearlier, hlength⟩ := ih
      have hcases : ((ofLexer lexer).afterAll (requests ++ [request])).rules.slots.length
          = ((ofLexer lexer).afterAll requests).rules.slots.length
          ∨ ((ofLexer lexer).afterAll (requests ++ [request])).rules.free = [] := by
        rw [afterAll_append_singleton]
        rcases rules_after_cases ((ofLexer lexer).afterAll requests) request with
          hrules | ⟨label, hrules⟩ | ⟨label, rule, hrules⟩
        · left
          rw [hrules]
        · left
          rw [hrules, Arena.length_removeLabelled]
        · rw [hrules]
          apply Arena.length_insertLabelled
      rcases hcases with hsame | hfull
      · use earlier, hearlier.trans (List.prefix_append _ _)
        rw [hsame, hlength]
      · use requests ++ [request], List.prefix_rfl
        have htight := (tight_afterAll lexer (requests ++ [request])).length
        rw [hfull] at htight
        apply htight

/-- The slots that labels name have the rules added last, and come after those of the lexer. -/
theorem binds_afterAll :
  ((ofLexer lexer).afterAll requests).rules.Binds lexer.rules (LastAdded requests)
  := by
  have hreads := (reads_afterAll lexer requests).rules
  have hholds := lexer.holds_registered requests
  have htight := tight_afterAll lexer requests
  constructor
  · apply List.ext_getElem?
    intro k
    rw [List.getElem?_take, List.getElem?_map]
    split
    · rename_i hlt
      have hk := List.getElem?_eq_getElem hlt
      have hslot : (lexer.start.afterAll requests).rules.slots[k]? = some (some ⟨none, _⟩) :=
        Lexer.getElem?_slots_none.mpr hk
      rw [hk, hreads.getElem?_eq_some_iff.mpr ⟨none, hslot⟩]
      rfl
    · rename_i hle
      rw [List.getElem?_eq_none (Nat.le_of_not_lt hle)]
      rfl
  · intro label rule
    rw [lastAdded_iff lexer]
    constructor
    · rintro ⟨k, hlabel, hrule⟩
      obtain ⟨rule', hslot⟩ := (hreads.get?_labels_iff hholds).mp hlabel
      have hrule' := hreads.getElem?_eq_some_iff.mpr ⟨_, hslot⟩
      rw [hrule] at hrule'
      cases hrule'
      use k
    · rintro ⟨k, hslot⟩
      use k, (hreads.get?_labels_iff hholds).mpr ⟨rule, hslot⟩
      apply hreads.getElem?_eq_some_iff.mpr ⟨_, hslot⟩
  · intro label k hlabel
    obtain ⟨rule, hslot⟩ := (hreads.get?_labels_iff hholds).mp hlabel
    obtain ⟨n, hadded⟩ := Lexer.getElem?_slots_some.mp hslot
    use hadded.length_le
    apply hreads.occupied hholds hlabel
  · intro label label' k hlabel hlabel'
    obtain ⟨rule, hslot⟩ := (hreads.get?_labels_iff hholds).mp hlabel
    obtain ⟨rule', hslot'⟩ := (hreads.get?_labels_iff hholds).mp hlabel'
    rw [hslot] at hslot'
    cases hslot'
    rfl
  · intro k rule hle hk
    obtain ⟨given, hslot⟩ := hreads.getElem?_eq_some_iff.mp hk
    cases given with
    | none =>
        obtain ⟨hlt, -⟩ := List.getElem?_eq_some_iff.mp (Lexer.getElem?_slots_none.mp hslot)
        cases Nat.not_lt_of_le hle hlt
    | some label =>
        use label
        apply (hreads.get?_labels_iff hholds).mpr ⟨rule, hslot⟩
  · intro k
    constructor
    · intro hk
      rw [hreads.free] at hk
      apply hreads.getElem?_eq_none_iff.mpr (hholds.free k hk)
    · apply htight.listed k
  · rw [hreads.free]
    apply hholds.nodup

/-- Wherever a tokenization gets to, it gets there by some requests.  Whatever rules are added to
the rules of a lexer and removed by them, these stay in the first slots and in their order, and
each label names, in a slot of its own after them, the rule that was added last under it and has
not been removed since.  No other slots are occupied, and the empty ones are listed once each.
There are as many slots as the lexer has rules and as there have been labels at some time.

A removal tells whether the label names a rule.  A rule is added if it can be compiled, and if
not all is left as it was.  The rules, the exclusive states and the lexical states are those of
the tokenization that has got the same requests, and the answers are the same. -/
theorem labels_name_last_added :
  (∀ text earlier pieces p, (lexer.first text earlier).Reads pieces p →
    ∃ requests, p.tokenization = lexer.start.afterAll requests)
  ∧ ∀ requests : List (Request V E),
    ((ofLexer lexer).afterAll requests).rules.Binds lexer.rules (LastAdded requests)
    ∧ (∃ earlier, earlier <+: requests
      ∧ ((ofLexer lexer).afterAll requests).rules.slots.length
        = lexer.rules.length + ((ofLexer lexer).afterAll earlier).rules.labels.size)
    ∧ (∀ label, (((ofLexer lexer).afterAll requests).removeRule label).2 = true
      ↔ ∃ rule, LastAdded requests label rule)
    ∧ (∀ label rule, (((ofLexer lexer).afterAll requests).addRule label rule).2
      = rule.compile.map fun _ => ())
    ∧ (∀ label rule e, (((ofLexer lexer).afterAll requests).addRule label rule).2 = .error e →
      (((ofLexer lexer).afterAll requests).addRule label rule).1
        = (ofLexer lexer).afterAll requests)
    ∧ ((ofLexer lexer).afterAll requests).Reads (lexer.start.afterAll requests)
    ∧ (∀ label, (((ofLexer lexer).afterAll requests).removeRule label).2
      = (lexer.start.afterAll requests).rules.isBound label)
    ∧ ∀ label rule, (((ofLexer lexer).afterAll requests).addRule label rule).2
      = ((lexer.start.afterAll requests).addRule label rule).map fun _ => ()
  := by
  constructor
  · intro text earlier pieces p hreads
    exact hreads.exists_requests
  intro requests
  have hreads := reads_afterAll lexer requests
  have hholds := lexer.holds_registered requests
  have hremove : ∀ label, (((ofLexer lexer).afterAll requests).removeRule label).2
      = (lexer.start.afterAll requests).rules.isBound label :=
    fun label => (hreads.rules.removeLabelled hholds label).2
  have hcompile : ∀ label rule, (((ofLexer lexer).afterAll requests).addRule label rule).2
      = rule.compile.map fun _ => () := by
    intro label rule
    rw [addRule]
    cases rule.compile with
    | error e => rfl
    | ok compiled => rfl
  use binds_afterAll lexer requests, exists_length_eq lexer requests
  refine ⟨?_, hcompile, ?_, hreads, hremove, ?_⟩
  · intro label
    rw [hremove, Slots.isBound, Option.isSome_iff_exists]
    simp only [hholds.place?_eq_some_iff, lastAdded_iff lexer]
    apply exists_comm
  · intro label rule e herror
    rw [hcompile] at herror
    cases hrule : rule.compile with
    | error e => rw [addRule_of_compile_error hrule]
    | ok compiled =>
        rw [hrule] at herror
        cases herror
  · intro label rule
    rw [hcompile, Tokenization.addRule]
    cases rule.compile with
    | error e => rfl
    | ok compiled => rfl

/-- The rule added last gets the slot of the one that has been removed. -/
example :
    ((ofLexer ({ rules := [] } : Lexer Unit Unit)).afterAll
      [.add "a" { symbol := none, pattern := .literal "a" },
       .add "b" { symbol := none, pattern := .literal "b" }, .remove "a",
       .add "c" { symbol := none, pattern := .literal "c" }]).rules.labels.entries
      = [("b", 1), ("c", 0)] :=
  rfl

end Controller

end Library

end ShiftReduce
