import ShiftReduce.Proofs.Lexer.Slots
import ShiftReduce.Proofs.Lexer.Tiling
import ShiftReduce.Regex.Library

/-!
# Exclusive states

A rule that is marked as exclusive makes its states exclusive, that is, they do not inherit
the rules of the default state.  What reactions do to a tokenization is a sequence of
requests to move to another state, to add a rule, and to remove one.  A tokenization keeps a
list of its exclusive states beside its rules.  Adding a rule extends the list, but neither
the removal of a rule nor its replacement takes anything from it, so the exclusive states
are those of all rules that were ever added and not only those of the present rules.
-/

namespace ShiftReduce

variable {V E : Type}

/-- A rule makes its states exclusive if it is marked so, except for the default state. -/
theorem LexRule.mem_exclusiveStates {rule : LexRule V E} {state : String} :
  state ∈ rule.exclusiveStates ↔
    state ∈ rule.states ∧ rule.exclusive = true ∧ state ≠ defaultState
  := by
  simp [exclusiveStates]

section Library

variable [PatternLibrary]

/-! ### Requests -/

/-- One change that a reaction makes to the tokenization it acts on. -/
inductive Request (V E : Type) where
  | jump (state : String)
  | call (state : String)
  | leave
  | add (label : String) (rule : LexRule V E)
  | remove (label : String)

namespace Tokenization

/-- The tokenization after a request.  A rule that cannot be compiled is not added. -/
def after (t : Tokenization V E) : Request V E → Tokenization V E
  | .jump state => { t with states := t.states.jump state }
  | .call state => { t with states := t.states.call state }
  | .leave => { t with states := t.states.leave }
  | .add label rule => (t.addRule label rule).toOption.getD t
  | .remove label => t.removeRule label

/-- The tokenization after some requests. -/
def afterAll (t : Tokenization V E) (requests : List (Request V E)) : Tokenization V E :=
  requests.foldl after t

/-- What a reaction leaves behind is what some requests lead to. -/
theorem exists_requests (t : Tokenization V E) (events : List E)
    (reaction : Reaction (LexRule V E) V E) :
  ∃ requests, (t.react events reaction).after = t.afterAll requests
  := by
  induction reaction generalizing t events with
  | finish outcome => exact ⟨[], rfl⟩
  | fail message => exact ⟨[], rfl⟩
  | jump state next ih =>
    obtain ⟨requests, hrequests⟩ := ih (t.after (.jump state)) events
    exact ⟨.jump state :: requests, hrequests⟩
  | call state next ih =>
    obtain ⟨requests, hrequests⟩ := ih (t.after (.call state)) events
    exact ⟨.call state :: requests, hrequests⟩
  | leave next ih =>
    obtain ⟨requests, hrequests⟩ := ih (t.after .leave) events
    exact ⟨.leave :: requests, hrequests⟩
  | add label rule next ih =>
    unfold react
    cases hadd : t.addRule label rule with
    | error e => exact ih (.error e) t events
    | ok added =>
      obtain ⟨requests, hrequests⟩ := ih (.ok ()) added events
      use .add label rule :: requests
      simpa [afterAll, after, hadd, Except.toOption] using hrequests
  | remove label next ih =>
    obtain ⟨requests, hrequests⟩ := ih (t.rules.isBound label) (t.removeRule label) events
    exact ⟨.remove label :: requests, hrequests⟩
  | look next ih => exact ih t.situation t events
  | report event next ih => exact ih t (events ++ [event])
  | review next ih => exact ih events t events

end Tokenization

/-- In the rounds of a tokenization nothing but the reactions changes it. -/
theorem Progress.Reads.exists_requests {p q : Progress V E} {pieces : List (Piece V E)}
    (h : p.Reads pieces q) :
  ∃ requests, q.tokenization = p.tokenization.afterAll requests
  := by
  induction h with
  | nothing p => exact ⟨[], rfl⟩
  | @more p q r piece pieces first later ih =>
    obtain ⟨requests, hrequests⟩ := ih
    obtain ⟨m, rfl⟩ : ∃ m, q = p.beyond m := by
      cases first
      exact ⟨_, rfl⟩
    cases hreaction : m.rule.reaction with
    | none =>
      use requests
      simpa [beyond, reacted, Tokenization.reactTo, hreaction] using hrequests
    | some reaction =>
      obtain ⟨earlier, hearlier⟩ :=
        p.tokenization.exists_requests p.events (reaction (p.matched m) m.rule.symbol)
      use earlier ++ requests
      rw [hrequests, beyond, reacted, Tokenization.reactTo, hreaction]
      simp [hearlier, Tokenization.afterAll]

namespace Request

/-- The reaction that makes a request and then goes on. -/
def ask (request : Request V E) (next : Reaction (LexRule V E) V E) :
    Reaction (LexRule V E) V E :=
  match request with
  | jump state => .jump state next
  | call state => .call state next
  | leave => .leave next
  | add label rule => .add label rule fun _ => next
  | remove label => .remove label fun _ => next

/-- Every sequence of requests is made by a reaction. -/
theorem react_ask (t : Tokenization V E) (events : List E) (requests : List (Request V E))
    (outcome : Outcome V) :
  (t.react events (requests.foldr ask (.finish outcome))).after = t.afterAll requests
  := by
  induction requests generalizing t with
  | nil => rfl
  | cons request requests ih =>
    cases request with
    | add label rule =>
      simp only [List.foldr_cons, ask, Tokenization.react]
      cases hadd : t.addRule label rule with
      | error e =>
          simpa [Tokenization.afterAll, Tokenization.after, hadd, Except.toOption] using ih t
      | ok added =>
        simpa [Tokenization.afterAll, Tokenization.after, hadd, Except.toOption] using ih added
    | _ => exact ih _

/-! ### The rules after some requests -/

/-- The rule that a request adds, if it can be compiled. -/
def added? : Request V E → Option (LexRule V E)
  | add _ rule => if rule.compile.isOk then some rule else none
  | _ => none

/-- The rules with their labels after a request. -/
def register (registered : List (Occupant (CompiledRule V E))) :
    Request V E → List (Occupant (CompiledRule V E))
  | add label rule =>
    match rule.compile with
    | .ok compiled => Slots.without label registered ++ [⟨some label, compiled⟩]
    | .error _ => registered
  | remove label => Slots.without label registered
  | _ => registered

end Request

namespace Tokenization

/-- A rule is added exactly when it can be compiled. -/
theorem addRule_of_compile {rule : LexRule V E} {compiled : CompiledRule V E}
    (h : rule.compile = .ok compiled) (t : Tokenization V E) (label : String) :
  t.addRule label rule = .ok { t with
    rules := t.rules.insert label compiled
    exclusive := (t.exclusive ++ rule.exclusiveStates).eraseDups }
  := by
  simp [addRule, h, bind, Except.bind, pure, Except.pure]

/-- A rule that cannot be compiled is not added. -/
theorem addRule_of_compile_error {rule : LexRule V E} {e : PatternError}
    (h : rule.compile = .error e) (t : Tokenization V E) (label : String) :
  t.addRule label rule = .error e
  := by
  simp [addRule, h, bind, Except.bind]

/-- The registered rules change with a request as the slots do. -/
theorem holds_after {t : Tokenization V E} {registered : List (Occupant (CompiledRule V E))}
    (h : t.rules.Holds registered) (request : Request V E) :
  (t.after request).rules.Holds (request.register registered)
  := by
  cases request with
  | add label rule =>
    cases hcompile : rule.compile with
    | error e =>
      simpa [after, Request.register, hcompile, addRule_of_compile_error, Except.toOption] using h
    | ok compiled =>
      simpa [after, Request.register, hcompile, addRule_of_compile, Except.toOption]
        using h.insert label compiled
  | remove label => exact h.erase label
  | _ => exact h

/-- The registered rules change with some requests as the slots do. -/
theorem holds_afterAll {t : Tokenization V E} {registered : List (Occupant (CompiledRule V E))}
    (h : t.rules.Holds registered) (requests : List (Request V E)) :
  (t.afterAll requests).rules.Holds (requests.foldl Request.register registered)
  := by
  induction requests generalizing t registered with
  | nil => exact h
  | cons request requests ih => exact ih (holds_after h request)

/-- A request makes the states exclusive that the rule it adds does, and no others. -/
theorem mem_exclusive_after {t : Tokenization V E} {request : Request V E} {state : String} :
  state ∈ (t.after request).exclusive ↔
    state ∈ t.exclusive ∨ ∃ rule ∈ request.added?, state ∈ rule.exclusiveStates
  := by
  cases request with
  | add label rule =>
    cases hcompile : rule.compile with
    | error e =>
      simp [after, Request.added?, hcompile, addRule_of_compile_error, Except.toOption, Except.isOk,
        Except.toBool]
    | ok compiled =>
      simp [after, Request.added?, hcompile, addRule_of_compile, Except.toOption, Except.isOk,
        Except.toBool]
  | _ => simp [after, Request.added?, removeRule]

/-- Some requests make the states exclusive that the rules they add do, and no others. -/
theorem mem_exclusive_afterAll {t : Tokenization V E} {requests : List (Request V E)}
    {state : String} :
  state ∈ (t.afterAll requests).exclusive ↔
    state ∈ t.exclusive ∨
      ∃ rule ∈ requests.filterMap Request.added?, state ∈ rule.exclusiveStates
  := by
  induction requests generalizing t with
  | nil => simp [afterAll]
  | cons request requests ih =>
    have hstep := ih (t := t.after request)
    simp only [afterAll, List.foldl_cons] at hstep ⊢
    rw [hstep, mem_exclusive_after, or_assoc]
    cases hadded : request.added? <;> simp [hadded]

/-- A registered rule was registered before or has been added. -/
theorem added_of_mem_register {registered : List (Occupant (CompiledRule V E))}
    {request : Request V E} {occupant : Occupant (CompiledRule V E)}
    (h : occupant ∈ request.register registered) :
  occupant ∈ registered ∨ occupant.value.toLexRule ∈ request.added?
  := by
  cases request with
  | add label rule =>
    cases hcompile : rule.compile with
    | error e => simp_all [Request.register]
    | ok compiled =>
      simp only [Request.register, hcompile, List.mem_append, List.mem_singleton] at h
      rcases h with h | rfl
      · exact .inl (List.mem_filter.mp h).1
      · right
        simp [Request.added?, hcompile, LexRule.compile_eq_ok_iff.mp hcompile, Except.isOk,
          Except.toBool]
  | remove label => exact .inl (List.mem_filter.mp h).1
  | _ => exact .inl h

/-- The registered rules are among those that were there at first and those that have been
added. -/
theorem added_of_mem_foldl_register {registered : List (Occupant (CompiledRule V E))}
    {requests : List (Request V E)} {occupant : Occupant (CompiledRule V E)}
    (h : occupant ∈ requests.foldl Request.register registered) :
  occupant ∈ registered ∨ occupant.value.toLexRule ∈ requests.filterMap Request.added?
  := by
  induction requests generalizing registered with
  | nil => exact .inl h
  | cons request requests ih =>
    rcases ih h with h | h
    · rcases added_of_mem_register h with h | h
      · exact .inl h
      · exact .inr (List.mem_filterMap.mpr ⟨request, List.mem_cons_self, h⟩)
    · obtain ⟨later, hlater, hadded⟩ := List.mem_filterMap.mp h
      exact .inr (List.mem_filterMap.mpr ⟨later, List.mem_cons_of_mem _ hlater, hadded⟩)

/-! ### Inherited rules -/

/-- A tokenization moved to a state. -/
def inState (t : Tokenization V E) (state : String) : Tokenization V E :=
  t.after (.jump state)

/-- The rules of the default state cannot be used in a state, unless they belong to it. -/
def CutsOff (t : Tokenization V E) (state : String) : Prop :=
  ∀ rule : LexRule V E, rule.belongsTo defaultState = true → rule.belongsTo state = false →
    (t.inState state).isVisible rule = false

/-- The states cut off from the default state are those on the list of exclusive states. -/
theorem cutsOff_iff {t : Tokenization V E} {state : String} (hstate : state ≠ defaultState) :
  t.CutsOff state ↔ state ∈ t.exclusive
  := by
  have hcurrent : (t.inState state).states.current = state := rfl
  have hexclusive : (t.inState state).exclusive = t.exclusive := rfl
  constructor
  · intro hcut
    let rule : LexRule V E := { symbol := none, pattern := .literal "" }
    have hinvisible := hcut rule (by simp [rule, LexRule.belongsTo])
      (by simp [rule, LexRule.belongsTo, hstate])
    simpa [isVisible, inherits, hcurrent, hexclusive, rule, LexRule.belongsTo, hstate]
      using hinvisible
  · intro hmem rule _ hnot
    simp [isVisible, inherits, hcurrent, hexclusive, hmem, hnot]

/-- A rule that is added under a label that is not bound, and then removed, leaves the rules
as they were, but its states do not inherit the rules of the default state any more. -/
theorem remove_after_add {t : Tokenization V E}
    {registered : List (Occupant (CompiledRule V E))} (h : t.rules.Holds registered)
    {label : String} (hfresh : t.rules.isBound label = false) {rule : LexRule V E}
    (hrule : rule.compile.isOk = true) :
  ((t.after (.add label rule)).after (.remove label)).rules.values = t.rules.values ∧
  ∀ state, (((t.after (.add label rule)).after (.remove label)).inState state).visibleRules =
    (t.inState state).visibleRules.filter fun former =>
      former.belongsTo state || state ∉ rule.exclusiveStates
  := by
  obtain ⟨compiled, hcompile⟩ : ∃ compiled, rule.compile = .ok compiled := by
    cases hcompile : rule.compile with
    | ok compiled => exact ⟨compiled, rfl⟩
    | error e => simp [hcompile, Except.isOk, Except.toBool] at hrule
  have hafter : (t.after (.add label rule)).after (.remove label) = { t with
      rules := (t.rules.insert label compiled).erase label
      exclusive := (t.exclusive ++ rule.exclusiveStates).eraseDups } := by
    simp [after, addRule_of_compile hcompile, Except.toOption, removeRule]
  have hvalues := h.values_erase_insert hfresh compiled
  rw [hafter]
  use hvalues
  intro state
  simp only [visibleRules, inState, after, hvalues, List.filter_filter]
  congr 1
  funext former
  by_cases hexclusive : state ∈ t.exclusive <;>
    by_cases hadded : state ∈ rule.exclusiveStates <;>
      cases hbelongs : former.belongsTo state <;>
        simp [isVisible, inherits, StateStack.jump, hexclusive, hadded, hbelongs]

end Tokenization

namespace Lexer

/-- The rules that are registered after some requests: those of the lexer without labels,
and those that have been added and neither removed nor replaced since. -/
def registered (lexer : Lexer V E) (requests : List (Request V E)) :
    List (Occupant (CompiledRule V E)) :=
  requests.foldl Request.register (lexer.rules.map fun rule => ⟨none, rule⟩)

/-- The slots of a tokenization have the registered rules. -/
theorem holds_registered (lexer : Lexer V E) (requests : List (Request V E)) :
  (lexer.start.afterAll requests).rules.Holds (lexer.registered requests)
  := Tokenization.holds_afterAll (Slots.Holds.ofList lexer.rules) requests

/-- At the start those states are exclusive that the rules of the lexer make so. -/
theorem mem_exclusive_start {rules : List (LexRule V E)} {lexer : Lexer V E}
    (h : ofRules rules = .ok lexer) {state : String} :
  state ∈ lexer.start.exclusive ↔ ∃ rule ∈ rules, state ∈ rule.exclusiveStates
  := by
  rw [← ofRules_eq_ok_iff.mp h, start, Tokenization.initial, lexer.exclusive_eq]
  simp

/-- Wherever a tokenization gets to, it gets there by some requests.  After any requests the
states that are cut off from the default state are those that any rule has made exclusive so far,
be it one of the lexer or one that was added and has been removed or replaced since.  The
registered rules are some of these.  So a rule that is added under a fresh label and removed again
leaves all rules in their slots, but in the states that it has made exclusive only those of them
can be used which belong to the state. -/
theorem exclusive_states_outlive_rules {rules : List (LexRule V E)} {lexer : Lexer V E}
    (h : ofRules rules = .ok lexer) :
  (∀ text earlier pieces p, (lexer.first text earlier).Reads pieces p →
    ∃ requests, p.tokenization = lexer.start.afterAll requests) ∧
  ∀ requests : List (Request V E),
    (∀ state, state ≠ defaultState →
      ((lexer.start.afterAll requests).CutsOff state ↔
        ∃ rule ∈ rules ++ requests.filterMap Request.added?,
          rule.exclusive = true ∧ state ∈ rule.states)) ∧
    (lexer.start.afterAll requests).rules.values.Perm
      ((lexer.registered requests).map Occupant.value) ∧
    (∀ occupant ∈ lexer.registered requests,
      occupant.value.toLexRule ∈ rules ++ requests.filterMap Request.added?) ∧
    ∀ label, (lexer.start.afterAll requests).rules.isBound label = false →
      ∀ rule, rule.compile.isOk = true →
        (lexer.start.afterAll (requests ++ [.add label rule, .remove label])).rules.values =
          (lexer.start.afterAll requests).rules.values ∧
        ∀ state,
          ((lexer.start.afterAll (requests ++ [.add label rule, .remove label])).inState
            state).visibleRules =
          ((lexer.start.afterAll requests).inState state).visibleRules.filter fun former =>
            former.belongsTo state || state ∉ rule.exclusiveStates
  := by
  constructor
  · intro text earlier pieces p hreads
    exact hreads.exists_requests
  intro requests
  have hholds := lexer.holds_registered requests
  constructor
  · intro state hstate
    rw [Tokenization.cutsOff_iff hstate, Tokenization.mem_exclusive_afterAll,
      mem_exclusive_start h]
    simp only [LexRule.mem_exclusiveStates, List.mem_append, or_and_right, exists_or]
    simp [hstate, and_comm]
  use hholds.values
  constructor
  · intro occupant hoccupant
    rcases Tokenization.added_of_mem_foldl_register hoccupant with hstatic | hadded
    · apply List.mem_append_left
      rw [← ofRules_eq_ok_iff.mp h]
      obtain ⟨rule, hrule, rfl⟩ := List.mem_map.mp hstatic
      exact List.mem_map_of_mem hrule
    · exact List.mem_append_right _ hadded
  · intro label hfresh rule hrule
    simpa [Tokenization.afterAll] using
      Tokenization.remove_after_add hholds hfresh hrule

/-- A rule with a literal and nothing else. -/
def literalRule (symbol : Symbol) (text : String) : LexRule V E :=
  { symbol := some symbol, pattern := .literal text }

end Lexer

end Library

namespace Lexer

/-- After an exclusive rule of a state has been added and removed, no registered rule is
exclusive, and still the only other rule cannot be used in that state. -/
theorem exclusive_states_outlive_rules_small :
  ∃ lexer : Lexer Unit Unit,
    ofRules [literalRule (.label "plus") "+"] = .ok lexer ∧
    lexer.registered
        [.add "x" { literalRule (.label "x") "!" with states := ["s"], exclusive := true },
          .remove "x"] = lexer.registered [] ∧
    ((lexer.start.afterAll
        [.add "x" { literalRule (.label "x") "!" with states := ["s"], exclusive := true },
          .remove "x"]).inState "s").visibleRules = [] ∧
    ((lexer.start.afterAll []).inState "s").visibleRules.length = 1
  := by
  obtain ⟨lexer, hlexer⟩ : ∃ lexer : Lexer Unit Unit,
      ofRules [literalRule (.label "plus") "+"] = .ok lexer := ⟨_, rfl⟩
  obtain ⟨-, -, -, hadded⟩ := (exclusive_states_outlive_rules hlexer).2 []
  use lexer, hlexer
  cases hlexer
  use rfl
  constructor
  · apply ((hadded "x" rfl _ rfl).2 "s").trans
    rfl
  · rfl

end Lexer

end ShiftReduce
