import ShiftReduce.Proofs.Lexer.Exclusivity

/-!
# Calls and returns

Between a call of a state and the return from it there may be other calls, with their own
returns, and any other requests.  Such nested requests leave the saved states as they are, so
that the return finds on top of them what the call has put there.  For each return after the
start, either there is one call that it belongs to, and then it restores the states that were
there before this call, or there is none, and then it leads back to the states of the start
(`Tokenization.returns_restore_calls`).
-/

namespace ShiftReduce

variable {V E : Type}

/-! ### Nested requests -/

namespace Request

/-- The request neither calls a state nor comes back to one. -/
def isLevel : Request V E → Bool
  | call _ | leave => false
  | _ => true

/-- Requests in which each call has its return and each return its call. -/
inductive Nested : List (Request V E) → Prop
  | nil : Nested []
  | level {request : Request V E} {rest : List (Request V E)} :
      request.isLevel = true → Nested rest → Nested (request :: rest)
  | enclosed {state : String} {inner rest : List (Request V E)} :
      Nested inner → Nested rest → Nested (.call state :: (inner ++ .leave :: rest))

theorem Nested.append {l l' : List (Request V E)} (h : Nested l) (h' : Nested l') :
  Nested (l ++ l')
  := by
  induction h with
  | nil => apply h'
  | level hlevel _ ih => apply Nested.level hlevel ih
  | enclosed hinner _ _ ih =>
      rw [List.cons_append, List.append_assoc, List.cons_append]
      apply Nested.enclosed hinner ih

/-- The call after the requests `earlier` is the last one without a return. -/
def Pending (earlier requests : List (Request V E)) : Prop :=
  ∃ state inner, requests = earlier ++ .call state :: inner ∧ Nested inner

theorem Pending.append {earlier requests l : List (Request V E)} (h : Pending earlier requests)
    (hl : Nested l) :
  Pending earlier (requests ++ l)
  := by
  obtain ⟨state, inner, rfl, hinner⟩ := h
  exact ⟨state, inner ++ l, by simp, hinner.append hl⟩

/-- A return closes the last call without one, and leaves the one before that. -/
theorem Pending.close {first earlier requests : List (Request V E)} (h : Pending earlier requests)
    (hfirst : Pending first earlier) :
  Pending first (requests ++ [.leave])
  := by
  obtain ⟨state, inner, rfl, hinner⟩ := h
  rw [List.append_assoc, List.cons_append]
  apply hfirst.append (.enclosed hinner .nil)

theorem Pending.length_lt {earlier requests : List (Request V E)} (h : Pending earlier requests) :
  earlier.length < requests.length
  := by
  obtain ⟨state, inner, rfl, -⟩ := h
  rw [List.length_append, List.length_cons]
  omega

end Request

/-! ### What they do to the states -/

namespace StateStack

/-- The states after a request.  Requests for rules leave them as they are. -/
def after (s : StateStack) : Request V E → StateStack
  | .jump state => s.jump state
  | .call state => s.call state
  | .leave => s.leave
  | .add _ _ => s
  | .remove _ => s

/-- The states after some requests. -/
def afterAll (s : StateStack) (requests : List (Request V E)) : StateStack :=
  requests.foldl after s

theorem afterAll_append (s : StateStack) (l l' : List (Request V E)) :
  s.afterAll (l ++ l') = (s.afterAll l).afterAll l'
  := List.foldl_append

theorem afterAll_cons (s : StateStack) (request : Request V E) (rest : List (Request V E)) :
  s.afterAll (request :: rest) = (s.after request).afterAll rest
  := rfl

theorem saved_after (s : StateStack) {request : Request V E} (h : request.isLevel = true) :
  (s.after request).saved = s.saved
  := by
  cases request with
  | call state => cases h
  | leave => cases h
  | _ => rfl

/-- A return goes back to what a call has saved if nothing else is saved above it. -/
theorem leave_of_saved_eq {s t : StateStack} {state : String}
    (h : t.saved = (s.call state).saved) :
  t.leave = s
  := by rw [leave, h, call]

/-- Nested requests leave the saved states as they are. -/
theorem saved_afterAll {requests : List (Request V E)} (h : Request.Nested requests)
    (s : StateStack) :
  (s.afterAll requests).saved = s.saved
  := by
  induction h generalizing s with
  | nil => rfl
  | level hlevel _ ih => exact (ih _).trans (s.saved_after hlevel)
  | @enclosed state inner rest _ _ ihinner ihrest =>
      have hreturn : ((s.call state).afterAll inner).leave = s :=
        leave_of_saved_eq (ihinner (s.call state))
      rw [afterAll_cons, afterAll_append, afterAll_cons]
      change ((((s.call state).afterAll inner).leave).afterAll rest).saved = s.saved
      rw [hreturn, ihrest]

/-- A call, nested requests and the return change nothing. -/
theorem afterAll_enclosed {inner : List (Request V E)} (h : Request.Nested inner)
    (s : StateStack) (state : String) :
  s.afterAll (.call state :: (inner ++ [.leave])) = s
  := by
  rw [afterAll_cons, afterAll_append]
  exact leave_of_saved_eq (saved_afterAll h (s.call state))

/-- A return restores the states before the last call without a return. -/
theorem afterAll_leave {earlier requests : List (Request V E)}
    (h : Request.Pending earlier requests) (s : StateStack) :
  s.afterAll (requests ++ [.leave]) = s.afterAll earlier
  := by
  obtain ⟨state, inner, rfl, hinner⟩ := h
  rw [List.append_assoc, List.cons_append, afterAll_append, afterAll_enclosed hinner]

/-- The states before the last call without a return are on top of what is saved. -/
theorem saved_of_pending {earlier requests : List (Request V E)}
    (h : Request.Pending earlier requests) (s : StateStack) :
  (s.afterAll requests).saved = (s.afterAll earlier).current :: (s.afterAll earlier).saved
  := by
  obtain ⟨state, inner, rfl, hinner⟩ := h
  rw [afterAll_append, afterAll_cons, saved_afterAll hinner]
  rfl

/-- Where nothing is saved a return leads to the default state. -/
theorem leave_of_saved_eq_nil {s : StateStack} (h : s.saved = []) :
  s.leave = initial
  := by
  rw [leave, h]
  rfl

end StateStack

/-! ### Which call a return belongs to -/

namespace Request

/-- A call whose state stays saved is not within nested requests. -/
theorem Pending.length_le {earlier earlier' requests : List (Request V E)}
    (h : Pending earlier requests) (h' : Pending earlier' requests) :
  earlier'.length ≤ earlier.length
  := by
  obtain ⟨state, inner, rfl, hinner⟩ := h
  obtain ⟨state', inner', heq, hinner'⟩ := h'
  rcases List.append_eq_append_iff.mp heq with ⟨between, rfl, hbetween⟩ | ⟨between, rfl, -⟩
  · cases between with
    | nil => simp
    | cons request between =>
        have hin : Pending between inner :=
          ⟨state', inner', (List.cons.inj hbetween).2, hinner'⟩
        have hempty := StateStack.saved_afterAll hinner .initial
        rw [StateStack.saved_of_pending hin] at hempty
        cases hempty
  · simp

/-- At most one call is the last one without a return. -/
theorem Pending.unique {earlier earlier' requests : List (Request V E)}
    (h : Pending earlier requests) (h' : Pending earlier' requests) :
  earlier = earlier'
  := by
  have hlength := Nat.le_antisymm (h'.length_le h) (h.length_le h')
  obtain ⟨state, inner, rfl, -⟩ := h
  obtain ⟨state', inner', heq, -⟩ := h'
  apply List.append_inj_left heq hlength

/-- Either some call is the last one without a return, or no state is saved any more.  When a
return comes back from the last call without a return, this call and all behind it are nested,
so what is before this call decides. -/
theorem exists_pending_or_saved_eq_nil (requests : List (Request V E)) {s : StateStack}
    (hs : s.saved = []) :
  (∃ earlier, Pending earlier requests) ∨ (s.afterAll requests).saved = []
  := by
  induction hlength : requests.length using Nat.strongRecOn generalizing requests with
  | _ n ih =>
      subst hlength
      rcases List.eq_nil_or_concat requests with rfl | ⟨former, request, rfl⟩
      · exact .inr hs
      rw [List.concat_eq_append] at ih ⊢
      have hformer := ih former.length (by simp) former rfl
      cases hlevel : request.isLevel with
      | true =>
          rw [StateStack.afterAll_append]
          apply hformer.imp
          · rintro ⟨earlier, hpending⟩
            exact ⟨earlier, hpending.append (.level hlevel .nil)⟩
          · exact (StateStack.saved_after _ hlevel).trans
      | false =>
          cases request with
          | call state => exact .inl ⟨former, state, [], rfl, .nil⟩
          | leave =>
              rcases hformer with ⟨earlier, hpending⟩ | hsaved
              · rw [StateStack.afterAll_leave hpending]
                have hshorter : earlier.length < (former ++ [leave]).length := by
                  rw [List.length_append]
                  apply Nat.lt_add_right _ hpending.length_lt
                apply (ih earlier.length hshorter earlier rfl).imp_left
                rintro ⟨first, hfirst⟩
                exact ⟨first, hpending.close hfirst⟩
              · right
                rw [StateStack.afterAll_append]
                exact congrArg StateStack.saved (StateStack.leave_of_saved_eq_nil hsaved)
          | _ => cases hlevel

end Request

/-! ### Tokenizations -/

section Library

variable [PatternLibrary]

namespace Tokenization

theorem states_after (t : Tokenization V E) (request : Request V E) :
  (t.after request).states = t.states.after request
  := by
  cases request with
  | add label rule =>
      rw [after, StateStack.after]
      cases hcompile : rule.compile with
      | error e =>
          rw [addRule_of_compile_error hcompile]
          rfl
      | ok compiled =>
          rw [addRule_of_compile hcompile]
          rfl
  | _ => rfl

theorem states_afterAll (t : Tokenization V E) (requests : List (Request V E)) :
  (t.afterAll requests).states = t.states.afterAll requests
  := by
  induction requests generalizing t with
  | nil => rfl
  | cons request rest ih =>
      rw [StateStack.afterAll_cons, ← states_after, ← ih]
      rfl

/-- In whatever states a tokenization is, a call of a state, nested requests and the return
leave it in the same states.  Let any requests be made from the start on, and then a return.  If
one of the calls is the last one without a return, it is the only such call, and the return
restores the states, the current one and the saved ones, in which the tokenization was before
it.  If there is no such call, the return leads to the default state, and no state is saved. -/
theorem returns_restore_calls :
  (∀ (t : Tokenization V E) (state : String) (inner : List (Request V E)),
    Request.Nested inner → (t.afterAll (.call state :: (inner ++ [.leave]))).states = t.states)
  ∧ ∀ (lexer : Lexer V E) (requests : List (Request V E)),
    (∀ earlier, Request.Pending earlier requests →
      (lexer.start.afterAll (requests ++ [.leave])).states
          = (lexer.start.afterAll earlier).states
        ∧ ∀ other, Request.Pending other requests → other = earlier)
    ∧ ((∀ earlier, ¬ Request.Pending earlier requests) →
      (lexer.start.afterAll (requests ++ [.leave])).states = .initial)
  := by
  constructor
  · intro t state inner hinner
    rw [states_afterAll, StateStack.afterAll_enclosed hinner]
  · intro lexer requests
    simp only [states_afterAll]
    constructor
    · intro earlier hpending
      use StateStack.afterAll_leave hpending lexer.start.states
      intro other hother
      apply hother.unique hpending
    · intro hnone
      have hsaved : (lexer.start.states.afterAll requests).saved = [] := by
        apply (Request.exists_pending_or_saved_eq_nil requests rfl).resolve_left
        rintro ⟨earlier, hpending⟩
        apply hnone earlier hpending
      rw [StateStack.afterAll_append]
      apply StateStack.leave_of_saved_eq_nil hsaved

end Tokenization

end Library

namespace Tokenization

/-- A call within another one, with jumps before and between them, and the return from it. -/
def callWithin : List (Request Unit Unit) :=
  [.jump "a", .call "b", .jump "c", .call "d", .leave]

/-- The second return belongs to the first call and restores the state of the jump before it.
The third one belongs to no call. -/
theorem returns_restore_calls_within :
  Request.Nested (V := Unit) (E := Unit) [.jump "c", .call "d", .leave]
    ∧ Request.Pending [.jump "a"] callWithin
    ∧ (∀ earlier, ¬ Request.Pending earlier (callWithin ++ [.leave]))
    ∧ ∃ lexer : Lexer Unit Unit,
      ((lexer.start.afterAll [.jump "a"]).afterAll
          (.call "b" :: ([.jump "c", .call "d", .leave] ++ [.leave]))).states = ⟨"a", []⟩
        ∧ (lexer.start.afterAll (callWithin ++ [.leave])).states = ⟨"a", []⟩
        ∧ (lexer.start.afterAll (callWithin ++ [.leave] ++ [.leave])).states = ⟨"default", []⟩
  := by
  have hnested : Request.Nested (V := Unit) (E := Unit) [.jump "c", .call "d", .leave] :=
    .level rfl (.enclosed .nil .nil)
  have hpending : Request.Pending [.jump "a"] callWithin := ⟨"b", _, rfl, hnested⟩
  have hnone : ∀ earlier, ¬ Request.Pending earlier (callWithin ++ [.leave]) := by
    intro earlier hearlier
    cases StateStack.saved_of_pending hearlier .initial
  obtain ⟨hcall, hreturn⟩ := returns_restore_calls (V := Unit) (E := Unit)
  use hnested, hpending, hnone, { rules := [] }
  refine ⟨?_, ?_, ?_⟩
  · apply hcall _ "b" _ hnested
  · apply ((hreturn _ callWithin).1 _ hpending).1
  · exact (hreturn { rules := [] } (callWithin ++ [.leave])).2 hnone

end Tokenization

end ShiftReduce
