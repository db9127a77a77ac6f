import ShiftReduce.Proofs.Automaton.Indexed
import ShiftReduce.Proofs.Grammar.Passes
import ShiftReduce.Proofs.Item.Passes
import ShiftReduce.Proofs.Table.Driving

/-!
# The construction of tables ends

None of the loops of the construction has a bound: those that find the nullable symbols, the
first sets and the closures make passes until one changes nothing, and edges are drawn until
no state waits for its edges, while states that are found join those that wait.  All of them
end (`ParseTable.construction_ends`), with the results that the bounded rounds have.
-/

namespace ShiftReduce

namespace Worklist

variable {g : Grammar}

/-- An edge is drawn as if the closure had been built in rounds. -/
theorem drawByPasses_eq (hg : g.Proper) (fingerprint : ItemSet → UInt64) (state : StateId)
    (w : Worklist) (i : SymbolId) :
  w.drawByPasses fingerprint g state i = some (w.draw fingerprint g state i)
  := by
  rw [drawByPasses, ItemSet.closureByPasses_eq hg]
  rfl

theorem foldlM_drawByPasses (hg : g.Proper) (fingerprint : ItemSet → UInt64) (state : StateId)
    (w : Worklist) (symbols : List SymbolId) :
  symbols.foldlM (drawByPasses fingerprint g state) w
    = some (symbols.foldl (draw fingerprint g state) w)
  := by
  induction symbols generalizing w with
  | nil => rfl
  | cons i rest ih =>
      rw [List.foldlM_cons, drawByPasses_eq hg]
      apply ih

/-- Drawing goes on after a step, and ends where there is none. -/
theorem drain_eq (hg : g.Proper) (fingerprint : ItemSet → UInt64) (w : Worklist) :
  w.drain fingerprint g
    = match w.step fingerprint g with
      | none => some w
      | some w => w.drain fingerprint g
  := by
  rw [drain, step]
  cases w.pending with
  | nil => rfl
  | cons state rest =>
      simp only [foldlM_drawByPasses hg]
      rfl

/-- If no state waits after some number of steps, drawing ends there. -/
theorem drain_of_run (hg : g.Proper) {fingerprint : ItemSet → UInt64} {n : Nat} {w : Worklist}
    (h : (run fingerprint g n w).pending = []) :
  w.drain fingerprint g = some (run fingerprint g n w)
  := by
  induction n generalizing w with
  | zero =>
      have hstep : w.step fingerprint g = none := by
        rw [step, show w.pending = [] from h]
      rw [drain_eq hg, hstep]
      rfl
  | succ n ih =>
      rw [drain_eq hg]
      rw [run] at h ⊢
      cases hstep : w.step fingerprint g with
      | none => rfl
      | some w =>
          rw [hstep] at h
          apply ih h

/-- Drawing ends with the worklist that is complete. -/
theorem byPasses_eq (hg : g.Proper) (fingerprint : ItemSet → UInt64) :
  byPasses fingerprint g = some (complete fingerprint g)
  := by
  rw [byPasses, ItemSet.closureByPasses_eq hg]
  apply drain_of_run hg
  apply pending_complete hg

end Worklist

/-- The passes over the rules of a grammar end, and find its nullable symbols and its first
sets. -/
theorem Grammar.Proper.byPasses_eq {g : Grammar} (hg : g.Proper) :
  nullableByPasses g.allRules = some g.firstSets.nullable
    ∧ FirstSets.byPasses g.kinds g.allRules = some g.firstSets
  := by
  rw [g.firstSets_eq]
  constructor
  · rw [FirstSets.nullable_compute]
    apply nullableByPasses_eq
  · apply FirstSets.byPasses_eq
    intro r hr
    rw [Grammar.size_kinds]
    obtain ⟨id, hid⟩ := Grammar.mem_allRules.mp hr
    apply (hg.lhs_of_rule? hid).2.1

namespace ParseTable

variable {V E : Type} {language : Language V E} {g : Grammar}

/-- All loops of the construction of a table end: the passes over the rules, which find the
nullable symbols and the first sets; the passes over the items of a kernel, whatever items
these are, which find its closure; and the drawing of edges with every choice of
fingerprints, after which no state waits and the states are those of the canonical automaton.
So a table comes of every strategy. -/
theorem construction_ends (hl : language.Definable)
    (hg : Grammar.ofLanguage language = .ok g) :
  nullableByPasses g.allRules = some g.firstSets.nullable
    ∧ FirstSets.byPasses g.kinds g.allRules = some g.firstSets
    ∧ (∀ kernel, ItemSet.closureByPasses g kernel = some (ItemSet.closure g kernel))
    ∧ (∀ fingerprint, ∃ w, Worklist.byPasses fingerprint g = some w ∧ w.pending = []
      ∧ w.nodes = (Automaton.canonical g).nodes)
    ∧ ∀ strategy, ∃ t, generate g strategy = .ok t
  := by
  have hproper := (Grammar.encodes_of_ofLanguage hg).proper hl
  obtain ⟨hnullable, hfirst⟩ := hproper.byPasses_eq
  use hnullable, hfirst, ItemSet.closureByPasses_eq hproper
  constructor
  · intro fingerprint
    have heq := Automaton.indexed_eq_canonical hproper fingerprint
    use Worklist.complete fingerprint g, Worklist.byPasses_eq hproper fingerprint
    use Worklist.pending_complete hproper fingerprint
    rw [← heq]
    rfl
  · apply exists_generate hproper

/-- Where all fingerprints are the same, the construction ends all the same, and so it does
with a kernel whose rule and lookahead are those of a larger grammar. -/
theorem construction_ends_crossed :
  (∃ w, Worklist.byPasses (fun _ => 0) .crossed = some w ∧ w.pending = []
      ∧ w.nodes = (Automaton.canonical .crossed).nodes)
    ∧ ItemSet.closureByPasses .crossed [⟨⟨.user 100, 2⟩, .singleton 1000⟩]
      = some (ItemSet.closure .crossed [⟨⟨.user 100, 2⟩, .singleton 1000⟩])
  := by
  obtain ⟨-, -, hclosure, hdrawn, -⟩ :=
    construction_ends Language.crossed_definable Grammar.ofLanguage_crossed
  exact ⟨hdrawn fun _ => 0, hclosure _⟩

end ParseTable

end ShiftReduce
