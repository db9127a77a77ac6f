import ShiftReduce.Symbol
import ShiftReduce.Grammar.SymbolSet

/-!
# Symbol tables

A symbol table numbers symbols in the order in which they are first met.  It keeps the
symbols by number and the numbers by symbol; that the two agree is part of the type, and
says that the table is a bijection between its symbols and the numbers below its size
(`SymbolTable.id?_eq_some_iff`).
-/

namespace ShiftReduce

/-- A numbering of symbols. -/
structure SymbolTable where
  symbols : Array Symbol
  ids : Std.TreeMap Symbol SymbolId
  agree : ∀ (s : Symbol) (i : SymbolId), ids[s]? = some i ↔ symbols[i]? = some s

namespace SymbolTable

/-- The table without symbols. -/
def empty : SymbolTable where
  symbols := #[]
  ids := ∅
  agree := by simp

/-- The number of symbols. -/
def size (t : SymbolTable) : Nat :=
  t.symbols.size

/-- The number of a symbol. -/
def id? (t : SymbolTable) (s : Symbol) : Option SymbolId :=
  t.ids[s]?

/-- The symbol with a number. -/
def symbol? (t : SymbolTable) (i : SymbolId) : Option Symbol :=
  t.symbols[i]?

/-- Whether a symbol has a number. -/
def contains (t : SymbolTable) (s : Symbol) : Bool :=
  (t.id? s).isSome

/-- The symbols in the order of their numbers. -/
def toList (t : SymbolTable) : List Symbol :=
  t.symbols.toList

theorem id?_eq_some_iff {t : SymbolTable} {s : Symbol} {i : SymbolId} :
  t.id? s = some i ↔ t.symbol? i = some s
  := t.agree s i

/-- The next number belongs to a symbol that has none yet. -/
theorem agree_push {t : SymbolTable} {s : Symbol} (h : t.id? s = none)
    (s' : Symbol) (i : SymbolId) :
  (t.ids.insert s t.symbols.size)[s']? = some i ↔ (t.symbols.push s)[i]? = some s'
  := by
  rw [Std.TreeMap.getElem?_insert, Array.getElem?_push]
  have hagree := t.agree
  by_cases hs : s = s'
  · subst hs
    have hnot : ∀ j : SymbolId, t.symbols[j]? ≠ some s := by
      intro j hj
      have := (hagree s j).mpr hj
      simp [id?] at h
      simp [h] at this
    by_cases hi : i = t.symbols.size
    · simp [hi]
    · simp [hi, hnot i, Ne.symm hi]
  · have hcompare : compare s s' ≠ .eq := fun e => hs (Std.LawfulEqOrd.eq_of_compare e)
    by_cases hi : i = t.symbols.size
    · subst hi
      simp [hcompare, hs, hagree s' t.symbols.size]
    · simp [hcompare, hi, hagree s' i]

/-- The number of a symbol, in the table that has given it the next number if it had
none. -/
def intern (t : SymbolTable) (s : Symbol) : SymbolTable × SymbolId :=
  match h : t.id? s with
  | some i => (t, i)
  | none =>
    let i := t.symbols.size
    (⟨t.symbols.push s, t.ids.insert s i, agree_push h⟩, i)

/-- The numbers of several symbols, in the table that has given the next numbers to those
that had none. -/
def internMany (t : SymbolTable) (l : List Symbol) : SymbolTable × List SymbolId :=
  let (t, ids) := l.foldl
    (fun (t, ids) s =>
      let (t, i) := t.intern s
      (t, ids.push i))
    (t, (#[] : Array SymbolId))
  (t, ids.toList)

/-- The table of the symbols of a list. -/
def ofList (l : List Symbol) : SymbolTable :=
  (empty.internMany l).1

end SymbolTable

end ShiftReduce
