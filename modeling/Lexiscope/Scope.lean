/-
  Lexiscope.Scope

  Scopes and the store that holds them.

  A scope binds names and may have a parent, in which names are looked up that
  it does not bind itself. Scopes are numbered in the order they are made, so a
  parent has a smaller number than its children, and the `chain` from a scope to
  its root is never longer than its number plus one.

  A function that is bound in the very scope it closes over is stored as its
  definition alone (`Binding.own`). Reading it gives the function back, and a
  copied scope gets functions that close over the copy.
-/
import Lexiscope.Value

namespace Lexiscope

-- ============================================================================
-- One scope
-- ============================================================================

/-- What a name stands for in a scope. -/
inductive Binding where
  /-- A value. -/
  | value (v : Value)
  /-- A function that closes over the scope that binds it. -/
  | own (definition : FunctionDef)
deriving Inhabited

namespace Binding

/-- The binding for a value in the given scope. -/
def ofValue (scope : ScopeId) : Value → Binding
  | .function f closure => if closure = scope then .own f else .value (.function f closure)
  | v => .value v

/-- The value of a binding in the given scope. -/
def toValue (scope : ScopeId) : Binding → Value
  | value v => v
  | own f => .function f scope

/-- A value is read as it was stored. -/
theorem toValue_ofValue (scope : ScopeId) (v : Value) : (ofValue scope v).toValue scope = v := by
  cases v with
  | function f closure =>
    by_cases h : closure = scope
    · simp [ofValue, toValue, h]
    · simp [ofValue, toValue, h]
  | _ => rfl

end Binding

/-- Names with what they stand for, and the scope around. -/
structure Scope where
  bindings : List (String × Binding)
  parent : Option ScopeId
deriving Inhabited

namespace Scope

/-- Puts a binding in the place of the one that the name has, or behind the others. -/
def insert (name : String) (b : Binding) : List (String × Binding) → List (String × Binding)
  | [] => [(name, b)]
  | (other, c) :: rest => if other = name then (name, b) :: rest else (other, c) :: insert name b rest

/-- What the name stands for in this scope itself. -/
def get? (s : Scope) (name : String) : Option Binding :=
  (s.bindings.find? fun entry => entry.1 = name).map Prod.snd

/-- Does this scope itself bind the name? -/
def binds (s : Scope) (name : String) : Bool := s.bindings.any fun entry => entry.1 = name

/-- A name is found with the binding that was put in last. -/
theorem find?_insert_self (name : String) (b : Binding) (bindings : List (String × Binding)) :
    (insert name b bindings).find? (fun entry => entry.1 = name) = some (name, b) := by
  induction bindings with
  | nil => simp [insert]
  | cons entry rest ih =>
    obtain ⟨other, c⟩ := entry
    by_cases h : other = name
    · simp [insert, h]
    · simp [insert, h, ih]

/-- Putting in a binding for one name changes nothing for another. -/
theorem find?_insert_of_ne {name other : String} (h : other ≠ name) (b : Binding)
    (bindings : List (String × Binding)) :
    (insert name b bindings).find? (fun entry => entry.1 = other)
      = bindings.find? (fun entry => entry.1 = other) := by
  induction bindings with
  | nil => simp [insert, h.symm]
  | cons entry rest ih =>
    obtain ⟨first, c⟩ := entry
    by_cases hf : first = name
    · simp [insert, hf, h.symm]
    · by_cases ho : first = other
      · simp [insert, ho, h]
      · simp [insert, hf, ho, ih]

/-- A scope binds exactly the names that it has something to say about. -/
theorem binds_eq_isSome_get? (s : Scope) (name : String) :
    s.binds name = (s.get? name).isSome := by
  rw [Bool.eq_iff_iff, get?, Option.isSome_map, List.find?_isSome, binds, List.any_eq_true]

end Scope

-- ============================================================================
-- The store
-- ============================================================================

/-- All scopes, by number. -/
structure Store where
  scopes : Array Scope
deriving Inhabited

namespace Store

/-- No scopes at all. -/
def empty : Store := ⟨#[]⟩

/-- The scope with this number. -/
def scope? (st : Store) (e : ScopeId) : Option Scope := st.scopes[e]?

/-- Makes a new scope with these bindings. -/
def push (st : Store) (s : Scope) : Store × ScopeId :=
  let made := st.scopes.size
  (⟨st.scopes.push s⟩, made)

/-- A new scope gets the first number that is free. -/
theorem scope?_push_self (st : Store) (s : Scope) : (st.push s).1.scope? (st.push s).2 = some s := by
  simp [push, scope?]

/-- A new scope leaves the others as they are. -/
theorem scope?_push_of_lt (st : Store) (s : Scope) {e : ScopeId} (h : e < st.scopes.size) :
    (st.push s).1.scope? e = st.scope? e := by
  simp only [push, scope?]
  rw [Array.getElem?_push_lt h, Array.getElem?_eq_getElem h]

/-- Makes a new scope that binds nothing and has no parent. -/
def newEmpty (st : Store) : Store × ScopeId := st.push ⟨[], none⟩

/-- Makes a new scope without a parent that binds the builtin functions. -/
def newGlobal (st : Store) : Store × ScopeId :=
  st.push ⟨Builtin.all.map fun b => (b.name, .value (.builtin b)), none⟩

/-- Makes a new scope inside another one. -/
def child (st : Store) (e : ScopeId) : Store × ScopeId := st.push ⟨[], some e⟩

/-- The scope around a scope. -/
def parent? (st : Store) (e : ScopeId) : Option ScopeId := (st.scope? e).bind Scope.parent

/-- The first `bound` scopes on the way from a scope to its root. -/
def chainUpTo (st : Store) : Nat → ScopeId → List ScopeId
  | 0, _ => []
  | bound + 1, e =>
    match st.scope? e with
    | none => []
    | some s =>
      match s.parent with
      | none => [e]
      | some p => e :: chainUpTo st bound p

/-- The scopes on the way from a scope to its root, nearest first. Parents are older than their
    children, so there are no more than the scope's number plus one. -/
def chain (st : Store) (e : ScopeId) : List ScopeId := st.chainUpTo (e + 1) e

/-- Does this scope itself bind the name? -/
def contains (st : Store) (e : ScopeId) (name : String) : Bool :=
  match st.scope? e with
  | some s => s.binds name
  | none => false

/-- The nearest scope on the way to the root that binds the name. -/
def nearest? (st : Store) (e : ScopeId) (name : String) : Option ScopeId :=
  (st.chain e).find? fun s => st.contains s name

/-- The value that the name has in this scope itself. -/
def localValue? (st : Store) (e : ScopeId) (name : String) : Option Value :=
  ((st.scope? e).bind fun s => s.get? name).map fun b => b.toValue e

/-- The value that the name has when it is looked up from this scope. -/
def get? (st : Store) (e : ScopeId) (name : String) : Option Value :=
  (st.nearest? e name).bind fun s => st.localValue? s name

/-- Binds the name in this scope itself, in place of what it stood for there. -/
def define (st : Store) (e : ScopeId) (name : String) (v : Value) : Store :=
  ⟨st.scopes.modify e fun s => { s with bindings := Scope.insert name (.ofValue e v) s.bindings }⟩

/-- Gives the name a new value in the nearest scope that binds it. Never binds a new name. -/
def assign? (st : Store) (e : ScopeId) (name : String) (v : Value) : Option Store :=
  (st.nearest? e name).map fun s => st.define s name v

/-- Unbinds every name of this scope itself. -/
def clear (st : Store) (e : ScopeId) : Store :=
  ⟨st.scopes.modify e fun s => { s with bindings := [] }⟩

/-- Copies scopes, given nearest first, and makes each copy the parent of the next nearer one.
    Gives the copy of the nearest. -/
def copyAll (st : Store) : List ScopeId → Store × Option ScopeId
  | [] => (st, none)
  | e :: outer =>
    let (st', parent) := copyAll st outer
    let bindings := ((st.scope? e).map Scope.bindings).getD []
    let (st'', copy) := st'.push ⟨bindings, parent⟩
    (st'', some copy)

/-- Copies a scope with all scopes around it. A function stored without its scope closes over the
    copy of that scope; every other value is shared. -/
def copy (st : Store) (e : ScopeId) : Store × ScopeId :=
  let (st', made) := st.copyAll (st.chain e)
  (st', made.getD e)

end Store

end Lexiscope
