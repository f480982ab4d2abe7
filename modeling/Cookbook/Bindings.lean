import Cookbook.Failure

/-!
# Variable bindings

The variables of a recipe book have text values and keep the order of their
definition.  No variable is defined twice, and a binding is never changed.
-/

namespace Cookbook

/-- A value as a book may state it; every value is kept as text. -/
inductive Value
  | text (content : String)
  | integer (number : Int)
  | truth (holds : Bool)
  | absent
  deriving DecidableEq

/-- The text that stands for a value. -/
def Value.written : Value → String
  | .text content => content
  | .integer number => toString number
  | .truth true => "True"
  | .truth false => "False"
  | .absent => "None"

/-- Variables with their values, in order of definition. -/
structure Bindings where
  entries : List (String × String)
  distinct : (entries.map Prod.fst).Nodup

namespace Bindings

def empty : Bindings :=
  ⟨[], List.nodup_nil⟩

def names (bindings : Bindings) : List String :=
  bindings.entries.map Prod.fst

def value? (bindings : Bindings) (name : String) : Option String :=
  bindings.entries.lookup name

def contains (bindings : Bindings) (name : String) : Bool :=
  bindings.names.contains name

def require (bindings : Bindings) (name : String) : Except Failure String :=
  match bindings.value? name with
  | some value => .ok value
  | none => .error (.undefinedVariable name none none)

/-- Defines one more variable. -/
def define (bindings : Bindings) (name value : String) : Except Failure Bindings :=
  if fresh : name ∉ bindings.names then
    .ok ⟨bindings.entries ++ [(name, value)], by
      rw [List.map_append]
      refine List.nodup_append.mpr ⟨bindings.distinct, by simp, ?_⟩
      intro left member right same
      simp only [List.map_cons, List.map_nil, List.mem_singleton] at same
      subst same
      exact fun equal => fresh (equal ▸ member)⟩
  else
    .error (.variableTaken name)

/-- Defines variables one after the other. -/
def defineAll (bindings : Bindings) : List (String × String) → Except Failure Bindings
  | [] => .ok bindings
  | (name, value) :: rest =>
    match bindings.define name value with
    | .ok extended => extended.defineAll rest
    | .error failure => .error failure

def ofList (definitions : List (String × Value)) : Except Failure Bindings :=
  empty.defineAll (definitions.map fun definition => (definition.1, definition.2.written))

end Bindings

end Cookbook
