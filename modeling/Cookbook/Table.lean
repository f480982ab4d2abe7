/-!
# Tables

A table holds values under keys, in the order in which the keys were first
set.  A key that is set again keeps its place and gets the new value.
-/

namespace Cookbook

/-- Values under distinct keys, in the order in which the keys were first set. -/
structure Table (Value : Type) where
  entries : List (String × Value)
  distinct : (entries.map Prod.fst).Nodup

namespace Table

variable {Value : Type} {table other : Table Value} {key : String} {value : Value}

def empty : Table Value :=
  ⟨[], List.nodup_nil⟩

def keys (table : Table Value) : List String :=
  table.entries.map Prod.fst

def values (table : Table Value) : List Value :=
  table.entries.map Prod.snd

def get? (table : Table Value) (key : String) : Option Value :=
  table.entries.lookup key

def contains (table : Table Value) (key : String) : Bool :=
  (table.get? key).isSome

/-- Entries with one more key, or with a new value under a key that is there. -/
def put (key : String) (value : Value) : List (String × Value) → List (String × Value)
  | [] => [(key, value)]
  | entry :: rest =>
    if entry.1 = key then (key, value) :: rest else entry :: put key value rest

theorem put_of_mem
    {entries : List (String × Value)}
    (member : key ∈ entries.map Prod.fst) :
    (put key value entries).map Prod.fst = entries.map Prod.fst := by
  induction entries with
  | nil => cases member
  | cons entry rest ih =>
    rw [put]
    split
    · rename_i same
      simp [same]
    · rename_i different
      rw [List.map_cons, List.mem_cons] at member
      rw [List.map_cons, List.map_cons, ih (member.resolve_left (Ne.symm different))]

theorem put_of_not_mem
    {entries : List (String × Value)}
    (new : key ∉ entries.map Prod.fst) :
    put key value entries = entries ++ [(key, value)] := by
  induction entries with
  | nil => rfl
  | cons entry rest ih =>
    rw [List.map_cons, List.mem_cons, not_or] at new
    rw [put, if_neg (Ne.symm new.1), ih new.2]
    rfl

/-- Setting a key never makes it occur twice. -/
theorem nodup_put
    {entries : List (String × Value)}
    (distinct : (entries.map Prod.fst).Nodup) :
    ((put key value entries).map Prod.fst).Nodup := by
  by_cases member : key ∈ entries.map Prod.fst
  · rw [put_of_mem member]
    exact distinct
  · rw [put_of_not_mem member, List.map_append]
    have single : [key].Nodup := List.nodup_cons.mpr ⟨List.not_mem_nil, List.nodup_nil⟩
    refine List.nodup_append.mpr ⟨distinct, single, ?_⟩
    intro earlier inEntries last isLast same
    rw [List.map_cons, List.map_nil, List.mem_singleton] at isLast
    rw [same, isLast] at inEntries
    exact member inEntries

/-- Sets a key to a value. -/
def set (table : Table Value) (key : String) (value : Value) : Table Value :=
  ⟨put key value table.entries, nodup_put table.distinct⟩

theorem eq_of_entries_eq
    (same : table.entries = other.entries) :
    table = other := by
  cases table
  cases other
  cases same
  rfl

theorem entries_set_of_not_mem
    (new : key ∉ table.keys) :
    (table.set key value).entries = table.entries ++ [(key, value)] :=
  put_of_not_mem new

end Table

end Cookbook
