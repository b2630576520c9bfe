/-!
# Unique names

A table of taken names hands out a name as it is while it is free, and
otherwise the name followed by a number that no earlier name used up.  The
numbers of a table only grow.
-/

namespace FormCompiler.Ir

/-- A name up to its first NUL character. -/
def nameBeforeNul (name : String) : String :=
  String.ofList (name.toList.takeWhile (· ≠ '\x00'))

/-- A name without its NUL characters. -/
def nameWithoutNul (name : String) : String :=
  String.ofList (name.toList.filter (· ≠ '\x00'))

structure NameTable where
  taken : List String := []
  counter : Nat := 0
deriving DecidableEq, Repr

namespace NameTable

/-- Counts up until the numbered name is free.  One more attempt than there
are taken names always suffices. -/
def firstFree (taken : List String) (stem : String) :
    (attempts : Nat) → (counter : Nat) → String × Nat
  | 0, counter => (stem ++ toString (counter + 1), counter + 1)
  | attempts + 1, counter =>
      let candidate := stem ++ toString (counter + 1)
      if taken.contains candidate then
        firstFree taken stem attempts (counter + 1)
      else (candidate, counter + 1)

/-- Takes a name, numbered after `separator` if it is not free.  The empty
name is never taken. -/
def reserve (table : NameTable) (separator name : String) :
    String × NameTable :=
  if name.isEmpty then (name, table)
  else if table.taken.contains name then
    let (free, counter) := firstFree table.taken (name ++ separator)
      table.taken.length table.counter
    (free, { taken := free :: table.taken, counter })
  else (name, { table with taken := name :: table.taken })

/-- Gives a name back. -/
def release (table : NameTable) (name : String) : NameTable :=
  { table with taken := table.taken.filter (· ≠ name) }

end NameTable

end FormCompiler.Ir
