/-!
# Finite maps from names

An entry made later hides the earlier entries of its name.
-/

namespace FormCompiler

structure NameMap (Value : Type) where
  entries : List (String × Value) := []
deriving Repr, Inhabited

namespace NameMap

variable {Value : Type}

def empty : NameMap Value := ⟨[]⟩

def find? (map : NameMap Value) (name : String) : Option Value :=
  map.entries.lookup name

def erase (map : NameMap Value) (name : String) : NameMap Value :=
  ⟨map.entries.filter fun entry => !(name == entry.1)⟩

def insert (map : NameMap Value) (name : String) (value : Value) :
    NameMap Value :=
  ⟨(name, value) :: (map.erase name).entries⟩

def size (map : NameMap Value) : Nat := map.entries.length

def names (map : NameMap Value) : List String := map.entries.map Prod.fst

@[simp]
theorem find?_empty (name : String) :
    (empty : NameMap Value).find? name = none := rfl

theorem lookup_filter_ne (name other : String) (different : name ≠ other)
    (entries : List (String × Value)) :
    (entries.filter fun entry => !(other == entry.1)).lookup name =
      entries.lookup name := by
  induction entries with
  | nil => rfl
  | cons entry entries ih =>
      by_cases same : other = entry.1
      · have apart : (name == entry.1) = false := by
          simpa [same] using different
        rw [List.filter_cons_of_neg (by simp [same]), List.lookup_cons, apart,
          ih]
      · rw [List.filter_cons_of_pos (by simpa using same), List.lookup_cons,
          List.lookup_cons, ih]

theorem lookup_filter_self (name : String)
    (entries : List (String × Value)) :
    (entries.filter fun entry => !(name == entry.1)).lookup name = none := by
  induction entries with
  | nil => rfl
  | cons entry entries ih =>
      by_cases same : name = entry.1
      · rw [List.filter_cons_of_neg (by simp [same]), ih]
      · have apart : (name == entry.1) = false := by simpa using same
        rw [List.filter_cons_of_pos (by simp [same]), List.lookup_cons, apart,
          ih]

/-- Erasing a name removes its entry and no other. -/
theorem find?_erase (map : NameMap Value) (name other : String) :
    (map.erase other).find? name =
      if name = other then none else map.find? name := by
  split
  · next same => rw [same]; exact lookup_filter_self other map.entries
  · next different => exact lookup_filter_ne name other different map.entries

/-- The latest value of a name is found, and no other name is touched. -/
theorem find?_insert (map : NameMap Value) (name other : String)
    (value : Value) :
    (map.insert other value).find? name =
      if name = other then some value else map.find? name := by
  by_cases same : name = other
  · simp [insert, find?, same]
  · have apart : (name == other) = false := by simpa using same
    simp only [insert, find?, List.lookup_cons, apart, same, if_false]
    exact lookup_filter_ne name other same map.entries

end NameMap

end FormCompiler
