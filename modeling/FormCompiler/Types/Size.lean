import FormCompiler.Types.Table

/-!
# Sizes and alignments

Every field of a struct starts at the next multiple of its alignment, and the
size of a struct is rounded up to its own.  A type can only contain itself by
value through the body of a named struct; where none does, containment is no
deeper than there are types that contain others, which is the depth that sizes
are computed to.
-/

namespace FormCompiler

/-- The next multiple of `alignment` at or above `offset`. -/
def alignUp (offset alignment : Nat) : Nat :=
  (offset + max alignment 1 - 1) / max alignment 1 * max alignment 1

/-- The bytes of an integer, a power of two. -/
def intBytes (bits : Nat) : Nat := ((bits + 7) / 8).nextPowerOfTwo

/-- Whether types of a kind hold others by value. -/
def TypeKind.isContainer : TypeKind → Bool
  | .array .. | .struct _ | .named _ => true
  | _ => false

namespace TypeTable

/-- The depth beyond which containment never ends. -/
def levels (table : TypeTable) : Nat :=
  (table.kinds.filter TypeKind.isContainer).length + 1

/-- Alignment, seen through at most `depth` levels of containment. -/
def alignWithin (table : TypeTable) : (depth : Nat) → TypeId → Nat
  | 0, _ => 1
  | depth + 1, type =>
      match table.kind type with
      | .int bits => min (intBytes bits) 8
      | .float => 4
      | .double => 8
      | .pointer _ => 8
      | .array element _ => table.alignWithin depth element
      | .struct _ | .named _ =>
          ((table.fields? type).getD []).foldl
            (fun greatest field =>
              max greatest (table.alignWithin depth field)) 1
      | .void | .function .. | .label | .token => 1

/-- The alignment of a type in bytes. -/
def align (table : TypeTable) (type : TypeId) : Nat :=
  table.alignWithin table.levels type

/-- Size, seen through at most `depth` levels of containment. -/
def sizeWithin (table : TypeTable) : (depth : Nat) → TypeId → Nat
  | 0, _ => 0
  | depth + 1, type =>
      match table.kind type with
      | .int bits => intBytes bits
      | .float => 4
      | .double => 8
      | .pointer _ => 8
      | .array element length => table.sizeWithin depth element * length
      | .struct _ | .named _ =>
          alignUp
            (((table.fields? type).getD []).foldl
              (fun offset field =>
                alignUp offset (table.align field) +
                  table.sizeWithin depth field) 0)
            (table.align type)
      | .void | .function .. | .label | .token => 0

/-- The size of a type in bytes, padding at its end included. -/
def size (table : TypeTable) (type : TypeId) : Nat :=
  table.sizeWithin table.levels type

end TypeTable

end FormCompiler
