import FormCompiler.Ir.Module
import FormCompiler.Text.Identifier

/-!
# Literals shared by a module

Equal literals of one kind share one constant of the module, which no other
module can see.  Literals are numbered in the order in which they first
appear.
-/

namespace FormCompiler

open Ir

inductive LiteralKind where
  /-- Text that ends with a zero byte. -/
  | text
  | bytes
deriving DecidableEq, Repr

def LiteralKind.stem : LiteralKind → String
  | .text => "__edn.cstr"
  | .bytes => "__edn.bytes"

structure Literal where
  kind : LiteralKind
  contents : List UInt8
deriving DecidableEq, Repr

/-- A text literal holds the bytes of the text and a zero. -/
def Literal.ofText (text : String) : Literal :=
  ⟨.text, utf8Bytes text ++ [0]⟩

def Literal.ofBytes (contents : List UInt8) : Literal := ⟨.bytes, contents⟩

/-- Literals with the constants that hold them, in order of appearance. -/
structure LiteralPool where
  entries : List (Literal × GlobalId) := []
deriving Repr

namespace LiteralPool

def size (pool : LiteralPool) : Nat := pool.entries.length

def find? (pool : LiteralPool) (literal : Literal) : Option GlobalId :=
  pool.entries.lookup literal

/-- The constant of a literal, added to the module where it is new. -/
def intern (pool : LiteralPool) (literal : Literal) :
    StateM Module (GlobalId × LiteralPool) := do
  match pool.find? literal with
  | some id => pure (id, pool)
  | none =>
      let byte ← Module.withTypes (TypeTable.int 8)
      let type ← Module.withTypes
        (TypeTable.array byte literal.contents.length)
      let id ← Module.addGlobal
        (literal.kind.stem ++ "." ++ toString (pool.size + 1)) type
        (some (.bytes literal.contents)) true .unlisted
      pure (id, ⟨pool.entries ++ [(literal, id)]⟩)

end LiteralPool

end FormCompiler
