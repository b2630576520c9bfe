import FormCompiler.Emit.Opcode
import FormCompiler.Emit.Shape

/-!
# Names that need a stack slot

A name is mutable when a function body defines it more than once, declares or
assigns it as a variable, makes it the local of a block, or takes its
address.  Parameters and the bindings of a match count as definitions.  Every
other name keeps the one value it is defined as.
-/

namespace FormCompiler

mutual

/-- The list forms in a body, outer ones first.  Sets, maps and tagged forms
hold no instructions. -/
def nestedLists : Form → List Form
  | .group note .list items =>
      .group note .list items :: nestedListsAll items
  | .group _ .vector items => nestedListsAll items
  | _ => []

def nestedListsAll : List Form → List Form
  | [] => []
  | form :: forms => nestedLists form ++ nestedListsAll forms

end

/-- The local name at a position of a list form. -/
def listNameAt? (form : Form) (index : Nat) : Option String :=
  ((form.list?.getD [])[index]?).bind localName?

/-- The name that a list form defines by itself. -/
def definedName? (form : Form) : Option String :=
  match form.head? with
  | none => none
  | some "local" => none
  | some "bind" => listNameAt? form 1
  | some head =>
      match Opcode.ofHead? head with
      | some .sumMatch =>
          if ((form.list?.getD [])[1]?).any isLocalReference then
            listNameAt? form 1
          else none
      | some opcode =>
          if opcode.definesResult then listNameAt? form 1 else none
      | none => none

/-- The name that a list form makes mutable by itself. -/
def markedName? (form : Form) : Option String :=
  match form.head? with
  | none => none
  | some "local" => listNameAt? form 2
  | some "bind" => none
  | some head =>
      match Opcode.ofHead? head with
      | some .address => listNameAt? form 3
      | some .assign => listNameAt? form 1
      | some .localVariable => listNameAt? form 1
      | _ => none

/-- Every definition in a body, with repetitions. -/
def definedNames (body : List Form) : List String :=
  (nestedListsAll body).filterMap definedName?

/-- Every name that some form of a body makes mutable. -/
def markedNames (body : List Form) : List String :=
  (nestedListsAll body).filterMap markedName?

/-- The names of a function that must live in a stack slot. -/
def mutableNames (parameters : List String) (body : List Form) :
    List String :=
  let defined := parameters ++ definedNames body
  (defined.filter (fun name => 1 < defined.count name) ++
    markedNames body).eraseDups

end FormCompiler
