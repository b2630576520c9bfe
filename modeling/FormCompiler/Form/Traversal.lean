import FormCompiler.Form.Basic

/-!
# Annotating traversal

A traversal visits every list and every atom once, parents before children
and left to right.  A visitor threads a state and answers with new metadata
for the node; the shape of the tree is out of its reach.
-/

namespace FormCompiler

/-- Looks at a node and gives its new metadata. -/
abbrev Visitor (State : Type) := Form → State → Metadata × State

structure Visitors (State : Type) where
  /-- Visitors of lists by head symbol, the latest first. -/
  lists : List (String × Visitor State) := []
  /-- The visitor of lists that no other one takes. -/
  otherList : Option (Visitor State) := none
  atom : Option (Visitor State) := none

namespace Visitors

variable {State : Type}

/-- The visitor that a list goes to. -/
def forList? (visitors : Visitors State) (form : Form) :
    Option (Visitor State) :=
  (form.head?.bind fun head => visitors.lists.lookup head).or visitors.otherList

/-- The metadata of a node after its visit, if it has a visitor. -/
def visit (visitor : Option (Visitor State)) (form : Form) (state : State) :
    Metadata × State :=
  match visitor with
  | some visitor => visitor form state
  | none => (form.note, state)

mutual

def traverse (visitors : Visitors State) : Form → State → Form × State
  | .atom note value, state =>
      let (note, state) := visit visitors.atom (.atom note value) state
      (.atom note value, state)
  | .group note .list items, state =>
      let form : Form := .group note .list items
      let (note, state) := visit (visitors.forList? form) form state
      let (items, state) := traverseList visitors items state
      (.group note .list items, state)
  | .group note bracket items, state =>
      let (items, state) := traverseList visitors items state
      (.group note bracket items, state)
  | .tagged note tag value, state =>
      let (value, state) := traverse visitors value state
      (.tagged note tag value, state)

def traverseList (visitors : Visitors State) :
    List Form → State → List Form × State
  | [], state => ([], state)
  | form :: forms, state =>
      let (form, state) := traverse visitors form state
      let (forms, state) := traverseList visitors forms state
      (form :: forms, state)

end

end Visitors

end FormCompiler
