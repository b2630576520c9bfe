import FormCompiler.Form.Basic
import FormCompiler.Emit.Problem

/-!
# Shapes of instruction forms

Names of locals are written with a percent sign, which is not part of the
name.  Keyword arguments are a tail of keywords and values; reading stops at
the first item in a keyword's place that is none.
-/

namespace FormCompiler

/-- A name without its percent sign, unless nothing is left of it. -/
def localName? (form : Form) : Option String :=
  form.name?.bind fun name =>
    let stripped :=
      match name.toList with
      | '%' :: rest => rest
      | characters => characters
    if stripped.isEmpty then none else some (String.ofList stripped)

/-- Whether a form is a symbol of the form `%name`. -/
def isLocalReference (form : Form) : Bool :=
  match form.symbol?.map String.toList with
  | some ('%' :: _ :: _) => true
  | _ => false

/-- Requires a number of items, the head included. -/
def expectLength (items : List Form) (length : Nat) (shape : String) :
    Except ProblemCause Unit :=
  if items.length = length then .ok () else .error (.malformed shape)

/-- The item at a position, which must be within the form. -/
def itemAt (items : List Form) (index : Nat) (shape : String) :
    Except ProblemCause Form :=
  match items[index]? with
  | some item => .ok item
  | none => .error (.outOfRange shape)

/-- The symbol or string at a position, which must be within the form. -/
def itemSymbolAt (items : List Form) (index : Nat) (shape : String) :
    Except ProblemCause String :=
  match items[index]? with
  | some item =>
      match item.name? with
      | some name => .ok name
      | none => .error (.malformed shape)
  | none => .error (.outOfRange shape)

/-- What follows from a position on, which must not be beyond the end. -/
def itemsFrom {Item : Type} (items : List Item) (start : Nat)
    (shape : String) : Except ProblemCause (List Item) :=
  if start ≤ items.length then .ok (items.drop start)
  else .error (.outOfRange shape)

theorem itemsFrom_eq_ok {Item : Type} {items rest : List Item} {start : Nat}
    {shape : String} (read : itemsFrom items start shape = .ok rest) :
    rest = items.drop start := by
  unfold itemsFrom at read
  split at read
  · exact (Except.ok.inj read).symm
  · cases read

/-- The name at a position. -/
def nameAt (items : List Form) (index : Nat) (shape : String) :
    Except ProblemCause String :=
  match items[index]?.bind localName? with
  | some name => .ok name
  | none => .error (.malformed shape)

/-- The symbol or string at a position. -/
def symbolAt (items : List Form) (index : Nat) (shape : String) :
    Except ProblemCause String :=
  match items[index]?.bind Tree.name? with
  | some name => .ok name
  | none => .error (.malformed shape)

/-- The items of the vector at a position. -/
def vectorAt (items : List Form) (index : Nat) (shape : String) :
    Except ProblemCause (List Form) :=
  match items[index]?.bind Tree.vector? with
  | some elements => .ok elements
  | none => .error (.malformed shape)

/-- Values by keyword, in the order in which they are written. -/
structure KeywordArguments where
  pairs : List (String × Form)

namespace KeywordArguments

def readPairs : List Form → List (String × Form)
  | key :: value :: rest =>
      match key.keyword? with
      | some name => (name, value) :: readPairs rest
      | none => []
  | _ => []

def ofItems (items : List Form) : KeywordArguments := ⟨readPairs items⟩

/-- The arguments from a position on. -/
def follow (items : List Form) (start : Nat) (shape : String) :
    Except ProblemCause KeywordArguments :=
  (itemsFrom items start shape).map ofItems

theorem follow_eq_ok {items : List Form} {start : Nat} {shape : String}
    {arguments : KeywordArguments}
    (read : follow items start shape = .ok arguments) :
    arguments = ofItems (items.drop start) := by
  unfold follow at read
  cases found : itemsFrom items start shape with
  | error cause =>
      rw [found] at read
      cases read
  | ok rest =>
      rw [found] at read
      cases read
      rw [itemsFrom_eq_ok found]

/-- The arguments of a list, which follow its head. -/
def ofForm (form : Form) : KeywordArguments :=
  ofItems (form.list?.getD []).tail

/-- The first value of a keyword. -/
def get? (arguments : KeywordArguments) (key : String) : Option Form :=
  arguments.pairs.lookup key

def vector? (arguments : KeywordArguments) (key : String) :
    Option (List Form) :=
  (arguments.get? key).bind Tree.vector?

def name? (arguments : KeywordArguments) (key : String) : Option String :=
  (arguments.get? key).bind localName?

/-- The name under a keyword as it is written. -/
def symbol? (arguments : KeywordArguments) (key : String) : Option String :=
  (arguments.get? key).bind Tree.name?

def flag (arguments : KeywordArguments) (key : String) : Bool :=
  ((arguments.get? key).bind Tree.bool?).getD false

end KeywordArguments

/-- Splits a body that follows the value already seen. -/
def splitBody (value : Option String) :
    List Form → List Form × Option String
  | [] => ([], value)
  | item :: rest =>
      if item.keyword? = some "value" then
        match rest with
        | [] => ([], none)
        | operand :: rest => splitBody (localName? operand) rest
      else
        let (body, value) := splitBody value rest
        (item :: body, value)

/-- Splits a body into its instructions and the name after the last
`:value`.  What follows a `:value` is never an instruction. -/
def bodyAndValue (items : List Form) : List Form × Option String :=
  splitBody none items

end FormCompiler
