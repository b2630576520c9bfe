import FormCompiler.Form.Traversal
import FormCompiler.Diagnostic

/-!
# Exhaustive matches

A match over a declared sum is exhaustive when it has a default arm or a case
for every variant.  Checking annotates each match over a declared sum with
`exhaustive` and `missing-variants`, the variants without a case in
declaration order, and reports each match that misses one.  Matches over
undeclared sums are left alone.
-/

namespace FormCompiler.Coverage

/-- The value after the first keyword of a given name, where keywords and
values alternate. -/
def keywordValue? (key : String) : List Form → Option Form
  | keyword :: value :: rest =>
      if keyword.keyword? = some key then some value
      else keywordValue? key rest
  | _ => none

/-- The variant names of the declared sums, by sum name, the latest
declaration first. -/
structure SumVariants where
  sums : List (String × List String)

/-- The variant names that a sum declaration lists. -/
def declaredVariants (arguments : List Form) : List String :=
  (((keywordValue? "variants" arguments).bind Tree.vector?).getD []).filterMap
    fun variant =>
      if variant.head? = some "variant" then
        variant.list?.bind fun items =>
          (keywordValue? "name" items.tail).bind Tree.name?
      else none

/-- The name and the variants of a `(sum ..)` declaration. -/
def declaredSum? (form : Form) : Option (String × List String) :=
  if form.head? = some "sum" then
    form.list?.bind fun items =>
      ((keywordValue? "name" items.tail).bind Tree.name?).map fun name =>
        (name, declaredVariants items.tail)
  else none

namespace SumVariants

def collect (forms : List Form) : SumVariants :=
  ⟨(forms.filterMap declaredSum?).reverse⟩

def variants? (declared : SumVariants) (sum : String) :
    Option (List String) :=
  declared.sums.lookup sum

end SumVariants

/-- The sum name and the keyword arguments of a match.  A match that names a
result has the name and its type first. -/
def matchParts? (form : Form) : Option (String × List Form) :=
  form.list?.bind fun items =>
    items[1]?.bind fun first =>
      let base :=
        match first.symbol?.map String.toList with
        | some ('%' :: _ :: _) => 3
        | _ => 1
      items[base]?.bind fun sum =>
        sum.name?.map fun name => (name, items.drop (base + 2))

/-- The variants that the cases of a match name. -/
def coveredVariants (arguments : List Form) : List String :=
  (((keywordValue? "cases" arguments).bind Tree.vector?).getD []).filterMap
    fun case =>
      if case.head? = some "case" then
        case.list?.bind fun items => items[1]?.bind Tree.name?
      else none

def hasDefault (arguments : List Form) : Bool :=
  (keywordValue? "default" arguments).isSome

/-- The variants that a match misses, in declaration order. -/
def missingVariants (variants : List String) (arguments : List Form) :
    List String :=
  if hasDefault arguments then []
  else variants.filter fun variant =>
    !(coveredVariants arguments).contains variant

/-- The report of a match that misses variants. -/
def diagnostic (sum : String) (missing : List String) (span : Option Span) :
    Diagnostic :=
  let names := ", ".intercalate (missing.map fun name => s!"`{name}`")
  ((Diagnostic.error .inexhaustiveMatch
      s!"non-exhaustive match on `{sum}`").withLabel? span
      s!"missing {names}").withNote
    "add the missing cases or a :default arm"

/-- The annotated metadata of a match and its report, if any. -/
def checkMatch (declared : SumVariants) (form : Form) :
    Metadata × Option Diagnostic :=
  match matchParts? form with
  | none => (form.note, none)
  | some (sum, arguments) =>
      match declared.variants? sum with
      | none => (form.note, none)
      | some variants =>
          let missing := missingVariants variants arguments
          let note :=
            (form.note.insert "exhaustive" (.bool missing.isEmpty)).insert
              "missing-variants" (.vector (missing.map .symbol))
          (note, if missing.isEmpty then none
            else some (diagnostic sum missing form.span?))

/-- Visits matches and collects their reports, latest first. -/
def visitors (declared : SumVariants) : Visitors (List Diagnostic) :=
  { lists := [("match", fun form reports =>
      let (note, report) := checkMatch declared form
      (note, report.toList ++ reports))] }

/-- A module form that is checked must not be the empty list: its
declarations are what follows the first item. -/
inductive Fault where
  | emptyModule
deriving DecidableEq, Repr

/-- The declarations of a module form.  Only a list has any. -/
def declarations (module : Form) : Except Fault (List Form) :=
  match module.list? with
  | none => .ok []
  | some [] => .error .emptyModule
  | some (_ :: forms) => .ok forms

/-- Checks every match of a module. -/
def checkMatches (module : Form) : Except Fault (Form × List Diagnostic) :=
  (declarations module).map fun forms =>
    let (module, reports) :=
      (visitors (.collect forms)).traverse module []
    (module, reports.reverse)

end FormCompiler.Coverage
