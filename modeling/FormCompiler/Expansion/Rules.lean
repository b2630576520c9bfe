import FormCompiler.Form.Basic

/-!
# Expanding rules

A rule belongs to a head symbol and may replace a list with that head or
decline it.  Expansion applies rules to a list until none applies, then
expands the items; every other form has its children expanded.  A rule that
answers with something other than a list restarts one level deeper.

Two limits turn runaway expansion into an error: how often one form may be
replaced, and how deeply expanded forms may nest.  Both are counted down, so
expansion is total for arbitrary rules.
-/

namespace FormCompiler

structure ExpansionLimits where
  /-- Replacements of one form before its head must be stable. -/
  steps : Nat := 256
  /-- The deepest level that may be expanded; the root is at level zero. -/
  depth : Nat := 512
deriving DecidableEq, Repr

inductive ExpansionError where
  | stepLimit (head : String) (limit : Nat)
  | depthLimit (head : String) (limit : Nat)
deriving DecidableEq, Repr

def ExpansionError.message : ExpansionError → String
  | .stepLimit head limit =>
      s!"macro `{head}` did not reach a fixpoint after {limit} rewrites"
  | .depthLimit head limit =>
      s!"macro expansion exceeded nesting depth {limit} at `{head}`"

structure ExpansionRules where
  /-- Rules by head symbol, the latest first. -/
  byHead : List (String × (Form → Option Form))
  limits : ExpansionLimits := {}

namespace ExpansionRules

def empty : ExpansionRules := { byHead := [] }

/-- Adds a rule.  It replaces an earlier one for the same head. -/
def add (rules : ExpansionRules) (head : String)
    (rule : Form → Option Form) : ExpansionRules :=
  { rules with byHead := (head, rule) :: rules.byHead }

def contains (rules : ExpansionRules) (head : String) : Bool :=
  (rules.byHead.lookup head).isSome

/-- One step at the root, unless no rule applies. -/
def step? (rules : ExpansionRules) (form : Form) : Option Form :=
  form.head?.bind fun head =>
    (rules.byHead.lookup head).bind fun rule => rule form

/-- Steps at the root until no rule applies or the result is not a list.
`budget` is the number of steps that are left. -/
def stabilize (rules : ExpansionRules) :
    (budget : Nat) → Form → Except ExpansionError Form
  | budget, form =>
      match rules.step? form with
      | none => .ok form
      | some output =>
          match budget with
          | 0 => .error (.stepLimit (form.head?.getD "") rules.limits.steps)
          | budget + 1 =>
              if output.isList then rules.stabilize budget output
              else .ok output

/-- What a level limit names: the head of a list, or the kind of form. -/
def levelName (form : Form) : String := form.head?.getD form.kindName

/-- Applies a fallible function to each form in turn. -/
def traverseForms (visit : Form → Except ExpansionError Form) :
    List Form → Except ExpansionError (List Form)
  | [] => .ok []
  | form :: forms =>
      match visit form with
      | .error error => .error error
      | .ok form =>
          match traverseForms visit forms with
          | .error error => .error error
          | .ok forms => .ok (form :: forms)

/-- Rebuilds a form from its children, keeping its metadata. -/
def mapChildren (visit : Form → Except ExpansionError Form) :
    Form → Except ExpansionError Form
  | .atom note value => .ok (.atom note value)
  | .group note bracket items =>
      (traverseForms visit items).map (.group note bracket)
  | .tagged note tag value => (visit value).map (.tagged note tag)

/-- Expands a form when `levels` levels may still be entered. -/
def expandWithin (rules : ExpansionRules) :
    (levels : Nat) → Form → Except ExpansionError Form
  | 0, form => .error (.depthLimit (levelName form) rules.limits.depth)
  | levels + 1, form =>
      if form.isList then
        match rules.stabilize rules.limits.steps form with
        | .error error => .error error
        | .ok stable =>
            if stable.isList then
              mapChildren (rules.expandWithin levels) stable
            else rules.expandWithin levels stable
      else mapChildren (rules.expandWithin levels) form

/-- Expands every rule in a form. -/
def expand (rules : ExpansionRules) (form : Form) :
    Except ExpansionError Form :=
  rules.expandWithin (rules.limits.depth + 1) form

end ExpansionRules

end FormCompiler
