import FormCompiler.Frontend
import FormCompiler.Proofs.Expanding

/-!
# The built-in abbreviations in one pass

`longhand` writes every abbreviation of a form out by recursion on the form.
Expansion does the same by replacing, looking again and descending under two
limits.  The two agree on every form whose longhand is not too deep, and the
only fault that expansion can meet is depth: a built-in rule never answers
with another abbreviation, so one replacement is always enough.
-/

namespace FormCompiler

namespace Sugar

/-- The list that stands for a list with a head, once its items are written
out.  Abbreviations keep their place and nothing else of their metadata. -/
def longList (note : Metadata) (head : Option String) (items : List Form) :
    Form :=
  let placed (head : String) (arguments : List Form) : Form :=
    .group note.positionOnly .list (Form.symbol head :: arguments)
  match head, items with
  | some "let", [_, target, type, initial] =>
      placed "as" [target, type, initial]
  | some "set!", [_, target, source] => placed "assign" [target, source]
  | some "when", _ :: condition :: body =>
      placed "if" [condition, Form.vector body]
  | some "unless", _ :: condition :: body =>
      placed "if" [condition, Form.vector [], Form.vector body]
  | some "loop", _ :: body =>
      placed "while" [Form.bool true, Form.vector body]
  | _, items => .group note .list items

mutual

/-- A form with every abbreviation written out. -/
def longhand : Form → Form
  | .atom note value => .atom note value
  | .group note .list items =>
      longList note (items.head?.bind Tree.symbol?) (longhandList items)
  | .group note bracket items => .group note bracket (longhandList items)
  | .tagged note tag value => .tagged note tag (longhand value)

def longhandList : List Form → List Form
  | [] => []
  | form :: forms => longhand form :: longhandList forms

end

theorem longhandList_eq_map (forms : List Form) :
    longhandList forms = forms.map longhand := by
  induction forms with
  | nil => rfl
  | cons form forms ih => rw [longhandList, ih, List.map_cons]

/-- A list with the head of a built-in rule is replaced exactly when its
length fits. -/
theorem isSome_step? {note : Metadata} {items : List Form} {head : String}
    {rule : Form → Option Form}
    (hasHead : items.head?.bind Tree.symbol? = some head)
    (found : rules.byHead.lookup head = some rule) :
    (rules.step? (.group note .list items)).isSome =
      takes head items.length := by
  have answer : rules.step? (.group note .list items) =
      rule (.group note .list items) := by
    rw [ExpansionRules.step?]
    change ((items.head?.bind Tree.symbol?).bind _) = _
    simp only [hasHead, Option.bind_some, found]
  rw [answer]
  exact isSome_rule found rfl

/-- A list that no rule takes is its own long form. -/
theorem longList_of_step?_eq_none {note : Metadata} {items : List Form}
    (declined : rules.step? (.group note .list items) = none) :
    longList note (items.head?.bind Tree.symbol?) (items.map longhand) =
      .group note .list (items.map longhand) := by
  have refused {head : String} {rule : Form → Option Form}
      (hasHead : items.head?.bind Tree.symbol? = some head)
      (found : rules.byHead.lookup head = some rule) :
      takes head (items.map longhand).length = false := by
    rw [List.length_map, ← isSome_step? hasHead found, declined]
    rfl
  unfold longList
  split
  all_goals try rfl
  all_goals
    next hasHead shape =>
      have never := refused hasHead rfl
      rw [shape] at never
      simp [takes] at never

/-- A list that a rule takes is written out where it stands, and the answer
is no abbreviation. -/
theorem longhand_of_step?_eq_some {note : Metadata} {items : List Form}
    {output : Form}
    (replaced : rules.step? (.group note .list items) = some output) :
    output.isList = true ∧ rules.step? output = none ∧
      longhand (.group note .list items) =
        output.withChildren (output.children.map longhand) := by
  obtain ⟨head, hasHead, chosen⟩ := Option.bind_eq_some_iff.mp replaced
  obtain ⟨rule, found, answered⟩ := Option.bind_eq_some_iff.mp chosen
  have known := mem_of_lookup found
  clear replaced chosen found
  simp only [rules, List.mem_cons, Prod.mk.injEq, List.not_mem_nil,
    or_false] at known
  change items.head?.bind Tree.symbol? = some head at hasHead
  rw [longhand, hasHead, longhandList_eq_map]
  rcases known with ⟨rfl, rfl⟩ | ⟨rfl, rfl⟩ | ⟨rfl, rfl⟩ | ⟨rfl, rfl⟩ |
    ⟨rfl, rfl⟩
  all_goals
    simp only [letRule, setRule, whenRule, unlessRule, loopRule,
      Tree.list?] at answered
    split at answered <;> cases answered
    next shape =>
      cases shape
      refine ⟨rfl, rfl, ?_⟩
      simp [longList, replace, Tree.note, Tree.withChildren, Tree.children,
        longhand, longhandList_eq_map, Form.symbol, Form.vector, Form.bool]

/-- One replacement at most settles a list, and the longhand of the list has
the longhand of its settled items. -/
theorem exists_stabilize_eq_ok (note : Metadata) (items : List Form) :
    ∃ stable : Form,
      rules.stabilize rules.limits.steps (.group note .list items) =
        .ok stable ∧
      stable.isList = true ∧
      longhand (.group note .list items) =
        stable.withChildren (stable.children.map longhand) := by
  change ∃ stable : Form, rules.stabilize (255 + 1) _ = .ok stable ∧ _
  cases replaced : rules.step? (.group note .list items) with
  | none =>
      refine ⟨.group note .list items, ?_, rfl, ?_⟩
      · rw [ExpansionRules.stabilize, replaced]
      · rw [longhand, longhandList_eq_map,
          longList_of_step?_eq_none replaced]
        rfl
  | some output =>
      obtain ⟨isList, settled, same⟩ := longhand_of_step?_eq_some replaced
      refine ⟨output, ?_, isList, same⟩
      rw [ExpansionRules.stabilize, replaced]
      simp only [isList, if_true]
      rw [ExpansionRules.stabilize, settled]

/-- Other forms have the longhand of their children. -/
theorem longhand_of_not_isList {form : Form} (other : form.isList = false) :
    longhand form = form.withChildren (form.children.map longhand) := by
  cases form with
  | atom note value => rfl
  | tagged note tag value => rfl
  | group note bracket items =>
      cases bracket with
      | list => cases other
      | _ =>
          rw [longhand, longhandList_eq_map]
          · rfl
          · simp

/-- The answer is the longhand when that has no more levels than may be
entered, and a fault of depth otherwise. -/
def IsWrittenOut (levels : Nat) (long : Form) :
    Except ExpansionError Form → Prop
  | .ok answer => long.height ≤ levels ∧ answer = long
  | .error (.depthLimit ..) => levels < long.height
  | .error (.stepLimit ..) => False

/-- A form whose children are written out is written out one level
deeper. -/
theorem isWrittenOut_mapChildren
    {visit : Form → Except ExpansionError Form} {levels : Nat}
    (each : ∀ form, IsWrittenOut levels (longhand form) (visit form))
    (form : Form) :
    IsWrittenOut (levels + 1)
      (form.withChildren (form.children.map longhand))
      (ExpansionRules.mapChildren visit form) := by
  have asMany : (form.withChildren (form.children.map longhand)).children =
      form.children.map longhand :=
    Tree.children_withChildren (by simp)
  cases visited : ExpansionRules.mapChildren visit form with
  | ok answer =>
      obtain ⟨answers, answered, rfl⟩ :=
        ExpansionRules.mapChildren_eq_ok_iff.mp visited
      have written : List.Forall₂ (fun child answer =>
          (longhand child).height ≤ levels ∧ longhand child = answer)
          form.children answers := by
        refine answered.imp fun child answer result => ?_
        have one := each child
        rw [result] at one
        exact ⟨one.1, one.2.symm⟩
      obtain ⟨low, same⟩ := (List.forall₂_and_left ..).mp written
      rw [← List.forall₂_map_left_iff, List.forall₂_eq_eq_eq] at same
      subst same
      refine ⟨?_, rfl⟩
      rw [Tree.height_le_succ_iff, asMany, List.forall_mem_map]
      exact low
  | error error =>
      obtain ⟨child, member, failed⟩ :=
        ExpansionRules.exists_of_mapChildren_eq_error visited
      have one := each child
      rw [failed] at one
      cases error with
      | stepLimit head limit => exact one
      | depthLimit head limit =>
          rw [IsWrittenOut] at one ⊢
          rw [← Nat.not_le, Tree.height_le_succ_iff, asMany]
          intro low
          exact Nat.not_le.mpr one
            (low (longhand child) (List.mem_map_of_mem member))

/-- Expansion writes a form out. -/
theorem isWrittenOut_expandWithin (levels : Nat) (form : Form) :
    IsWrittenOut levels (longhand form) (rules.expandWithin levels form) := by
  induction levels generalizing form with
  | zero => exact Tree.height_pos _
  | succ levels ih =>
      rw [ExpansionRules.expandWithin]
      split
      · next isList =>
          obtain ⟨note, items, rfl⟩ :
              ∃ note items, form = .group note .list items := by
            cases form with
            | group note bracket items =>
                cases bracket <;> simp_all [Tree.isList]
            | _ => cases isList
          obtain ⟨stable, settled, isStable, same⟩ :=
            exists_stabilize_eq_ok note items
          rw [settled, same]
          simp only [isStable, if_true]
          exact isWrittenOut_mapChildren ih stable
      · next notList =>
          rw [longhand_of_not_isList (by simpa using notList)]
          exact isWrittenOut_mapChildren ih form

end Sugar

theorem ExpansionError.diagnostic_code (error : ExpansionError)
    (span : Option Span) : (error.diagnostic span).code = error.code := by
  cases span <;> rfl

/-- Expanding a module writes every abbreviation out, unless some node of
the result would lie more than 512 levels below the root.  That is the fault
`E1002`; the fault `E1001` does not occur. -/
theorem expandModule_eq_longhand (form : Form) :
    ((∀ level part, (Sugar.longhand form).HasPartAt level part →
        level ≤ 512) →
      expandModule form = .ok (Sugar.longhand form)) ∧
    (¬(∀ level part, (Sugar.longhand form).HasPartAt level part →
        level ≤ 512) →
      ∃ diagnostic, expandModule form = .error diagnostic ∧
        diagnostic.code.text = "E1002") ∧
    ∀ diagnostic, expandModule form = .error diagnostic →
      diagnostic.code.text ≠ "E1001" := by
  have low : (∀ level part, (Sugar.longhand form).HasPartAt level part →
      level ≤ 512) ↔ (Sugar.longhand form).height ≤ 513 := by
    simp only [Tree.height_le_iff_level_lt, Nat.lt_succ_iff]
  have written := Sugar.isWrittenOut_expandWithin 513 form
  change Sugar.IsWrittenOut 513 _ (Sugar.rules.expand form) at written
  rw [low, expandModule]
  cases expanded : Sugar.rules.expand form with
  | ok answer =>
      rw [expanded] at written
      obtain ⟨fits, rfl⟩ := written
      exact ⟨fun _ => rfl, fun deep => absurd fits deep, by simp⟩
  | error error =>
      rw [expanded] at written
      cases error with
      | stepLimit head limit => exact written.elim
      | depthLimit head limit =>
          have code := ExpansionError.diagnostic_code
            (.depthLimit head limit) form.span?
          refine ⟨fun fits => absurd fits (Nat.not_le.mpr written),
            fun _ => ⟨_, rfl, by rw [code]; rfl⟩, ?_⟩
          rintro diagnostic ⟨rfl⟩
          simp [code, ExpansionError.code, ErrorCode.text]

/-- Vectors around a constant. -/
def nestedVectors : (levels : Nat) → Form
  | 0 => Form.bool true
  | levels + 1 => Form.vector [nestedVectors levels]

theorem hasPartAt_longhand_nestedVectors (levels : Nat) :
    (Sugar.longhand (nestedVectors levels)).HasPartAt levels
      (Form.bool true) := by
  induction levels with
  | zero => exact .root _
  | succ levels ih => exact .inside List.mem_cons_self ih

theorem expandModule_loop_and_nestedVectors :
    expandModule (Form.list [Form.symbol "loop"]) =
      .ok (Form.list [Form.symbol "while", Form.bool true,
        Form.vector []]) ∧
    ∃ diagnostic, expandModule (nestedVectors 513) = .error diagnostic ∧
      diagnostic.code.text = "E1002" := by
  refine ⟨(expandModule_eq_longhand _).1 ?_,
    (expandModule_eq_longhand _).2.1 fun low => ?_⟩
  · intro level part inside
    have fits : (Sugar.longhand (Form.list [Form.symbol "loop"])).height ≤
        2 := by decide
    have low := Tree.height_le_iff_level_lt.mp fits level part inside
    omega
  · exact absurd (low 513 _ (hasPartAt_longhand_nestedVectors 513))
      (by decide)

end FormCompiler
