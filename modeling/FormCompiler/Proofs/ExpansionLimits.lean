import FormCompiler.Proofs.Expanding

/-!
# What limits cut off

Limits never change what an expansion answers: an expansion that stays within
its limits takes the same steps within greater ones.  That holds of any rules,
those that grow a form for ever included.

Where no rule applies the limit of levels alone decides.  A form is expanded
into itself unless it has parts below the deepest level, and then the first of
these parts, parents before children and left to right, is the one named.
-/

namespace FormCompiler

/-! ## Parts with their levels -/

namespace Tree

variable {Note : Type}

mutual

/-- All parts of a tree that stands at a level, each with its own level and
ahead of those inside it. -/
def leveledParts (level : Nat) : Tree Note → List (Nat × Tree Note)
  | .atom note value => [(level, .atom note value)]
  | .group note bracket items =>
      (level, .group note bracket items) ::
        leveledPartsList (level + 1) items
  | .tagged note tag value =>
      (level, .tagged note tag value) :: leveledParts (level + 1) value

def leveledPartsList (level : Nat) :
    List (Tree Note) → List (Nat × Tree Note)
  | [] => []
  | tree :: trees => leveledParts level tree ++ leveledPartsList level trees

end

theorem leveledParts_eq (level : Nat) (tree : Tree Note) :
    tree.leveledParts level =
      (level, tree) :: leveledPartsList (level + 1) tree.children := by
  cases tree <;> simp [leveledParts, leveledPartsList, children]

theorem mem_leveledPartsList_iff {trees : List (Tree Note)} {level : Nat}
    {found : Nat × Tree Note} :
    found ∈ leveledPartsList level trees ↔
      ∃ tree ∈ trees, found ∈ tree.leveledParts level := by
  induction trees with
  | nil => simp [leveledPartsList]
  | cons tree trees ih => simp [leveledPartsList, ih]

theorem HasPartAt.mem_leveledParts {tree part : Tree Note} {level : Nat}
    (inside : tree.HasPartAt level part) (start : Nat) :
    (start + level, part) ∈ tree.leveledParts start := by
  induction inside generalizing start with
  | root tree =>
      rw [leveledParts_eq]
      exact List.mem_cons_self
  | @inside tree child part level member _ ih =>
      rw [leveledParts_eq]
      refine List.mem_cons_of_mem _
        (mem_leveledPartsList_iff.mpr ⟨child, member, ?_⟩)
      rw [Nat.add_comm level, ← Nat.add_assoc]
      exact ih (start + 1)

/-- The first part of a tree that lies below a level. -/
def firstBelow? (depth : Nat) (tree : Tree Note) : Option (Tree Note) :=
  ((tree.leveledParts 0).find? fun found => depth < found.1).map Prod.snd

end Tree

namespace ExpansionRules

variable {rules : ExpansionRules}

/-! ## Greater limits -/

/-- The same rules within other limits. -/
def within (rules : ExpansionRules) (limits : ExpansionLimits) :
    ExpansionRules := { rules with limits }

theorem stabilize_within {limits : ExpansionLimits} {budget greater : Nat}
    {form stable : Form} (fewer : budget ≤ greater)
    (done : rules.stabilize budget form = .ok stable) :
    (rules.within limits).stabilize greater form = .ok stable := by
  have sameStep : (rules.within limits).step? form = rules.step? form := rfl
  induction budget generalizing greater form with
  | zero =>
      rw [stabilize] at done
      rw [stabilize, sameStep]
      cases stepped : rules.step? form with
      | none => simpa only [stepped] using done
      | some output => simp [stepped] at done
  | succ budget ih =>
      obtain ⟨greater, rfl⟩ := Nat.exists_eq_add_of_le' fewer
      rw [stabilize] at done
      rw [← Nat.add_assoc, stabilize, sameStep]
      cases stepped : rules.step? form with
      | none => simpa only [stepped] using done
      | some output =>
          simp only [stepped] at done ⊢
          split at done
          · next outputList =>
              rw [if_pos outputList]
              exact ih (Nat.le_add_left _ _) done rfl
          · next notList =>
              rw [if_neg notList]
              exact done

theorem mapChildren_imp {visit other : Form → Except ExpansionError Form}
    (agrees : ∀ child answer, visit child = .ok answer →
      other child = .ok answer)
    {form result : Form} (done : mapChildren visit form = .ok result) :
    mapChildren other form = .ok result := by
  rw [mapChildren_eq_ok_iff] at done ⊢
  obtain ⟨answers, visited, same⟩ := done
  exact ⟨answers, visited.imp fun child answer => agrees child answer, same⟩

/-- An expansion that stays within its limits stays within greater ones. -/
theorem expandWithin_within {limits : ExpansionLimits}
    (fewerSteps : rules.limits.steps ≤ limits.steps) {levels greater : Nat}
    {form expanded : Form} (fewerLevels : levels ≤ greater)
    (done : rules.expandWithin levels form = .ok expanded) :
    (rules.within limits).expandWithin greater form = .ok expanded := by
  induction levels generalizing greater form expanded with
  | zero => cases done
  | succ levels ih =>
      obtain ⟨greater, rfl⟩ := Nat.exists_eq_add_of_le' fewerLevels
      have deeper : levels ≤ greater + levels := Nat.le_add_left _ _
      rw [expandWithin] at done
      rw [← Nat.add_assoc, expandWithin]
      by_cases isList : form.isList = true
      · rw [if_pos isList] at done ⊢
        cases stabilized : rules.stabilize rules.limits.steps form with
        | error error => simp [stabilized] at done
        | ok stable =>
            have same : (rules.within limits).stabilize
                (rules.within limits).limits.steps form = .ok stable :=
              stabilize_within fewerSteps stabilized
            rw [stabilized] at done
            rw [same]
            dsimp only at done ⊢
            by_cases stableList : stable.isList = true
            · rw [if_pos stableList] at done ⊢
              exact mapChildren_imp (fun _ _ => ih deeper) done
            · rw [if_neg stableList] at done ⊢
              exact ih deeper done
      · rw [if_neg isList] at done ⊢
        exact mapChildren_imp (fun _ _ => ih deeper) done

/-! ## Where no rule applies -/

/-- The outcome of an expansion that stops at the first part that is found, if
there is one. -/
def stoppedAt (rules : ExpansionRules) {Answer : Type} (answer : Answer) :
    Option (Nat × Form) → Except ExpansionError Answer
  | none => .ok answer
  | some found =>
      .error (.depthLimit (levelName found.2) rules.limits.depth)

theorem stoppedAt_map {Answer Result : Type} (answer : Answer)
    (build : Answer → Result) (found : Option (Nat × Form)) :
    (rules.stoppedAt answer found).map build =
      rules.stoppedAt (build answer) found := by
  cases found <;> rfl

/-- Forms that are expanded one after the other stop at the first part that
stops one of them. -/
theorem traverseForms_stoppedAt
    {visit : Form → Except ExpansionError Form} {level : Nat}
    {stops : Nat × Form → Bool} {forms : List Form}
    (each : ∀ form ∈ forms, visit form =
      rules.stoppedAt form ((form.leveledParts level).find? stops)) :
    traverseForms visit forms = rules.stoppedAt forms
      ((Tree.leveledPartsList level forms).find? stops) := by
  induction forms with
  | nil => rfl
  | cons form forms ih =>
      rw [List.forall_mem_cons] at each
      rw [traverseForms, each.1, ih each.2, Tree.leveledPartsList,
        List.find?_append]
      cases (form.leveledParts level).find? stops with
      | some found => rfl
      | none =>
          simp only [stoppedAt, Option.none_or]
          cases (Tree.leveledPartsList level forms).find? stops <;> rfl

theorem mapChildren_stoppedAt
    {visit : Form → Except ExpansionError Form} {level : Nat}
    {stops : Nat × Form → Bool} {form : Form}
    (each : ∀ child ∈ form.children, visit child =
      rules.stoppedAt child ((child.leveledParts level).find? stops)) :
    mapChildren visit form = rules.stoppedAt form
      ((Tree.leveledPartsList level form.children).find? stops) := by
  cases form with
  | atom note value => rfl
  | group note bracket items =>
      rw [Tree.children] at each
      rw [mapChildren, traverseForms_stoppedAt each, stoppedAt_map]
      rfl
  | tagged note tag value =>
      rw [mapChildren, each value (List.mem_singleton_self value),
        stoppedAt_map, Tree.children, Tree.leveledPartsList,
        Tree.leveledPartsList, List.append_nil]

/-- A settled form is expanded into itself, unless it has parts below the
levels that may be entered. -/
theorem Settled.expandWithin_stoppedAt {form : Form}
    (settled : rules.Settled form) (level levels : Nat) :
    rules.expandWithin levels form = rules.stoppedAt form
      ((form.leveledParts level).find? fun found =>
        level + levels ≤ found.1) := by
  induction levels generalizing level form with
  | zero =>
      rw [expandWithin, Tree.leveledParts_eq,
        List.find?_cons_of_pos (by simp)]
      rfl
  | succ levels ih =>
      rw [settled_iff] at settled
      have rebuilt : mapChildren (rules.expandWithin levels) form =
          rules.stoppedAt form ((form.leveledParts level).find? fun found =>
            level + (levels + 1) ≤ found.1) := by
        rw [Tree.leveledParts_eq, List.find?_cons_of_neg (by simp)]
        refine mapChildren_stoppedAt fun child member => ?_
        rw [ih (settled.2 child member) (level + 1), Nat.add_right_comm]
        rfl
      have stable : rules.stabilize rules.limits.steps form = .ok form := by
        rw [stabilize, settled.1]
      rw [expandWithin, ← rebuilt]
      split
      · next isList => simp only [stable, isList, if_true]
      · rfl

end ExpansionRules

/-- Greater limits answer what smaller ones answer, whatever the rules do.
Where no rule applies to any list of a form, the form is expanded into itself
exactly when none of its parts lies below the deepest level; otherwise the
first part that does is named. -/
theorem expand_within_limits (rules : ExpansionRules) (form : Form) :
    (∀ limits : ExpansionLimits, rules.limits.steps ≤ limits.steps →
      rules.limits.depth ≤ limits.depth → ∀ expanded,
        rules.expand form = .ok expanded →
          (rules.within limits).expand form = .ok expanded) ∧
    (rules.Settled form →
      (rules.expand form = .ok form ↔ ∀ level part,
        form.HasPartAt level part → level ≤ rules.limits.depth) ∧
      rules.expand form =
        match form.firstBelow? rules.limits.depth with
        | none => .ok form
        | some part => .error (.depthLimit
            (ExpansionRules.levelName part) rules.limits.depth)) := by
  refine ⟨fun limits fewerSteps fewerLevels expanded done =>
    ExpansionRules.expandWithin_within fewerSteps
      (Nat.succ_le_succ fewerLevels) done, fun settled => ?_⟩
  have stopped := settled.expandWithin_stoppedAt 0 (rules.limits.depth + 1)
  rw [Nat.zero_add] at stopped
  constructor
  · constructor
    · intro same level part inside
      replace same := stopped.symm.trans same
      cases found : (form.leveledParts 0).find? fun found =>
          rules.limits.depth + 1 ≤ found.1 with
      | some found' =>
          rw [found] at same
          cases same
      | none =>
          have shallow := List.find?_eq_none.mp found _
            (inside.mem_leveledParts 0)
          exact Nat.le_of_lt_succ (by simpa using shallow)
    · intro shallow
      refine settled.expandWithin_eq (Tree.height_le_iff_level_lt.mpr ?_)
      exact fun level part inside =>
        Nat.lt_succ_of_le (shallow level part inside)
  · refine stopped.trans ?_
    unfold Tree.firstBelow?
    simp only [Nat.succ_le_iff]
    cases (form.leveledParts 0).find? _ <;> rfl

/-- A list that is rewritten into a vector around a list without a rule. -/
def wrappedTwice : ExpansionRules where
  byHead := [("twice", fun form =>
    some (Form.vector [Form.list (Form.symbol "once" :: form.children.tail)]))]
  limits := { steps := 1, depth := 3 }

/-- A list without a rule around a symbol on level three. -/
def deepSymbol : Form :=
  Form.vector [Form.list [Form.vector [Form.symbol "low"]],
    Form.symbol "twice"]

theorem expand_within_limits_wrappedTwice :
    (wrappedTwice.within { steps := 2, depth := 3 }).expand
        (Form.list [Form.symbol "twice", Form.bool true]) =
      .ok (Form.vector [Form.list [Form.symbol "once", Form.bool true]]) ∧
    (wrappedTwice.within { steps := 1, depth := 2 }).Settled deepSymbol ∧
    (wrappedTwice.within { steps := 1, depth := 2 }).expand deepSymbol =
      .error (.depthLimit "symbol" 2) := by
  have settled : (wrappedTwice.within { steps := 1, depth := 2 }).Settled
      deepSymbol := by
    have atom (name : String) : (wrappedTwice.within
        { steps := 1, depth := 2 }).Settled (Form.symbol name) :=
      ExpansionRules.settled_iff.mpr ⟨rfl, fun _ member => nomatch member⟩
    refine ExpansionRules.settled_iff.mpr ⟨rfl, ?_⟩
    refine List.forall_mem_cons.mpr ⟨?_, List.forall_mem_singleton.mpr
      (atom "twice")⟩
    refine ExpansionRules.settled_iff.mpr ⟨rfl, ?_⟩
    refine List.forall_mem_singleton.mpr ?_
    exact ExpansionRules.settled_iff.mpr ⟨rfl,
      List.forall_mem_singleton.mpr (atom "low")⟩
  refine ⟨(expand_within_limits wrappedTwice _).1 _ (by decide) (by decide) _
    rfl, settled, ((expand_within_limits _ deepSymbol).2 settled).2.trans
    rfl⟩

end FormCompiler
