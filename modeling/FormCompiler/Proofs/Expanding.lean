import FormCompiler.Sugar
import Mathlib.Data.List.Forall2

/-!
# Expansion reaches a fixpoint

A form is settled when no list in it is one that its rule would still
replace.  Expanding a settled form gives it back as long as it has no more
levels than may be entered, and whatever an expansion answers is settled and
has no more levels than the expansion could enter.  So a second expansion
changes nothing and runs into neither limit.

A list is judged before its items are expanded.  The judgement outlives the
items when rules look at nothing but the number of items before they decline,
and when no rule answers with a bare symbol, which could become a head.
-/

namespace FormCompiler

/-! ## Parts and levels of a tree -/

namespace Tree

variable {Note : Type}

/-- A tree that stands in another one, some levels below its root. -/
inductive HasPartAt : Tree Note → Nat → Tree Note → Prop where
  | root (tree : Tree Note) : HasPartAt tree 0 tree
  | inside {tree child part : Tree Note} {level : Nat} :
      child ∈ tree.children → HasPartAt child level part →
        HasPartAt tree (level + 1) part

theorem forall_hasPartAt_iff {holds : Nat → Tree Note → Prop}
    {tree : Tree Note} :
    (∀ level part, tree.HasPartAt level part → holds level part) ↔
      holds 0 tree ∧ ∀ child ∈ tree.children, ∀ level part,
        child.HasPartAt level part → holds (level + 1) part := by
  constructor
  · intro every
    exact ⟨every 0 tree (.root tree), fun child member level part inside =>
      every (level + 1) part (.inside member inside)⟩
  · rintro ⟨atRoot, below⟩ level part inside
    cases inside with
    | root => exact atRoot
    | inside member inside => exact below _ member _ part inside

/-- The same tree with other children, as many as before. -/
def withChildren (tree : Tree Note) (children : List (Tree Note)) :
    Tree Note :=
  match tree with
  | .atom note value => .atom note value
  | .group note bracket _ => .group note bracket children
  | .tagged note tag value => .tagged note tag (children.head?.getD value)

theorem children_withChildren {tree : Tree Note} {others : List (Tree Note)}
    (asMany : tree.children.length = others.length) :
    (tree.withChildren others).children = others := by
  cases tree with
  | atom note value => exact (List.length_eq_zero_iff.mp asMany.symm).symm
  | group note bracket items => rfl
  | tagged note tag value =>
      obtain ⟨other, rfl⟩ := List.length_eq_one_iff.mp asMany.symm
      rfl

@[simp] theorem isList_withChildren (tree : Tree Note)
    (others : List (Tree Note)) :
    (tree.withChildren others).isList = tree.isList := by
  cases tree with
  | group note bracket items => cases bracket <;> rfl
  | _ => rfl

@[simp] theorem symbol?_withChildren (tree : Tree Note)
    (others : List (Tree Note)) :
    (tree.withChildren others).symbol? = tree.symbol? := by
  cases tree <;> rfl

theorem withChildren_children (tree : Tree Note) :
    tree.withChildren tree.children = tree := by
  cases tree <;> rfl

theorem heightList_le_iff {items : List (Tree Note)} {levels : Nat} :
    heightList items ≤ levels ↔ ∀ item ∈ items, item.height ≤ levels := by
  induction items with
  | nil => simp [heightList]
  | cons item items ih => simp [heightList, Nat.max_le, ih]

/-- A tree has one level more than the highest of its children. -/
theorem height_le_succ_iff {tree : Tree Note} {levels : Nat} :
    tree.height ≤ levels + 1 ↔
      ∀ child ∈ tree.children, child.height ≤ levels := by
  cases tree <;> simp [height, children, heightList_le_iff]

theorem height_pos (tree : Tree Note) : 0 < tree.height := by
  cases tree <;> simp [height]

/-- Levels are counted from the root, which is at level zero. -/
theorem height_le_iff_level_lt {tree : Tree Note} {levels : Nat} :
    tree.height ≤ levels ↔
      ∀ level part, tree.HasPartAt level part → level < levels := by
  induction levels generalizing tree with
  | zero =>
      constructor
      · exact fun low => absurd low (Nat.not_le.mpr tree.height_pos)
      · exact fun every => absurd (every 0 tree (.root tree)) (Nat.lt_irrefl 0)
  | succ levels ih =>
      rw [height_le_succ_iff, forall_hasPartAt_iff]
      simp [ih]

end Tree

namespace ExpansionRules

/-! ## Rules that look at the number of items -/

/-- Among lists with a head, a rule takes and declines by the number of items
alone. -/
def DeclinesByLength (head : String) (rule : Form → Option Form) : Prop :=
  ∃ takes : Nat → Bool, ∀ (form : Form) (items : List Form),
    form.list? = some items → form.head? = some head →
      (rule form).isSome = takes items.length

/-- A rule never answers a list that has its head with a symbol. -/
def AnswersNoSymbol (head : String) (rule : Form → Option Form) : Prop :=
  ∀ form output : Form,
    form.head? = some head → rule form = some output → output.symbol? = none

/-- Every rule declines by the number of items and answers no symbol. -/
def AreOrderly (rules : ExpansionRules) : Prop :=
  ∀ head rule, rules.byHead.lookup head = some rule →
    DeclinesByLength head rule ∧ AnswersNoSymbol head rule

variable {rules : ExpansionRules}

theorem step?_of_not_isList {form : Form} (other : form.isList = false) :
    rules.step? form = none := by
  have unlisted : form.list? = none := by
    cases form with
    | group note bracket items =>
        cases bracket <;> simp_all [Tree.isList, Tree.list?]
    | _ => rfl
  simp [step?, Tree.head?, unlisted]

theorem AreOrderly.symbol?_of_step? (orderly : rules.AreOrderly)
    {form output : Form} (stepped : rules.step? form = some output) :
    output.symbol? = none := by
  obtain ⟨head, hasHead, stepped⟩ := Option.bind_eq_some_iff.mp stepped
  obtain ⟨rule, found, answered⟩ := Option.bind_eq_some_iff.mp stepped
  exact (orderly head rule found).2 form output hasHead answered

/-- Lists of one length with one head are declined together. -/
theorem AreOrderly.step?_congr (orderly : rules.AreOrderly)
    {left right : Form} {leftItems rightItems : List Form}
    (isLeft : left.list? = some leftItems)
    (isRight : right.list? = some rightItems)
    (sameHead : left.head? = right.head?)
    (sameLength : leftItems.length = rightItems.length)
    (declined : rules.step? left = none) : rules.step? right = none := by
  rw [step?, Option.bind_eq_none_iff] at declined ⊢
  intro head hasHead
  rw [Option.bind_eq_none_iff]
  intro rule found
  obtain ⟨takes, decides⟩ := (orderly head rule found).1
  rw [← sameHead] at hasHead
  have leftDeclined : rule left = none :=
    Option.bind_eq_none_iff.mp (declined head hasHead) rule found
  rw [← Option.isNone_iff_eq_none, ← Option.isSome_eq_false_iff,
    decides right rightItems isRight (sameHead ▸ hasHead), ← sameLength,
    ← decides left leftItems isLeft hasHead, leftDeclined, Option.isSome_none]

/-! ## Runs over children -/

theorem traverseForms_eq_ok_iff {visit : Form → Except ExpansionError Form}
    {forms results : List Form} :
    traverseForms visit forms = .ok results ↔
      List.Forall₂ (fun form result => visit form = .ok result)
        forms results := by
  induction forms generalizing results with
  | nil => cases results <;> simp [traverseForms]
  | cons form forms ih =>
      rw [List.forall₂_cons_left_iff, traverseForms]
      cases visited : visit form with
      | error error => simp
      | ok result =>
          cases others : traverseForms visit forms with
          | error error => simp [← ih, others]
          | ok rest => simp [← ih, others, eq_comm]

/-- What every answer of a run has, each of the answers has. -/
theorem forall_answers {visit : Form → Except ExpansionError Form}
    {holds : Form → Prop}
    (every : ∀ {form answer}, visit form = .ok answer → holds answer)
    {forms answers : List Form}
    (visited : List.Forall₂ (fun form answer => visit form = .ok answer)
      forms answers) : ∀ answer ∈ answers, holds answer := by
  induction visited with
  | nil => simp
  | cons first others ih =>
      rw [List.forall_mem_cons]
      exact ⟨every first, ih⟩

theorem mapChildren_eq_ok_iff {visit : Form → Except ExpansionError Form}
    {form result : Form} :
    mapChildren visit form = .ok result ↔
      ∃ answers, List.Forall₂ (fun child answer => visit child = .ok answer)
        form.children answers ∧ form.withChildren answers = result := by
  cases form with
  | atom note value =>
      simp [mapChildren, Tree.children, Tree.withChildren]
  | group note bracket items =>
      rw [mapChildren, Tree.children]
      cases visited : traverseForms visit items with
      | error error =>
          simp [← traverseForms_eq_ok_iff, visited, Except.map]
      | ok answers =>
          simp [← traverseForms_eq_ok_iff, visited, Except.map,
            Tree.withChildren]
  | tagged note tag value =>
      rw [mapChildren, Tree.children]
      cases visited : visit value with
      | error error =>
          simp [List.forall₂_cons_left_iff, visited, Except.map]
      | ok answer =>
          simp [List.forall₂_cons_left_iff, visited, Except.map,
            Tree.withChildren]

theorem exists_of_traverseForms_eq_error
    {visit : Form → Except ExpansionError Form} {forms : List Form}
    {error : ExpansionError}
    (failed : traverseForms visit forms = .error error) :
    ∃ form ∈ forms, visit form = .error error := by
  induction forms with
  | nil => cases failed
  | cons form forms ih =>
      rw [traverseForms] at failed
      split at failed
      · next visited =>
          cases failed
          exact ⟨form, List.mem_cons_self, visited⟩
      · split at failed
        · next others =>
            cases failed
            obtain ⟨other, member, visited⟩ := ih others
            exact ⟨other, List.mem_cons_of_mem form member, visited⟩
        · cases failed

/-- Rebuilding fails only where a child does. -/
theorem exists_of_mapChildren_eq_error
    {visit : Form → Except ExpansionError Form} {form : Form}
    {error : ExpansionError}
    (failed : mapChildren visit form = .error error) :
    ∃ child ∈ form.children, visit child = .error error := by
  cases form with
  | atom note value => cases failed
  | group note bracket items =>
      rw [mapChildren, Except.map.eq_def] at failed
      split at failed
      · next visited =>
          cases failed
          exact exists_of_traverseForms_eq_error visited
      · cases failed
  | tagged note tag value =>
      rw [mapChildren, Except.map.eq_def] at failed
      split at failed
      · next visited =>
          cases failed
          exact ⟨value, List.mem_singleton_self value, visited⟩
      · cases failed

/-! ## Settled forms -/

/-- No list in the form is one that its rule would replace. -/
def Settled (rules : ExpansionRules) (form : Form) : Prop :=
  ∀ level part, form.HasPartAt level part → rules.step? part = none

theorem settled_iff {form : Form} :
    rules.Settled form ↔
      rules.step? form = none ∧
        ∀ child ∈ form.children, rules.Settled child :=
  Tree.forall_hasPartAt_iff

/-- Replacement stops at a list that its rule declines, or at an answer that
is neither a list nor a symbol. -/
theorem AreOrderly.stabilize_ok (orderly : rules.AreOrderly) {budget : Nat}
    {form stable : Form} (isList : form.isList = true)
    (done : rules.stabilize budget form = .ok stable) :
    (stable.isList = true ∧ rules.step? stable = none) ∨
      (stable.isList = false ∧ stable.symbol? = none) := by
  induction budget generalizing form with
  | zero =>
      rw [stabilize] at done
      cases stepped : rules.step? form with
      | none =>
          simp only [stepped] at done
          cases done
          exact .inl ⟨isList, stepped⟩
      | some output => simp [stepped] at done
  | succ budget ih =>
      rw [stabilize] at done
      cases stepped : rules.step? form with
      | none =>
          simp only [stepped] at done
          cases done
          exact .inl ⟨isList, stepped⟩
      | some output =>
          simp only [stepped] at done
          split at done
          · next outputList => exact ih outputList done
          · next notList =>
              cases done
              exact .inr ⟨by simpa using notList,
                orderly.symbol?_of_step? stepped⟩

/-- Expanding its items does not reopen a list that its rule declined: the
number of items stays, and so does the head, because symbols are only
answered for symbols. -/
theorem AreOrderly.step?_withChildren (orderly : rules.AreOrderly)
    {form : Form} {answers : List Form}
    (kept : List.Forall₂ (fun child answer : Form =>
      answer.symbol? = child.symbol?) form.children answers)
    (declined : rules.step? form = none) :
    rules.step? (form.withChildren answers) = none := by
  cases form with
  | atom note value => exact declined
  | tagged note tag value => exact step?_of_not_isList rfl
  | group note bracket items =>
      cases bracket with
      | list =>
          refine orderly.step?_congr rfl rfl ?_ kept.length_eq declined
          cases kept with
          | nil => rfl
          | cons same others => exact same.symm
      | _ => exact step?_of_not_isList rfl

/-- What an expansion answers is settled, has no more levels than could be
entered, and is a symbol only where a symbol was expanded. -/
theorem AreOrderly.expandWithin_ok (orderly : rules.AreOrderly)
    {levels : Nat} {form result : Form}
    (done : rules.expandWithin levels form = .ok result) :
    rules.Settled result ∧ result.height ≤ levels ∧
      result.symbol? = form.symbol? := by
  induction levels generalizing form result with
  | zero => cases done
  | succ levels ih =>
      -- Once no rule applies at the root, the children decide the rest.
      have rebuilt {stable : Form} (declined : rules.step? stable = none)
          (done : mapChildren (rules.expandWithin levels) stable =
            .ok result) :
          rules.Settled result ∧ result.height ≤ levels + 1 ∧
            result.symbol? = stable.symbol? := by
        obtain ⟨answers, visited, rfl⟩ := mapChildren_eq_ok_iff.mp done
        have asMany := Tree.children_withChildren visited.length_eq
        have each : ∀ answer ∈ answers,
            rules.Settled answer ∧ answer.height ≤ levels :=
          forall_answers
            (fun expanded => ⟨(ih expanded).1, (ih expanded).2.1⟩) visited
        have kept := visited.imp fun _ _ expanded => (ih expanded).2.2
        refine ⟨?_, ?_, Tree.symbol?_withChildren ..⟩
        · rw [settled_iff, asMany]
          exact ⟨orderly.step?_withChildren kept declined,
            fun answer member => (each answer member).1⟩
        · rw [Tree.height_le_succ_iff, asMany]
          exact fun answer member => (each answer member).2
      rw [expandWithin] at done
      split at done
      · next isList =>
          have noSymbol : form.symbol? = none := by
            cases form <;> simp_all [Tree.isList, Tree.symbol?]
          split at done
          · cases done
          · next stable stabilized =>
              rw [noSymbol]
              rcases orderly.stabilize_ok isList stabilized with
                ⟨isStable, declined⟩ | ⟨notList, notSymbol⟩
              · rw [if_pos isStable] at done
                obtain ⟨settled, low, same⟩ := rebuilt declined done
                refine ⟨settled, low, same.trans ?_⟩
                cases stable <;> simp_all [Tree.isList, Tree.symbol?]
              · rw [notList, if_neg (by simp)] at done
                obtain ⟨settled, low, same⟩ := ih done
                exact ⟨settled, Nat.le_succ_of_le low, same.trans notSymbol⟩
      · next notList =>
          exact rebuilt (step?_of_not_isList (by simpa using notList)) done

/-- A settled form is expanded into itself as far as levels may be
entered. -/
theorem Settled.expandWithin_eq {levels : Nat} {form : Form}
    (settled : rules.Settled form) (low : form.height ≤ levels) :
    rules.expandWithin levels form = .ok form := by
  induction levels generalizing form with
  | zero => exact absurd low (Nat.not_le.mpr form.height_pos)
  | succ levels ih =>
      rw [settled_iff] at settled
      rw [Tree.height_le_succ_iff] at low
      have rebuilt :
          mapChildren (rules.expandWithin levels) form = .ok form := by
        rw [mapChildren_eq_ok_iff]
        refine ⟨form.children, ?_, form.withChildren_children⟩
        rw [List.forall₂_same]
        exact fun child member =>
          ih (settled.2 child member) (low child member)
      have stable : rules.stabilize rules.limits.steps form = .ok form := by
        rw [stabilize, settled.1]
      rw [expandWithin]
      split
      · next isList => simpa only [stable, isList, if_true] using rebuilt
      · exact rebuilt

end ExpansionRules

/-! ## The built-in abbreviations -/

namespace Sugar

theorem mem_of_lookup {head : String} {rule : Form → Option Form}
    (found : rules.byHead.lookup head = some rule) :
    (head, rule) ∈ rules.byHead := by
  obtain ⟨before, after, split, -⟩ := List.lookup_eq_some_iff.mp found
  simp [split]

/-- The lengths of the lists that a built-in rule takes. -/
def takes (head : String) (length : Nat) : Bool :=
  match head with
  | "let" => length == 4
  | "set!" => length == 3
  | "loop" => 1 ≤ length
  | _ => 2 ≤ length

theorem isSome_rule {head : String} {rule : Form → Option Form} {form : Form}
    {items : List Form} (found : rules.byHead.lookup head = some rule)
    (isList : form.list? = some items) :
    (rule form).isSome = takes head items.length := by
  have known := mem_of_lookup found
  simp only [rules, List.mem_cons, Prod.mk.injEq, List.not_mem_nil,
    or_false] at known
  -- No rule tells lists of five items from longer ones.
  rcases items with _ | ⟨_, _ | ⟨_, _ | ⟨_, _ | ⟨_, _ | ⟨_, more⟩⟩⟩⟩⟩ <;>
    rcases known with ⟨rfl, rfl⟩ | ⟨rfl, rfl⟩ | ⟨rfl, rfl⟩ | ⟨rfl, rfl⟩ |
      ⟨rfl, rfl⟩ <;>
    simp [letRule, setRule, whenRule, unlessRule, loopRule, isList, takes]

theorem isList_of_rule {head : String} {rule : Form → Option Form}
    {form output : Form} (found : rules.byHead.lookup head = some rule)
    (answered : rule form = some output) : output.isList = true := by
  have known := mem_of_lookup found
  simp only [rules, List.mem_cons, Prod.mk.injEq, List.not_mem_nil,
    or_false] at known
  rcases known with ⟨-, rfl⟩ | ⟨-, rfl⟩ | ⟨-, rfl⟩ | ⟨-, rfl⟩ | ⟨-, rfl⟩
  all_goals
    simp only [letRule, setRule, whenRule, unlessRule, loopRule] at answered
    split at answered <;> cases answered
    rfl

theorem areOrderly_rules : rules.AreOrderly := by
  intro head rule found
  constructor
  · exact ⟨takes head, fun form items isList _ => isSome_rule found isList⟩
  · intro form output _ answered
    have isList := isList_of_rule found answered
    cases output <;> simp_all [Tree.isList, Tree.symbol?]

end Sugar

/-- Expanding an expanded form gives it back with all its metadata, whatever
the limits, and leaves no list that its rule would replace.  The built-in
abbreviations are among the rules this holds of. -/
theorem expand_of_expand_eq_ok :
    Sugar.rules.AreOrderly ∧
    ∀ (rules : ExpansionRules), rules.AreOrderly →
      ∀ form expanded : Form, rules.expand form = .ok expanded →
        rules.expand expanded = .ok expanded ∧
        ∀ level part, expanded.HasPartAt level part →
          rules.step? part = none := by
  refine ⟨Sugar.areOrderly_rules, ?_⟩
  intro rules orderly form expanded done
  obtain ⟨settled, low, -⟩ := orderly.expandWithin_ok done
  exact ⟨settled.expandWithin_eq low, settled⟩

theorem expand_twice_unless :
    Sugar.rules.expand
        (Form.list [Form.symbol "unless", Form.symbol "c",
          Form.list [Form.symbol "loop"]]) =
      .ok (Form.list [Form.symbol "if", Form.symbol "c", Form.vector [],
        Form.vector [Form.list [Form.symbol "while", Form.bool true,
          Form.vector []]]]) ∧
    Sugar.rules.expand
        (Form.list [Form.symbol "if", Form.symbol "c", Form.vector [],
          Form.vector [Form.list [Form.symbol "while", Form.bool true,
            Form.vector []]]]) =
      .ok (Form.list [Form.symbol "if", Form.symbol "c", Form.vector [],
        Form.vector [Form.list [Form.symbol "while", Form.bool true,
          Form.vector []]]]) :=
  have first : Sugar.rules.expand
        (Form.list [Form.symbol "unless", Form.symbol "c",
          Form.list [Form.symbol "loop"]]) = .ok _ := rfl
  ⟨first, (expand_of_expand_eq_ok.2 Sugar.rules Sugar.areOrderly_rules _ _
    first).1⟩

end FormCompiler
