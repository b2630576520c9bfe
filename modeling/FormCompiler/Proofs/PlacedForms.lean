import FormCompiler.Proofs.Abbreviations
import FormCompiler.Proofs.SourceSpans

/-!
# Nested spans

The spans of the nodes of a text are nested as the nodes are, since what a
node is made of is written between its first and its last character.

Writing abbreviations out keeps that.  A list that stands for another list
stands at its place; only what is built around the items of a list, a vector
or the head of the new list, has no place of its own.
-/

namespace FormCompiler

/-! ## Places in order -/

namespace Position

/-- The order in which a text is read. -/
instance : Preorder Position where
  le first second := first.line < second.line ∨
    first.line = second.line ∧ first.column ≤ second.column
  le_refl _ := .inr ⟨rfl, Nat.le_refl _⟩
  le_trans first second third before after := by
    change _ ∨ _ at before after ⊢
    omega

instance (first second : Position) : Decidable (first ≤ second) :=
  inferInstanceAs (Decidable (_ ∨ _))

theorem le_after (position : Position) (character : Char) :
    position ≤ position.after character := by
  unfold after
  split
  · exact .inl (Nat.lt_succ_self _)
  · exact .inr ⟨rfl, Nat.le_succ _⟩

theorem le_advance (position : Position) (characters : List Char) :
    position ≤ position.advance characters := by
  induction characters generalizing position with
  | nil => exact le_refl position
  | cons character characters ih =>
      exact le_trans (position.le_after character) (ih _)

end Position

theorem place_le_place (source : List Char) {first second : Nat}
    (order : first ≤ second) : place source first ≤ place source second := by
  have split := List.take_append_drop first (source.take second)
  rw [List.take_take, Nat.min_eq_left order] at split
  unfold place
  rw [← split, Position.advance_append]
  exact Position.le_advance _ _

theorem recordedStop_le_recordedStop (source : List Char)
    {first second : Nat} (order : first ≤ second) :
    recordedStop source first ≤ recordedStop source second := by
  rcases Nat.eq_or_lt_of_le order with rfl | less
  · exact Nat.le_refl _
  · refine Nat.le_trans ?_ (Nat.le_trans less
      (stop_le_recordedStop source second))
    unfold recordedStop
    split
    · split
      · exact Nat.le_succ _
      · exact Nat.le_refl _
    · exact Nat.le_succ _

/-- A span reaches neither before nor behind another one. -/
def Span.Within (inner outer : Span) : Prop :=
  outer.start ≤ inner.start ∧ inner.last ≤ outer.last

instance (inner outer : Span) : Decidable (inner.Within outer) :=
  inferInstanceAs (Decidable (_ ∧ _))

namespace Span

theorem within_refl (span : Span) : span.Within span :=
  ⟨le_refl _, le_refl _⟩

/-- A span that is recorded is within itself, and no other is recorded. -/
theorem within_of_mem {metadata : Metadata} {span : Span}
    (found : span ∈ metadata.span?) :
    ∀ other ∈ metadata.span?, other.Within span := by
  intro other same
  cases Option.mem_unique found same
  exact span.within_refl

end Span

/-! ## Forms within a span -/

namespace Tree

variable {Note : Type}

theorem nodesList_eq_flatMap (trees : List (Tree Note)) :
    nodesList trees = trees.flatMap nodes := by
  induction trees with
  | nil => rfl
  | cons tree trees ih => rw [nodesList, ih, List.flatMap_cons]

theorem mem_nodes_self (tree : Tree Note) : tree ∈ tree.nodes := by
  cases tree <;> exact List.mem_cons_self

theorem forall_nodes_group {holds : Tree Note → Prop} {note : Note}
    {bracket : Bracket} {items : List (Tree Note)} :
    (∀ node ∈ nodes (.group note bracket items), holds node) ↔
      holds (.group note bracket items) ∧
        ∀ item ∈ items, ∀ node ∈ item.nodes, holds node := by
  rw [nodes, nodesList_eq_flatMap, List.forall_mem_cons]
  simp only [List.mem_flatMap, forall_exists_index, and_imp]
  exact and_congr_right fun _ =>
    ⟨fun every item member node => every node item member,
      fun every node item member => every item member node⟩

end Tree

namespace Form

variable {extent : Span} {note : Metadata} {bracket : Bracket}
  {items : List Form}

/-- No node has a place outside a span. -/
def Inside (extent : Span) (form : Form) : Prop :=
  ∀ node ∈ form.nodes, ∀ span ∈ span? node, span.Within extent

/-- Every list has a place, and around every place are those of the nodes
inside. -/
def Nests (form : Form) : Prop :=
  ∀ node ∈ form.nodes, (node.isList = true → (span? node).isSome = true) ∧
    ∀ span ∈ span? node, Inside span node

theorem inside_group :
    Inside extent (.group note bracket items) ↔
      (∀ span ∈ note.span?, span.Within extent) ∧
        ∀ item ∈ items, Inside extent item :=
  Tree.forall_nodes_group

theorem inside_atom {value : Atom} :
    Inside extent (.atom note value) ↔
      ∀ span ∈ note.span?, span.Within extent :=
  List.forall_mem_singleton

theorem inside_tagged {tag : String} {value : Form} :
    Inside extent (.tagged note tag value) ↔
      (∀ span ∈ note.span?, span.Within extent) ∧ Inside extent value :=
  List.forall_mem_cons

theorem nests_atom (note : Metadata) (value : Atom) :
    Nests (.atom note value) :=
  List.forall_mem_singleton.mpr
    ⟨nofun, fun _ found => inside_atom.mpr (Span.within_of_mem found)⟩

theorem nests_tagged {tag : String} {value : Form} :
    Nests (.tagged note tag value) ↔
      (∀ span ∈ note.span?, Inside span value) ∧ Nests value := by
  refine List.forall_mem_cons.trans (and_congr_left fun _ =>
    ⟨fun nests span found => ?_, fun around => ⟨nofun, fun span found => ?_⟩⟩)
  · exact (inside_tagged.mp (nests.2 span found)).2
  · exact inside_tagged.mpr ⟨Span.within_of_mem found, around span found⟩

theorem nests_group :
    Nests (.group note bracket items) ↔
      ((bracket = .list → note.span?.isSome = true) ∧
        ∀ span ∈ note.span?, ∀ item ∈ items, Inside span item) ∧
      ∀ item ∈ items, Nests item := by
  refine Tree.forall_nodes_group.trans (and_congr_left fun _ =>
    and_congr ?_ ⟨fun around span found => ?_, fun around span found => ?_⟩)
  · cases bracket
    all_goals simp [Tree.isList]
    rfl
  · exact (inside_group.mp (around span found)).2
  · exact inside_group.mpr ⟨Span.within_of_mem found, around span found⟩

end Form

/-! ## Texts -/

section

variable {Note : Type} {source : List Char}
  {marked : Tree Note → (start stop : Nat) → Prop}

/-- The nodes of what is laid out lie between its ends. -/
theorem Laid.between {start stop : Nat} {items : List (Tree Note)}
    (laid : Laid source marked start items stop) :
    ∀ node ∈ Tree.nodesList items, ∃ first last,
      marked node first last ∧ start ≤ first ∧ last ≤ stop := by
  induction laid with
  | nil => exact List.forall_mem_nil _
  | @atom _ _ _ start first last stop skips stands mark rest ih =>
      have before := skips.extent.1
      have token := stands.extent.1
      have after := rest.extent.1
      rintro node member
      rcases List.mem_cons.mp member with rfl | member
      · exact ⟨first, last, mark, before, after⟩
      · obtain ⟨left, right, mark, low, high⟩ := ih node member
        exact ⟨left, right, mark, by omega, high⟩
  | @group _ _ _ _ start first inside ending closing last stop skips opens
      contents further closes paired mark rest innerIh ih =>
      have before := skips.extent.1
      have opening := opens.extent.1
      have inner := contents.extent.1
      have gap := further.extent.1
      have closed := closes.extent.1
      have after := rest.extent.1
      rintro node member
      rcases List.mem_cons.mp member with rfl | member
      · exact ⟨first, last, mark, before, after⟩
      · rcases List.mem_append.mp member with member | member
        · obtain ⟨left, right, mark, low, high⟩ := innerIh node member
          exact ⟨left, right, mark, by omega, by omega⟩
        · obtain ⟨left, right, mark, low, high⟩ := ih node member
          exact ⟨left, right, mark, by omega, high⟩
  | @tagged _ _ _ _ start first inside last stop skips marker contents mark
      rest innerIh ih =>
      have before := skips.extent.1
      have tag := marker.extent.1
      have inner := contents.extent.1
      have after := rest.extent.1
      rintro node member
      rcases List.mem_cons.mp member with rfl | member
      · exact ⟨first, last, mark, before, after⟩
      · rcases List.mem_append.mp member with member | member
        · obtain ⟨left, right, mark, low, high⟩ :=
            innerIh node (List.mem_append_left _ member)
          exact ⟨left, right, mark, by omega, by omega⟩
        · obtain ⟨left, right, mark, low, high⟩ := ih node member
          exact ⟨left, right, mark, by omega, high⟩

/-- What a node is made of lies between its ends. -/
theorem Laid.nested {start stop : Nat} {items : List (Tree Note)}
    (laid : Laid source marked start items stop) :
    ∀ node ∈ Tree.nodesList items, ∃ first last, marked node first last ∧
      ∀ part ∈ node.nodes, ∃ left right,
        marked part left right ∧ first ≤ left ∧ right ≤ last := by
  induction laid with
  | nil => exact List.forall_mem_nil _
  | atom _ _ mark _ ih =>
      rw [Tree.nodesList, Tree.nodes, List.forall_mem_append]
      refine ⟨List.forall_mem_singleton.mpr ⟨_, _, mark, ?_⟩, ih⟩
      exact List.forall_mem_singleton.mpr
        ⟨_, _, mark, Nat.le_refl _, Nat.le_refl _⟩
  | @group _ _ _ _ _ first _ _ _ last _ _ opens contents further closes _
      mark _ innerIh ih =>
      have opening := opens.extent.1
      have inner := contents.extent.1
      have gap := further.extent.1
      have closed := closes.extent.1
      rw [Tree.nodesList, Tree.nodes, List.forall_mem_append,
        List.forall_mem_cons]
      refine ⟨⟨⟨first, last, mark, ?_⟩, innerIh⟩, ih⟩
      rw [Tree.nodes, List.forall_mem_cons]
      refine ⟨⟨_, _, mark, Nat.le_refl _, Nat.le_refl _⟩, ?_⟩
      intro part member
      obtain ⟨left, right, mark, low, high⟩ := contents.between part member
      exact ⟨left, right, mark, by omega, by omega⟩
  | @tagged _ _ value _ _ first _ last _ _ marker contents mark _ innerIh
      ih =>
      have tag := marker.extent.1
      have alone : Tree.nodesList [value] = value.nodes := List.append_nil _
      rw [alone] at innerIh
      rw [Tree.nodesList, Tree.nodes, List.forall_mem_append,
        List.forall_mem_cons]
      refine ⟨⟨⟨first, last, mark, ?_⟩, innerIh⟩, ih⟩
      rw [Tree.nodes, List.forall_mem_cons]
      refine ⟨⟨_, _, mark, Nat.le_refl _, Nat.le_refl _⟩, ?_⟩
      intro part member
      obtain ⟨left, right, mark, low, high⟩ :=
        contents.between part (alone ▸ member)
      exact ⟨left, right, mark, by omega, high⟩

end

/-- The spans of the forms in a text are nested. -/
theorem nests_of_readForms {source : String} (fits : FitsCoordinates source)
    {forms : List Form} (read : readForms source = .ok forms) :
    ∀ form ∈ forms, form.Nests := by
  have explains := explains_readForms source
  rw [read] at explains
  obtain ⟨stop, laid, -⟩ := explains
  have nested := laid.standing.nested
  intro form member node inside
  have among : node ∈ Tree.nodesList forms := by
    rw [Tree.nodesList_eq_flatMap]
    exact List.mem_flatMap_of_mem member inside
  obtain ⟨first, last, ⟨noted, standing⟩, parts⟩ := nested node among
  have span := noted.span? fits standing
  refine ⟨fun _ => by rw [span]; rfl, ?_⟩
  rw [span]
  rintro extent ⟨rfl⟩ part member span found
  obtain ⟨left, right, ⟨noted, standing⟩, low, high⟩ := parts part member
  rw [noted.span? fits standing] at found
  cases found
  exact ⟨place_le_place _ low, place_le_place _
    (Nat.sub_le_sub_right (recordedStop_le_recordedStop _ high) 1)⟩

/-! ## Abbreviations -/

namespace Metadata

theorem lookup_filter_of_contains {keys : List String} {key : String}
    (kept : keys.contains key = true) (entries : List (String × Datum)) :
    (entries.filter fun entry => keys.contains entry.1).lookup key =
      entries.lookup key := by
  induction entries with
  | nil => rfl
  | cons entry entries ih =>
      by_cases same : key = entry.1
      · rw [List.filter_cons_of_pos (same ▸ kept), lookup_cons_eq,
          lookup_cons_eq, if_pos same, if_pos same]
      · rw [lookup_cons_eq, if_neg same, ← ih, List.filter_cons]
        split
        · rw [lookup_cons_eq, if_neg same]
        · rfl

/-- A place is kept with nothing else. -/
theorem span?_positionOnly (metadata : Metadata) :
    metadata.positionOnly.span? = metadata.span? := by
  have same (key : String) (kept : positionKeys.contains key = true) :
      metadata.positionOnly.coordinate? key = metadata.coordinate? key := by
    unfold coordinate? get? positionOnly
    rw [lookup_filter_of_contains kept]
  unfold span?
  rw [same "line" (by decide), same "col" (by decide),
    same "end-line" (by decide), same "end-col" (by decide)]

end Metadata

namespace Sugar

variable {extent : Span} {note : Metadata} {items : List Form}

theorem inside_longList (own : ∀ span ∈ note.span?, span.Within extent)
    (each : ∀ item ∈ items, item.Inside extent) (head : Option String) :
    (longList note head items).Inside extent := by
  have placed : ∀ span ∈ note.positionOnly.span?, span.Within extent := by
    rwa [Metadata.span?_positionOnly]
  have nowhere : ∀ span ∈ Metadata.empty.span?, span.Within extent := nofun
  unfold longList
  split
  all_goals
    simp_all [Form.inside_group, Form.inside_atom, Form.symbol, Form.vector,
      Form.bool]

theorem nests_longList (placed : note.span?.isSome = true)
    (around : ∀ span ∈ note.span?, ∀ item ∈ items, item.Inside span)
    (each : ∀ item ∈ items, item.Nests) (head : Option String) :
    (longList note head items).Nests := by
  have nowhere : Metadata.empty.span? = none := rfl
  unfold longList
  split
  all_goals
    simp_all [Form.nests_group, Form.nests_atom, Form.inside_group,
      Form.inside_atom, Form.symbol, Form.vector, Form.bool,
      Metadata.span?_positionOnly]

mutual

theorem inside_longhand : ∀ form : Form, form.Inside extent →
    (longhand form).Inside extent
  | .atom .., inside => inside
  | .group note bracket items, inside => by
      rw [Form.inside_group] at inside
      have each := inside_longhandList items inside.2
      cases bracket with
      | list => exact inside_longList inside.1 each _
      | vector => exact Form.inside_group.mpr ⟨inside.1, each⟩
      | set => exact Form.inside_group.mpr ⟨inside.1, each⟩
      | map => exact Form.inside_group.mpr ⟨inside.1, each⟩
  | .tagged note tag value, inside => by
      rw [Form.inside_tagged] at inside
      exact Form.inside_tagged.mpr
        ⟨inside.1, inside_longhand value inside.2⟩

theorem inside_longhandList : ∀ items : List Form,
    (∀ item ∈ items, item.Inside extent) →
      ∀ item ∈ longhandList items, item.Inside extent
  | [], _ => List.forall_mem_nil _
  | item :: items, inside => by
      rw [List.forall_mem_cons] at inside
      exact List.forall_mem_cons.mpr ⟨inside_longhand item inside.1,
        inside_longhandList items inside.2⟩

end

mutual

/-- Nested spans stay nested when abbreviations are written out. -/
theorem nests_longhand : ∀ form : Form, form.Nests → (longhand form).Nests
  | .atom .., nests => nests
  | .group note bracket items, nests => by
      obtain ⟨⟨placed, around⟩, each⟩ := Form.nests_group.mp nests
      have parts := nests_longhandList items each
      have within (span : Span) (found : span ∈ note.span?) :=
        inside_longhandList items (around span found)
      cases bracket with
      | list => exact nests_longList (placed rfl) within parts _
      | vector => exact Form.nests_group.mpr ⟨⟨nofun, within⟩, parts⟩
      | set => exact Form.nests_group.mpr ⟨⟨nofun, within⟩, parts⟩
      | map => exact Form.nests_group.mpr ⟨⟨nofun, within⟩, parts⟩
  | .tagged note tag value, nests => by
      rw [Form.nests_tagged] at nests
      exact Form.nests_tagged.mpr
        ⟨fun span found => inside_longhand value (nests.1 span found),
          nests_longhand value nests.2⟩

theorem nests_longhandList : ∀ items : List Form,
    (∀ item ∈ items, item.Nests) → ∀ item ∈ longhandList items, item.Nests
  | [], _ => List.forall_mem_nil _
  | item :: items, nests => by
      rw [List.forall_mem_cons] at nests
      exact List.forall_mem_cons.mpr ⟨nests_longhand item nests.1,
        nests_longhandList items nests.2⟩

end

end Sugar

/-- The spans of a module that is read and expanded are nested. -/
theorem nests_of_readExpanded {source : String}
    (fits : FitsCoordinates source) {module : Form}
    (read : readExpanded source = .ok module) : module.Nests := by
  unfold readExpanded readModule expandModule at read
  split at read
  · cases read
  · next form found =>
      split at found
      · cases found
      · next forms alone =>
          cases found
          have nests := nests_of_readForms fits alone form
            List.mem_cons_self
          have written := Sugar.isWrittenOut_expandWithin
            (Sugar.rules.limits.depth + 1) form
          change Sugar.IsWrittenOut _ _ (Sugar.rules.expand form) at written
          split at read
          · cases read
          · next expanded =>
              cases read
              rw [expanded] at written
              rw [written.2]
              exact Sugar.nests_longhand form nests
      · cases found
      · cases found

end FormCompiler
