import FormCompiler.Emit.ModuleForm

/-!
# Forms at other places

A form is moved by changing the metadata of its nodes.  Whatever is read from a
form, it is read from the moved form too: names and shapes are the same, and
parts are the moved parts.  Only where forms stand may differ, and then
problems stand elsewhere too.

Two forms of one datum are the same when all places are taken from them.
-/

namespace FormCompiler

open Ir

/-! ## Trees -/

namespace Tree

variable {Note Other : Type}

theorem mapNotesList_eq_map (change : Note → Other)
    (items : List (Tree Note)) :
    mapNotesList change items = items.map (mapNotes change) := by
  induction items with
  | nil => rfl
  | cons item items ih => rw [mapNotesList, ih, List.map_cons]

mutual

/-- Replacing notes by notes that do not depend on them forgets them. -/
theorem mapNotes_const (note : Other) : ∀ tree : Tree Note,
    tree.mapNotes (fun _ => note) = tree.datum.mapNotes fun _ => note
  | .atom .. => rfl
  | .group _ _ items => by
      simp only [datum, mapNotes]
      rw [mapNotesList_const note items]
  | .tagged _ _ value => by
      simp only [datum, mapNotes]
      rw [mapNotes_const note value]
      rfl

theorem mapNotesList_const (note : Other) : ∀ items : List (Tree Note),
    mapNotesList (fun _ => note) items =
      mapNotesList (fun _ => note) (mapNotesList (fun _ => ()) items)
  | [] => rfl
  | item :: items => by
      simp only [mapNotesList]
      rw [mapNotes_const note item, mapNotesList_const note items]
      rfl

end

mutual

theorem height_mapNotes (change : Note → Other) : ∀ tree : Tree Note,
    (tree.mapNotes change).height = tree.height
  | .atom .. => rfl
  | .group _ _ items => by
      simp only [mapNotes, height]
      rw [heightList_mapNotes change items]
  | .tagged _ _ value => by
      simp only [mapNotes, height]
      rw [height_mapNotes change value]

theorem heightList_mapNotes (change : Note → Other) :
    ∀ items : List (Tree Note),
      heightList (mapNotesList change items) = heightList items
  | [] => rfl
  | item :: items => by
      simp only [mapNotesList, heightList]
      rw [height_mapNotes change item, heightList_mapNotes change items]

end

mutual

theorem chars_mapNotes (change : Note → Other) : ∀ tree : Tree Note,
    (tree.mapNotes change).chars = tree.chars
  | .atom .. => rfl
  | .group _ _ items => by
      simp only [mapNotes, chars]
      rw [charsList_mapNotes change items]
  | .tagged _ _ value => by
      simp only [mapNotes, chars]
      rw [chars_mapNotes change value]

theorem charsList_mapNotes (change : Note → Other) :
    ∀ items : List (Tree Note),
      charsList (mapNotesList change items) = charsList items
  | [] => rfl
  | [item] => by
      simp only [mapNotesList, charsList]
      rw [chars_mapNotes change item]
  | item :: second :: items => by
      have rest := charsList_mapNotes change (second :: items)
      simp only [mapNotesList, charsList] at rest ⊢
      rw [chars_mapNotes change item, rest]

end

end Tree

/-! ## Moves -/

/-- A way to move forms, with what it makes of problems.  A node without a place
is where the form around it is, before and after. -/
structure Move where
  note : Metadata → Metadata
  place : Option Span → Option Span
  /-- What it makes of the names of functions. -/
  name : String → String := id
  /-- Problems that are there already when others are met. -/
  earlier : List Problem := []
  place_or : ∀ metadata outer, place (metadata.span?.or outer) =
    (note metadata).span?.or (place outer)
  note_empty : note .empty = .empty

namespace Move

variable (move : Move)

/-- What is nowhere stays nowhere, and what is outside of functions stays
outside. -/
structure KeepsNowhere : Prop where
  place : move.place none = none
  name : move.name "" = ""

variable {move}

theorem KeepsNowhere.span?_note (nowhere : move.KeepsNowhere)
    (metadata : Metadata) :
    (move.note metadata).span? = move.place metadata.span? := by
  have moved := move.place_or metadata none
  rw [nowhere.place, Option.or_none, Option.or_none] at moved
  exact moved.symm

/-- Takes all metadata away. -/
def away : Move where
  note _ := .empty
  place _ := none
  place_or _ _ := rfl
  note_empty := rfl

end Move

variable {move : Move}

/-! ## Moved forms -/

namespace Form

/-- The form elsewhere. -/
def moved (move : Move) (form : Form) : Form := form.mapNotes move.note

theorem moved_away_eq_of_datum_eq {left right : Form}
    (same : left.datum = right.datum) :
    left.moved .away = right.moved .away := by
  unfold moved Move.away
  rw [Tree.mapNotes_const, Tree.mapNotes_const Metadata.empty right, same]

@[simp]
theorem moved_atom (note : Metadata) (value : Atom) :
    moved move (.atom note value) = .atom (move.note note) value := by
  rw [moved, Tree.mapNotes]

@[simp]
theorem moved_group (note : Metadata) (bracket : Bracket)
    (items : List Form) :
    moved move (.group note bracket items) =
      .group (move.note note) bracket (items.map (moved move)) := by
  rw [moved, Tree.mapNotes, Tree.mapNotesList_eq_map]
  rfl

@[simp]
theorem moved_tagged (note : Metadata) (tag : String) (value : Form) :
    moved move (.tagged note tag value) =
      .tagged (move.note note) tag (moved move value) := by
  rw [moved, Tree.mapNotes]
  rfl

theorem note_moved (form : Form) :
    (moved move form).note = move.note form.note := by
  cases form <;> simp [Tree.note]

theorem place_or_span? (form : Form) (outer : Option Span) :
    move.place (form.span?.or outer) =
      (moved move form).span?.or (move.place outer) := by
  rw [span?, span?, note_moved]
  exact move.place_or form.note outer

theorem span?_moved (nowhere : move.KeepsNowhere) (form : Form) :
    (moved move form).span? = move.place form.span? := by
  rw [span?, span?, note_moved]
  exact nowhere.span?_note form.note

variable (form : Form)

@[simp]
theorem height_moved : (moved move form).height = form.height :=
  Tree.height_mapNotes _ form

@[simp]
theorem text_moved : (moved move form).text = form.text :=
  congrArg String.ofList (Tree.chars_mapNotes _ form)

@[simp]
theorem kindName_moved : (moved move form).kindName = form.kindName := by
  cases form <;> simp [Tree.kindName]

@[simp]
theorem symbol?_moved : (moved move form).symbol? = form.symbol? := by
  cases form with
  | atom note value => cases value <;> simp [Tree.symbol?]
  | group | tagged => simp [Tree.symbol?]

@[simp]
theorem keyword?_moved : (moved move form).keyword? = form.keyword? := by
  cases form with
  | atom note value => cases value <;> simp [Tree.keyword?]
  | group | tagged => simp [Tree.keyword?]

@[simp]
theorem string?_moved : (moved move form).string? = form.string? := by
  cases form with
  | atom note value => cases value <;> simp [Tree.string?]
  | group | tagged => simp [Tree.string?]

@[simp]
theorem int?_moved : (moved move form).int? = form.int? := by
  cases form with
  | atom note value => cases value <;> simp [Tree.int?]
  | group | tagged => simp [Tree.int?]

@[simp]
theorem float?_moved : (moved move form).float? = form.float? := by
  cases form with
  | atom note value => cases value <;> simp [Tree.float?]
  | group | tagged => simp [Tree.float?]

@[simp]
theorem bool?_moved : (moved move form).bool? = form.bool? := by
  cases form with
  | atom note value => cases value <;> simp [Tree.bool?]
  | group | tagged => simp [Tree.bool?]

@[simp]
theorem name?_moved : (moved move form).name? = form.name? := by
  cases form with
  | atom note value => cases value <;> simp [Tree.name?]
  | group | tagged => simp [Tree.name?]

@[simp]
theorem list?_moved :
    (moved move form).list? = form.list?.map (List.map (moved move)) := by
  cases form with
  | group note bracket items => cases bracket <;> simp [Tree.list?]
  | atom | tagged => simp [Tree.list?]

@[simp]
theorem vector?_moved :
    (moved move form).vector? = form.vector?.map (List.map (moved move)) := by
  cases form with
  | group note bracket items => cases bracket <;> simp [Tree.vector?]
  | atom | tagged => simp [Tree.vector?]

@[simp]
theorem head?_moved : (moved move form).head? = form.head? := by
  unfold Tree.head?
  rw [list?_moved]
  cases form.list? with
  | none => rfl
  | some items => cases items <;> simp

end Form

/-! ## Shapes -/

section Shapes

variable (form : Form) (items : List Form)

@[simp]
theorem localName?_moved : localName? (form.moved move) = localName? form := by
  simp [localName?]

@[simp]
theorem isLocalReference_moved :
    isLocalReference (form.moved move) = isLocalReference form := by
  simp [isLocalReference]

@[simp]
theorem isUnsigned_moved : isUnsigned (form.moved move) = isUnsigned form := by
  simp [isUnsigned]

@[simp]
theorem arrayLength?_moved :
    arrayLength? (form.moved move) = arrayLength? form := by
  simp [arrayLength?]

@[simp]
theorem byte?_moved : byte? (form.moved move) = byte? form := by
  simp [byte?]

/-- Reading the item at a position of moved items. -/
theorem bind_getElem?_moved {Part : Type} {read : Form → Option Part}
    (same : ∀ form, read (form.moved move) = read form) (index : Nat) :
    (items.map (Form.moved move))[index]?.bind read =
      items[index]?.bind read := by
  cases found : items[index]? <;> simp [found, same]

@[simp]
theorem expectLength_moved (length : Nat) (shape : String) :
    expectLength (items.map (Form.moved move)) length shape =
      expectLength items length shape := by
  simp [expectLength]

@[simp]
theorem itemAt_moved (index : Nat) (shape : String) :
    itemAt (items.map (Form.moved move)) index shape =
      (itemAt items index shape).map (Form.moved move) := by
  unfold itemAt
  cases found : items[index]? <;> simp [found] <;> rfl

@[simp]
theorem nameAt_moved (index : Nat) (shape : String) :
    nameAt (items.map (Form.moved move)) index shape =
      nameAt items index shape := by
  unfold nameAt
  rw [bind_getElem?_moved items localName?_moved]

@[simp]
theorem symbolAt_moved (index : Nat) (shape : String) :
    symbolAt (items.map (Form.moved move)) index shape =
      symbolAt items index shape := by
  unfold symbolAt
  rw [bind_getElem?_moved items Form.name?_moved]

@[simp]
theorem itemSymbolAt_moved (index : Nat) (shape : String) :
    itemSymbolAt (items.map (Form.moved move)) index shape =
      itemSymbolAt items index shape := by
  unfold itemSymbolAt
  cases found : items[index]? <;> simp [found]

@[simp]
theorem itemsFrom_moved (start : Nat) (shape : String) :
    itemsFrom (items.map (Form.moved move)) start shape =
      (itemsFrom items start shape).map (List.map (Form.moved move)) := by
  unfold itemsFrom
  rw [List.length_map]
  split
  · rw [← List.map_drop]
    rfl
  · rfl

@[simp]
theorem vectorAt_moved (index : Nat) (shape : String) :
    vectorAt (items.map (Form.moved move)) index shape =
      (vectorAt items index shape).map (List.map (Form.moved move)) := by
  unfold vectorAt
  cases found : items[index]? with
  | none => simp [found]; rfl
  | some item => cases vector : item.vector? <;> simp [found, vector] <;> rfl

@[simp]
theorem splitBody_moved (value : Option String) :
    splitBody value (items.map (Form.moved move)) =
      ((splitBody value items).1.map (Form.moved move),
        (splitBody value items).2) := by
  fun_induction splitBody value items with
  | case1 value => rfl
  | case2 value item key => simp [splitBody, key]
  | case3 value item key operand rest ih => simp [splitBody, key, ih]
  | case4 value item rest key body last found ih =>
      rw [found] at ih
      rw [List.map_cons]
      unfold splitBody
      simp [key, ih]

@[simp]
theorem bodyAndValue_moved :
    bodyAndValue (items.map (Form.moved move)) =
      ((bodyAndValue items).1.map (Form.moved move), (bodyAndValue items).2) :=
  splitBody_moved items none

end Shapes

namespace KeywordArguments

/-- The arguments elsewhere. -/
def moved (move : Move) (arguments : KeywordArguments) : KeywordArguments :=
  ⟨arguments.pairs.map fun pair => (pair.1, pair.2.moved move)⟩

theorem readPairs_moved : ∀ items : List Form,
    readPairs (items.map (Form.moved move)) =
      (readPairs items).map fun pair => (pair.1, pair.2.moved move)
  | [] | [_] => rfl
  | key :: value :: rest => by
      have ih := readPairs_moved rest
      simp only [List.map_cons, readPairs, Form.keyword?_moved, ih]
      cases key.keyword? <;> rfl

@[simp]
theorem ofItems_moved (items : List Form) :
    ofItems (items.map (Form.moved move)) = (ofItems items).moved move :=
  congrArg KeywordArguments.mk (readPairs_moved items)

@[simp]
theorem follow_moved (items : List Form) (start : Nat) (shape : String) :
    follow (items.map (Form.moved move)) start shape =
      (follow items start shape).map (moved move) := by
  unfold follow
  rw [itemsFrom_moved]
  cases itemsFrom items start shape with
  | error cause => rfl
  | ok rest => exact congrArg Except.ok (ofItems_moved rest)

@[simp]
theorem ofForm_moved (form : Form) :
    ofForm (form.moved move) = (ofForm form).moved move := by
  unfold ofForm
  rw [Form.list?_moved, ← ofItems_moved]
  cases form.list? <;> simp

variable (arguments : KeywordArguments) (key : String)

@[simp]
theorem get?_moved :
    (arguments.moved move).get? key =
      (arguments.get? key).map (Form.moved move) := by
  obtain ⟨pairs⟩ := arguments
  unfold get? moved
  induction pairs with
  | nil => rfl
  | cons pair pairs ih =>
      obtain ⟨name, value⟩ := pair
      simp only [List.map_cons, List.lookup_cons]
      cases key == name with
      | true => rfl
      | false => exact ih

@[simp]
theorem vector?_moved : (arguments.moved move).vector? key =
    (arguments.vector? key).map (List.map (Form.moved move)) := by
  unfold vector?
  cases found : arguments.get? key <;> simp [found]

@[simp]
theorem name?_moved :
    (arguments.moved move).name? key = arguments.name? key := by
  unfold name?
  cases found : arguments.get? key <;> simp [found]

@[simp]
theorem symbol?_moved :
    (arguments.moved move).symbol? key = arguments.symbol? key := by
  unfold symbol?
  cases found : arguments.get? key <;> simp [found]

@[simp]
theorem flag_moved : (arguments.moved move).flag key = arguments.flag key := by
  unfold flag
  cases found : arguments.get? key <;> simp [found]

end KeywordArguments

/-! ## Names that need a stack slot -/

mutual

theorem nestedLists_moved : ∀ form : Form,
    nestedLists (form.moved move) = (nestedLists form).map (Form.moved move)
  | .atom .. => by simp [nestedLists]
  | .tagged .. => by simp [nestedLists]
  | .group _ bracket items => by
      rw [Form.moved_group]
      cases bracket <;> simp [nestedLists, nestedListsAll_moved items]

theorem nestedListsAll_moved : ∀ items : List Form,
    nestedListsAll (items.map (Form.moved move)) =
      (nestedListsAll items).map (Form.moved move)
  | [] => by simp [nestedListsAll]
  | item :: items => by
      simp [nestedListsAll, nestedLists_moved item, nestedListsAll_moved items]

end

@[simp]
theorem listNameAt?_moved (form : Form) (index : Nat) :
    listNameAt? (form.moved move) index = listNameAt? form index := by
  unfold listNameAt?
  rw [Form.list?_moved]
  cases form.list? with
  | none => rfl
  | some items => exact bind_getElem?_moved items localName?_moved index

theorem definedName?_moved (form : Form) :
    definedName? (form.moved move) = definedName? form := by
  have marks :
      (((form.moved move).list?.getD [])[1]?).any isLocalReference =
      ((form.list?.getD [])[1]?).any isLocalReference := by
    rw [Form.list?_moved]
    cases form.list? with
    | none => rfl
    | some items => cases found : items[1]? <;> simp [found]
  simp only [definedName?, Form.head?_moved, listNameAt?_moved, marks]

theorem markedName?_moved (form : Form) :
    markedName? (form.moved move) = markedName? form := by
  simp only [markedName?, Form.head?_moved, listNameAt?_moved]

@[simp]
theorem mutableNames_moved (parameters : List String) (body : List Form) :
    mutableNames parameters (body.map (Form.moved move)) =
      mutableNames parameters body := by
  have defined :
      definedNames (body.map (Form.moved move)) = definedNames body := by
    unfold definedNames
    rw [nestedListsAll_moved, List.filterMap_map]
    exact congrArg (List.filterMap · _) (funext definedName?_moved)
  have marked :
      markedNames (body.map (Form.moved move)) = markedNames body := by
    unfold markedNames
    rw [nestedListsAll_moved, List.filterMap_map]
    exact congrArg (List.filterMap · _) (funext markedName?_moved)
  simp only [mutableNames, defined, marked]

/-! ## Types -/

section Types

variable {Part Result Last : Type}

theorem typePart_moved (form : Form) (part : Option Part) :
    typePart (form.moved move) part = typePart form part := by
  cases part <;> simp [typePart]

theorem typePart_map_bind (form : Form) (change : Part → Part)
    (part : Option Part) (next : Part → TypeReader Result) :
    (typePart form (part.map change) >>= next) =
      typePart form part >>= fun item => next (change item) := by
  cases part <;> rfl

/-- Reading a part that must be there. -/
theorem typePart_bind_moved {read : Form → TypeReader Result}
    (same : ∀ form, read (form.moved move) = read form) (form : Form)
    (part : Option Form) (next : Result → TypeReader Last) :
    (do
      let item ← typePart (form.moved move) (part.map (Form.moved move))
      next (← read item)) =
      (do next (← read (← typePart form part))) := by
  rw [typePart_moved, typePart_map_bind]
  simp only [same]

theorem mapM_moved {read : Form → TypeReader Result}
    (same : ∀ form, read (form.moved move) = read form) (items : List Form) :
    (items.map (Form.moved move)).mapM read = items.mapM read := by
  rw [List.mapM_map]
  exact congrArg (List.mapM · items) (funext same)

theorem vectorOf_moved (arguments : KeywordArguments) (key : String) :
    ((arguments.moved move).vector? key).getD [] =
      ((arguments.vector? key).getD []).map (Form.moved move) := by
  rw [KeywordArguments.vector?_moved]
  cases arguments.vector? key <;> rfl

theorem readTypeWithin_moved (depth : Nat) (form : Form) :
    readTypeWithin depth (form.moved move) = readTypeWithin depth form := by
  induction depth generalizing form with
  | zero => simp [readTypeWithin]
  | succ depth ih =>
      unfold readTypeWithin
      rw [Form.symbol?_moved, Form.list?_moved, Form.head?_moved]
      cases form.symbol? with
      | some name => rfl
      | none =>
          dsimp only
          rw [typePart_moved, typePart_map_bind]
          refine bind_congr fun items => ?_
          simp only [← List.map_tail, KeywordArguments.ofItems_moved,
            KeywordArguments.get?_moved, KeywordArguments.flag_moved,
            vectorOf_moved, mapM_moved ih]
          split
          · match items with
            | [] | [_] | _ :: _ :: _ :: _ =>
                exact typePart_bind_moved ih form _ _
            | [_, target] =>
                simp only [List.map_cons, List.map_nil, pure_bind, ih]
          · rw [typePart_moved, bind_getElem?_moved items Form.name?_moved]
          · rw [typePart_bind_moved ih]
            refine bind_congr fun element => bind_congr fun type => ?_
            rw [typePart_moved]
            congr 2
            cases (KeywordArguments.ofItems items.tail).get? "size" <;> simp
          · cases (KeywordArguments.ofItems items.tail).get? "ret" with
            | none => rfl
            | some result =>
                simp only [Option.map_some, ih]
          · rw [Form.text_moved]

@[simp]
theorem readType_moved (form : Form) :
    readType (form.moved move) = readType form := by
  unfold readType
  rw [Form.height_moved, readTypeWithin_moved]

end Types

/-! ## Aggregates -/

/-- The problem without its place. -/
def Problem.unplaced (problem : Problem) : Problem :=
  { problem with span := none }

/-- The problem elsewhere. -/
def Problem.moved (move : Move) (problem : Problem) : Problem :=
  { problem with
    function := move.name problem.function
    span := move.place problem.span }

theorem moved_moduleProblem (nowhere : move.KeepsNowhere) (operation : String)
    (span : Option Span) (cause : ProblemCause) :
    (moduleProblem operation span cause).moved move =
      moduleProblem operation (move.place span) cause := by
  unfold Problem.moved
  rw [show (moduleProblem operation span cause).function = "" from rfl,
    nowhere.name]
  rfl

section Layouts

variable {Part Result Layout : Type}

theorem shaped_map_bind (shape : String) (change : Part → Part)
    (part : Option Part) (next : Part → TypeReader Result) :
    (shaped shape (part.map change) >>= next) =
      shaped shape part >>= fun item => next (change item) := by
  cases part <;> rfl

theorem argumentsUnder?_moved (head : String) (form : Form) :
    argumentsUnder? head (form.moved move) =
      (argumentsUnder? head form).map (KeywordArguments.moved move) := by
  unfold argumentsUnder?
  rw [Form.head?_moved, KeywordArguments.ofForm_moved]
  split <;> rfl

theorem readField_moved (head : String) (form : Form) :
    readField head (form.moved move) = readField head form := by
  unfold readField
  rw [argumentsUnder?_moved, shaped_map_bind]
  simp only [KeywordArguments.symbol?_moved, KeywordArguments.get?_moved,
    shaped_map_bind, readType_moved]

theorem readFields_moved (arguments : KeywordArguments) (head : String) :
    readFields (arguments.moved move) head = readFields arguments head := by
  unfold readFields
  rw [vectorOf_moved, mapM_moved (readField_moved head)]

theorem readVariant_moved (tag : Nat) (form : Form) :
    readVariant tag (form.moved move) = readVariant tag form := by
  unfold readVariant
  rw [argumentsUnder?_moved, shaped_map_bind]
  simp only [KeywordArguments.symbol?_moved, vectorOf_moved,
    mapM_moved readType_moved]

theorem readVariants_moved (tag : Nat) (forms : List Form) :
    readVariants tag (forms.map (Form.moved move)) =
      readVariants tag forms := by
  induction forms generalizing tag with
  | nil => rfl
  | cons form forms ih =>
      simp only [List.map_cons, readVariants, readVariant_moved, ih]

/-- The declaration elsewhere. -/
def Declaration.moved (move : Move) (declaration : Declaration) :
    Declaration :=
  { declaration with
    arguments := declaration.arguments.moved move
    span := move.place declaration.span }

theorem readStruct_moved (declaration : Declaration) :
    readStruct (declaration.moved move) = readStruct declaration := by
  simp only [readStruct, Declaration.moved, readFields_moved]

theorem readSum_moved (declaration : Declaration) :
    readSum (declaration.moved move) = readSum declaration := by
  simp only [readSum, Declaration.moved, vectorOf_moved, readVariants_moved]

theorem readUnion_moved (declaration : Declaration) :
    readUnion (declaration.moved move) = readUnion declaration := by
  simp only [readUnion, Declaration.moved, readFields_moved]

/-- A declaration, or the problem with it, elsewhere. -/
def movedOutcome (move : Move) :
    Except Problem Declaration → Except Problem Declaration
  | .ok declaration => .ok (declaration.moved move)
  | .error problem => .error (problem.moved move)

theorem Declaration.ofForm?_moved (nowhere : move.KeepsNowhere)
    (form : Form) :
    ofForm? (form.moved move) = (ofForm? form).map (movedOutcome move) := by
  unfold ofForm?
  rw [Form.head?_moved, KeywordArguments.ofForm_moved,
    Form.span?_moved nowhere, Option.map_map]
  congr 1
  funext kind
  simp only [KeywordArguments.symbol?_moved, Function.comp_apply]
  cases (KeywordArguments.ofForm form).symbol? "name" with
  | none =>
      exact congrArg Except.error
        (moved_moduleProblem nowhere kind.head form.span? _).symm
  | some name => rfl

namespace LayoutState

/-- The state with its problems elsewhere. -/
def moved (move : Move) (state : LayoutState) : LayoutState :=
  { state with problems := state.problems.map (Problem.moved move) }

theorem enter_moved (nowhere : move.KeepsNowhere) (state : LayoutState)
    (declaration : Declaration)
    (reader : TypeReader Layout) (add : Layouts → Layout → Layouts) :
    (state.moved move).enter (declaration.moved move) reader add =
      (state.enter declaration reader add).moved move := by
  have table : (state.moved move).table = state.table := rfl
  unfold enter
  rw [table]
  generalize reader.run state.table = outcome
  obtain ⟨result, table⟩ := outcome
  cases result with
  | ok layout => rfl
  | error cause =>
      have problem : (moduleProblem declaration.kind.head declaration.span
          cause).moved move = moduleProblem declaration.kind.head
            (declaration.moved move).span cause :=
        moved_moduleProblem nowhere _ _ cause
      simp only [moved, List.map_append, List.map_cons, List.map_nil]
      rw [problem]
      rfl

theorem enterStruct_moved (nowhere : move.KeepsNowhere) (state : LayoutState)
    (declaration : Declaration) :
    (state.moved move).enterStruct (declaration.moved move) =
      (state.enterStruct declaration).moved move := by
  unfold enterStruct
  rw [readStruct_moved]
  obtain ⟨kind, name, arguments, span⟩ := declaration
  cases kind with
  | struct => exact enter_moved nowhere state _ _ _
  | sum | union => rfl

theorem enterTagged_moved (nowhere : move.KeepsNowhere) (state : LayoutState)
    (declaration : Declaration) :
    (state.moved move).enterTagged (declaration.moved move) =
      (state.enterTagged declaration).moved move := by
  unfold enterTagged
  rw [readSum_moved, readUnion_moved]
  obtain ⟨kind, name, arguments, span⟩ := declaration
  cases kind with
  | struct => rfl
  | sum | union => exact enter_moved nowhere state _ _ _

theorem foldl_moved {enter : LayoutState → Declaration → LayoutState}
    (same : ∀ state declaration,
      enter (state.moved move) (declaration.moved move) =
      (enter state declaration).moved move)
    (declarations : List Declaration) (state : LayoutState) :
    (declarations.map (Declaration.moved move)).foldl enter (state.moved move) =
      (declarations.foldl enter state).moved move := by
  induction declarations generalizing state with
  | nil => rfl
  | cons declaration declarations ih =>
      rw [List.map_cons, List.foldl_cons, List.foldl_cons, same, ih]

end LayoutState

theorem declareNames_moved (declarations : List Declaration) :
    declareNames (declarations.map (Declaration.moved move)) =
      declareNames declarations := by
  unfold declareNames
  rw [List.forM_eq_forM]
  induction declarations with
  | nil => rfl
  | cons declaration declarations ih =>
      rw [List.map_cons, List.forM_cons, List.forM_cons, ih]
      rfl

open LayoutState in
theorem layOut_moved (nowhere : move.KeepsNowhere) (forms : List Form)
    (table : TypeTable) :
    layOut (forms.map (Form.moved move)) table =
      (layOut forms table).moved move := by
  have found : (forms.map (Form.moved move)).filterMap Declaration.ofForm? =
      (forms.filterMap Declaration.ofForm?).map (movedOutcome move) := by
    rw [List.filterMap_map, List.map_filterMap]
    exact congrArg (List.filterMap · forms)
      (funext (Declaration.ofForm?_moved nowhere))
  have picked {Part : Type} (strip : Part → Part)
      (pick : Except Problem Declaration → Option Part)
      (same : ∀ outcome, pick (movedOutcome move outcome) =
        (pick outcome).map strip)
      (outcomes : List (Except Problem Declaration)) :
      (outcomes.map (movedOutcome move)).filterMap pick =
        (outcomes.filterMap pick).map strip := by
    rw [List.filterMap_map, List.map_filterMap]
    exact congrArg (List.filterMap · outcomes) (funext same)
  have folded (declarations : List Declaration) (problems : List Problem)
      (table : TypeTable) :
      (declarations.map (Declaration.moved move)).foldl enterTagged
          ((declarations.map (Declaration.moved move)).foldl enterStruct
            { table, problems := problems.map (Problem.moved move) }) =
        (declarations.foldl enterTagged
          (declarations.foldl enterStruct { table, problems })).moved move := by
    rw [← foldl_moved (enterTagged_moved nowhere),
      ← foldl_moved (enterStruct_moved nowhere)]
    rfl
  unfold layOut
  dsimp only
  rw [found, picked (Declaration.moved move) _ (by rintro ⟨⟩ <;> rfl),
    picked (Problem.moved move) _ (by rintro ⟨⟩ <;> rfl),
    declareNames_moved]
  exact folded _ _ _

end Layouts

/-! ## Modules -/

/-- The parts elsewhere. -/
def ModuleParts.moved (move : Move) (parts : ModuleParts) : ModuleParts :=
  { settings := parts.settings.map fun setting =>
      (setting.1, setting.2.moved move)
    declarations := parts.declarations.map (Form.moved move) }

theorem splitModule_moved (items : List Form) :
    splitModule (items.map (Form.moved move)) =
      ((splitModule items).1.moved move, (splitModule items).2) := by
  fun_induction splitModule items with
  | case1 => rfl
  | case2 item rest key parts error found ih =>
      rw [found] at ih
      rw [List.map_cons]
      unfold splitModule
      simp [key, ih, ModuleParts.moved]
  | case3 item key found => simp [splitModule, found, ModuleParts.moved]
  | case4 item key found value rest parts error split ih =>
      rw [split] at ih
      simp [splitModule, found, ih, ModuleParts.moved]

theorem applySettings_moved (module : Module) (parts : ModuleParts) :
    applySettings module (parts.moved move).settings =
      applySettings module parts.settings := by
  simp [applySettings, ModuleParts.moved, List.foldl_map]

@[simp]
theorem globalInitializer_moved (table : TypeTable) (type : TypeId)
    (literal : Option Form) :
    globalInitializer table type (literal.map (Form.moved move)) =
      globalInitializer table type literal := by
  cases literal <;> simp [globalInitializer]

theorem readParameter_moved (index : Nat) (form : Form) :
    readParameter index (form.moved move) = readParameter index form := by
  unfold readParameter
  rw [Form.head?_moved, Form.list?_moved]
  cases form.list? with
  | none => rfl
  | some items =>
      simp only [Option.map_some, Option.getD_some, List.getElem?_map,
        shaped_map_bind, readType_moved]
      rw [← List.getElem?_map, bind_getElem?_moved items localName?_moved]

theorem readParameters_moved (index : Nat) (forms : List Form) :
    readParameters index (forms.map (Form.moved move)) =
      readParameters index forms := by
  induction forms generalizing index with
  | nil => rfl
  | cons form forms ih =>
      simp only [List.map_cons, readParameters, readParameter_moved, ih]

/-- The header with its body elsewhere. -/
def FunctionHeader.moved (move : Move) (header : FunctionHeader) :
    FunctionHeader :=
  { header with body := header.body.map (List.map (Form.moved move)) }

theorem readHeader_moved (form : Form) :
    readHeader (form.moved move) =
      FunctionHeader.moved move <$> readHeader form := by
  unfold readHeader
  rw [KeywordArguments.ofForm_moved]
  generalize KeywordArguments.ofForm form = arguments
  have body : (if arguments.flag "external" then none
      else (arguments.vector? "body").map (List.map (Form.moved move))) =
      (if arguments.flag "external" then none
        else arguments.vector? "body").map (List.map (Form.moved move)) := by
    split <;> rfl
  simp only [KeywordArguments.symbol?_moved, KeywordArguments.get?_moved,
    KeywordArguments.flag_moved, vectorOf_moved, readParameters_moved,
    KeywordArguments.vector?_moved arguments "body", body, map_bind]
  refine bind_congr fun name => ?_
  cases arguments.get? "ret" with
  | none =>
      simp only [Option.map_none, map_bind, map_pure, FunctionHeader.moved]
  | some result =>
      simp only [Option.map_some, readType_moved, map_bind, map_pure,
        FunctionHeader.moved]

end FormCompiler
