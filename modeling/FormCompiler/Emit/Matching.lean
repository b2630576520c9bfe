import FormCompiler.Emit.Aggregate
import FormCompiler.Emit.Phi

/-!
# Matching on sums

The tag is compared with each case in turn; every case has a block for its
test and one for its body.  Where a match has a result, every arm that
reaches the end contributes the value it leaves as an edge of a phi, and a
match without a default contributes an undefined value for what no case
takes.
-/

namespace FormCompiler

open Ir

def matchShape : String :=
  "(match [%dst T]? Sum %val :cases [(case V ..)..] :default ..)"

/-- A field of the payload that is bound to a name. -/
structure PayloadBinding where
  name : String
  offset : Nat
  type : TypeId

/-- What is done in one arm of a match. -/
structure Arm where
  bindings : List PayloadBinding := []
  body : List Form
  value : Option String

/-- An arm for a tag. -/
structure TaggedArm where
  tag : Nat
  arm : Arm

/-- The result of a match. -/
structure MatchResult where
  destination : String
  type : TypeId

/-! ## Reading -/

/-- The instructions of an arm and the name of its value. -/
def keyedBody (arguments : KeywordArguments) : List Form × Option String :=
  let (body, value) := bodyAndValue ((arguments.vector? "body").getD [])
  (body, (arguments.name? "value").or value)

/-- Reads `(bind %n idx)`. -/
def readBinding (sum : String) (variant : Variant) (form : Form) :
    Handler PayloadBinding := do
  let parts := do
    match form.list? with
    | some [head, nameForm, indexForm] =>
        if head.symbol? = some "bind" then
          some (← localName? nameForm, ← arrayLength? indexForm)
        else none
    | _ => none
  let (name, index) ← orFail (.malformed "(bind %n idx)") parts
  let variantName := variant.name
  let (offset, type) ← orFail (.unknownLayout s!"{sum}.{variantName}.{index}")
    (variant.field? (← types) index)
  pure ⟨name, offset, type⟩

/-- The bindings, the instructions and the value of a case, from what follows
the name of its variant. -/
def caseParts (rest : List Form) :
    Option (List Form × List Form × Option String) :=
  match rest with
  | [form] =>
      form.vector?.map fun items => ([], bodyAndValue items)
  | _ =>
      let arguments := KeywordArguments.ofItems rest
      some ((arguments.vector? "binds").getD [], keyedBody arguments)

/-- Reads a case.  One for a variant that the sum does not have is reported
and left out. -/
def readCase (layout : SumLayout) (sum : String) (form : Form) :
    Handler (Option TaggedArm) := do
  let malformed := ProblemCause.malformed matchShape
  if form.head? ≠ some "case" then throw malformed
  let items ← orFail malformed form.list?
  let name ← symbolAt items 1 matchShape
  match layout.variant? name with
  | none =>
      report "match" (.unknownLayout s!"{sum}.{name}")
      pure none
  | some variant =>
      let rest ← itemsFrom items 2 matchShape
      let (bindForms, body, value) ← orFail malformed (caseParts rest)
      let bindings ← bindForms.mapM (readBinding sum variant)
      pure (some ⟨variant.tag, { bindings, body, value }⟩)

/-- Reads cases in order. -/
def readCases (layout : SumLayout) (sum : String) :
    List Form → Handler (List TaggedArm)
  | [] => pure []
  | form :: forms => do
      let arm ← readCase layout sum form
      pure (arm.toList ++ (← readCases layout sum forms))

/-- Reads `[body.. :value %v]` or `(default :body [..] :value %v)`. -/
def readDefault (form : Form) : Handler Arm := do
  match form.vector? with
  | some items =>
      let (body, value) := bodyAndValue items
      pure { body, value }
  | none =>
      if form.head? ≠ some "default" then throw (.malformed matchShape)
      let (body, value) := keyedBody (.ofForm form)
      pure { body, value }

/-- The result of a match, and where the rest of its form starts. -/
def readResult (items : List Form) :
    Handler (Option MatchResult × List Form) := do
  match items with
  | _ :: destination :: rest =>
      if isLocalReference destination then
        let name ← orFail (.malformed matchShape) (localName? destination)
        match rest with
        | typeForm :: rest => pure (some ⟨name, ← typeOf typeForm⟩, rest)
        | [] => throw (.malformed matchShape)
      else pure (none, destination :: rest)
  | _ => pure (none, [])

/-! ## Emitting -/

/-- Loads the bound fields of a payload. -/
def bindPayload (scrutinee : Value) (bindings : List PayloadBinding) :
    Handler Unit := do
  let malformed := ProblemCause.malformed matchShape
  if !bindings.isEmpty then
    let payload ← orFail malformed
      (← Builder.fieldPointer scrutinee 1 "match.payload.addr")
    bindings.forM fun binding => do
      let name := binding.name
      let pointer ← orFail malformed
        (← payloadPointer payload binding.offset binding.type name)
      let value ← orFail malformed (← Builder.load pointer name)
      define name value binding.type

/-- The value that an arm contributes to the result. -/
def armValue (type : TypeId) (name : Option String) : Emission Value := do
  match name with
  | none => Builder.constantUndef type
  | some name =>
      match ← getValue name with
      | some value => pure value
      | none =>
          report "match" (.unresolved name)
          Builder.constantUndef type

/-- Emits the body of an arm.  Where it reaches the end of the match, its
edge is given. -/
def emitMatchArm (emit : FormEmitter) (result : Option MatchResult)
    (endBlock : BlockId) (arm : Arm) :
    Emission (List (EdgeSource × String)) := do
  emitSequence emit arm.body
  match ← currentBlock? with
  | none => pure []
  | some exit =>
      if ← isTerminated then pure []
      else
        let edges ←
          match result with
          | none => pure []
          | some result =>
              let value ← armValue result.type arm.value
              pure [(.value value, (← module).blockName exit)]
        Builder.branch endBlock
        pure edges

/-- An arm with the blocks of its test and its body. -/
structure PlacedArm where
  tagged : TaggedArm
  testBlock : BlockId
  bodyBlock : BlockId

/-- The block that tests the first of some arms. -/
def firstArmTest (noMatch : BlockId) : List PlacedArm → BlockId
  | [] => noMatch
  | placed :: _ => placed.testBlock

/-- Emits tests and bodies of arms; each test leads to the next one. -/
def emitMatchCases (emit : FormEmitter) (result : Option MatchResult)
    (scrutinee tag : Value) (noMatch endBlock : BlockId) :
    List PlacedArm → Emission (List (EdgeSource × String))
  | [] => pure []
  | placed :: rest => do
      Builder.positionAtEnd placed.testBlock
      let expected ← Builder.constantI32 placed.tagged.tag
      let hit ← Builder.compareInt .eq tag expected "match.cmp"
      Builder.branchIf hit placed.bodyBlock (firstArmTest noMatch rest)
      Builder.positionAtEnd placed.bodyBlock
      match ← (bindPayload scrutinee placed.tagged.arm.bindings).run with
      | .ok _ => pure ()
      | .error cause => report "match" cause
      let edges ← emitMatchArm emit result endBlock placed.tagged.arm
      let later ←
        emitMatchCases emit result scrutinee tag noMatch endBlock rest
      pure (edges ++ later)

/-- Adds blocks that are numbered from zero. -/
def appendNumbered (stem : String) (count id : Nat) :
    Emission (List BlockId) :=
  (List.range count).mapM fun index =>
    Builder.appendBlock s!"{stem}.{index}.{id}"

/-- Adds the blocks of arms, all tests ahead of all bodies. -/
def placeArms (arms : List TaggedArm) (id : Nat) :
    Emission (List PlacedArm) := do
  let tests ← appendNumbered "match.case" arms.length id
  let bodies ← appendNumbered "match.body" arms.length id
  pure ((arms.zip (tests.zip bodies)).map fun (arm, test, body) =>
    ⟨arm, test, body⟩)

/-- Emits the blocks of a match and gives the edges that reach its end, which
is the current block afterwards. -/
def emitMatchBlocks (emit : FormEmitter) (result : Option MatchResult)
    (scrutinee tag : Value) (arms : List TaggedArm) (default : Option Arm) :
    Emission (BlockId × List (EdgeSource × String)) := do
  let id ← freshId
  let placed ← placeArms arms id
  let start ← currentBlock?
  match default with
  | some arm =>
      let defaultBlock ← Builder.appendBlock s!"match.default.{id}"
      let endBlock ← Builder.appendBlock s!"match.end.{id}"
      Builder.branch (firstArmTest defaultBlock placed)
      let edges ← emitMatchCases emit result scrutinee tag defaultBlock
        endBlock placed
      Builder.positionAtEnd defaultBlock
      let last ← emitMatchArm emit result endBlock arm
      Builder.positionAtEnd endBlock
      pure (endBlock, edges ++ last)
  | none =>
      let endBlock ← Builder.appendBlock s!"match.end.{id}"
      Builder.branch (firstArmTest endBlock placed)
      let edges ← emitMatchCases emit result scrutinee tag endBlock endBlock
        placed
      Builder.positionAtEnd endBlock
      let unmatched := (placed.getLast?.map PlacedArm.testBlock).or start
      match result, unmatched with
      | some result, some block =>
          let undefined ← Builder.constantUndef result.type
          let name := (← module).blockName block
          pure (endBlock, edges ++ [(.value undefined, name)])
      | _, _ => pure (endBlock, edges)

/-- `(match Sum %val ..)`, or `(match %dst T Sum %val ..)` for a result. -/
def emitMatch (emit : FormEmitter) (items : List Form) : Handler Unit := do
  let (result, rest) ← readResult items
  let sum ← symbolAt rest 0 matchShape
  let scrutineeForm ← orFail (.malformed matchShape) rest[1]?
  let arguments := KeywordArguments.ofItems (rest.drop 2)
  let layout ← orFail (.unknownLayout sum) ((← read).layouts.sums.find? sum)
  let arms ← readCases layout sum ((arguments.vector? "cases").getD [])
  let default ← (arguments.get? "default").mapM readDefault
  let scrutinee ← sumOperand scrutineeForm layout "match scrutinee"
  let tagAddress ← orFail (.unknownLayout sum)
    (← Builder.fieldPointer scrutinee 0 "match.tag.addr")
  let tag ← orFail (.unknownLayout sum)
    (← Builder.load tagAddress "match.tag")
  let (endBlock, incoming) ←
    emitMatchBlocks emit result scrutinee tag arms default
  match result with
  | some result =>
      let phi ←
        placePhi endBlock result.destination result.type incoming
      modify fun state =>
        { state with
          matchEnds := state.matchEnds ++ [(endBlock, result.type)] }
      define result.destination phi result.type
  | none => pure ()

end FormCompiler
