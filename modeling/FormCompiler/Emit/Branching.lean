import FormCompiler.Emit.Resolution

/-!
# Branches, loops and blocks

Every construct takes a number, which all its blocks bear, and ends at one
block of its own.
-/

namespace FormCompiler

open Ir

/-! ## Conditions -/

/-- The value of a name that is used as a condition.  Comparisons and bitwise
operations are computed anew where the condition is. -/
def conditionValue (name : String) : Emission (Option Value) := do
  if ((← context).slot? name).isSome then getValue name
  else orElseFind (recomputed name) (getValue name)

/-- A condition of one bit; a wider integer is compared with zero. -/
def condition (form : Form) : Handler Value := do
  match form.bool? with
  | some value => Builder.constantBool value
  | none =>
      let name ← orFail (.malformed "%condition") (localName? form)
      let value ← orFail (.unresolved name) (← conditionValue name)
      match (← types).intWidth? value.type with
      | some 1 => pure value
      | some _ =>
          let zero ← Builder.constantInt value.type 0
          Builder.compareInt .ne value zero s!"{name}.bool"
      | none =>
          let spelled ← spelling value.type
          throw (.typeMismatch s!"condition `{name}` is {spelled}")

/-- Branches on the condition of a loop, which ends where the condition has
no value. -/
def branchOn (form : Form) (thenBlock elseBlock : BlockId) :
    Emission Unit := do
  match ← (condition form).run with
  | .ok value => Builder.branchIf value thenBlock elseBlock
  | .error cause =>
      report "loop condition" cause
      Builder.branch elseBlock

/-- The blocks of a conditional. -/
def emitBranches (emit : FormEmitter) (test : Value) (thenBody : List Form)
    (elseBody : Option (List Form)) : Emission Unit := do
  let id ← freshId
  let thenBlock ← Builder.appendBlock s!"if.then.{id}"
  match elseBody with
  | some elseBody =>
      let elseBlock ← Builder.appendBlock s!"if.else.{id}"
      let endBlock ← Builder.appendBlock s!"if.end.{id}"
      Builder.branchIf test thenBlock elseBlock
      emitArm emit thenBlock thenBody endBlock
      emitArm emit elseBlock elseBody endBlock
      Builder.positionAtEnd endBlock
  | none =>
      let endBlock ← Builder.appendBlock s!"if.end.{id}"
      Builder.branchIf test thenBlock endBlock
      emitArm emit thenBlock thenBody endBlock
      Builder.positionAtEnd endBlock

/-- The second body of a conditional, if it has one. -/
def readElse (items : List Form) (shape : String) :
    Except ProblemCause (Option (List Form)) :=
  if items.length = 4 then some <$> vectorAt items 3 shape else pure none

/-- `(if %c [then] [else]?)` -/
def emitConditional (emit : FormEmitter) (items : List Form) :
    Handler Unit := do
  let shape := "(if %c [then] [else]?)"
  if items.length < 3 ∨ 4 < items.length then throw (.malformed shape)
  let thenBody ← vectorAt items 2 shape
  let elseBody ← readElse items shape
  let test ← condition (← itemAt items 1 shape)
  emitBranches emit test thenBody elseBody

/-! ## Loops -/

/-- Emits the body of a loop. -/
def emitLoopBody (emit : FormEmitter) (targets : LoopTargets)
    (block : BlockId) (body : List Form) (next : BlockId) :
    Emission Unit := do
  modifyContext (·.pushLoop targets)
  emitArm emit block body next
  modifyContext (·.popLoop)

/-- `(while %c [body])` -/
def emitWhile (emit : FormEmitter) (items : List Form) : Handler Unit := do
  let shape := "(while %c [body])"
  expectLength items 3 shape
  let body ← vectorAt items 2 shape
  let test ← itemAt items 1 shape
  let id ← freshId
  let testBlock ← Builder.appendBlock s!"while.cond.{id}"
  let bodyBlock ← Builder.appendBlock s!"while.body.{id}"
  let endBlock ← Builder.appendBlock s!"while.end.{id}"
  Builder.branch testBlock
  Builder.positionAtEnd testBlock
  branchOn test bodyBlock endBlock
  emitLoopBody emit ⟨endBlock, testBlock⟩ bodyBlock body testBlock
  Builder.positionAtEnd endBlock

/-- The blocks of a `for` loop, which starts at the end of the current
block. -/
def emitForBlocks (emit : FormEmitter) (id : Nat) (test : Option Form)
    (step body : List Form) : Emission Unit := do
  let testBlock ← Builder.appendBlock s!"for.cond.{id}"
  let bodyBlock ← Builder.appendBlock s!"for.body.{id}"
  let stepBlock ← Builder.appendBlock s!"for.step.{id}"
  let endBlock ← Builder.appendBlock s!"for.end.{id}"
  Builder.branch testBlock
  Builder.positionAtEnd testBlock
  match test with
  | some test => branchOn test bodyBlock endBlock
  | none => Builder.branch bodyBlock
  emitLoopBody emit ⟨endBlock, stepBlock⟩ bodyBlock body stepBlock
  emitArm emit stepBlock step testBlock
  Builder.positionAtEnd endBlock

/-- `(for :init [..] :cond %c :step [..] :body [..])`.  Without a condition
the loop goes on until it is left. -/
def emitFor (emit : FormEmitter) (items : List Form) : Handler Unit := do
  let shape := "(for :init [..] :cond %c :step [..] :body [..])"
  let arguments ← KeywordArguments.follow items 1 shape
  let body ← orFail (.malformed shape) (arguments.vector? "body")
  let id ← freshId
  emitSequence emit ((arguments.vector? "init").getD [])
  if ← isTerminated then pure ()
  else
    emitForBlocks emit id (arguments.get? "cond")
      ((arguments.vector? "step").getD []) body

/-- `(break)`, which does nothing outside of loops. -/
def emitBreak (items : List Form) : Handler Unit := do
  expectLength items 1 "(break)"
  match (← context).innermostLoop? with
  | some targets => Builder.branch targets.breakTo
  | none => pure ()

/-- `(continue)`, which does nothing outside of loops. -/
def emitContinue (items : List Form) : Handler Unit := do
  expectLength items 1 "(continue)"
  match (← context).innermostLoop? with
  | some targets => Builder.branch targets.continueTo
  | none => pure ()

/-! ## Switches -/

/-- A case of a switch with the blocks of its test and its body. -/
structure PlacedCase where
  value : Int64
  body : List Form
  testBlock : BlockId
  bodyBlock : BlockId

/-- Reads `(case <int> [..])`. -/
def switchCase? (form : Form) : Option (Int64 × List Form) :=
  match form.list? with
  | some [head, value, body] =>
      if head.symbol? = some "case" then do
        pure (← value.int?, ← body.vector?)
      else none
  | _ => none

/-- Adds the blocks of a case. -/
def placeCase (id : Nat) (entry : Int64 × List Form) :
    Emission PlacedCase := do
  let value := entry.1.toInt
  let testBlock ← Builder.appendBlock s!"switch.case.{value}.{id}"
  let bodyBlock ← Builder.appendBlock s!"switch.body.{value}.{id}"
  pure ⟨entry.1, entry.2, testBlock, bodyBlock⟩

/-- The block that decides the first of some cases. -/
def firstTest (noMatch : BlockId) : List PlacedCase → BlockId
  | [] => noMatch
  | entry :: _ => entry.testBlock

/-- Emits tests and bodies of cases; each test leads to the next one. -/
def emitCases (emit : FormEmitter) (scrutinee : Value)
    (noMatch endBlock : BlockId) : List PlacedCase → Emission Unit
  | [] => pure ()
  | entry :: rest => do
      Builder.positionAtEnd entry.testBlock
      let expected ← Builder.constantInt scrutinee.type entry.value.toInt
      let hit ← Builder.compareInt .eq scrutinee expected "switch.cmp"
      Builder.branchIf hit entry.bodyBlock (firstTest noMatch rest)
      emitArm emit entry.bodyBlock entry.body endBlock
      emitCases emit scrutinee noMatch endBlock rest

/-- The blocks of a switch. -/
def emitSwitchBlocks (emit : FormEmitter) (scrutinee : Value)
    (cases : List (Int64 × List Form)) (default : Option (List Form)) :
    Emission Unit := do
  let id ← freshId
  let placed ← cases.mapM (placeCase id)
  match default with
  | some body =>
      let defaultBlock ← Builder.appendBlock s!"switch.default.{id}"
      let endBlock ← Builder.appendBlock s!"switch.end.{id}"
      Builder.branch (firstTest defaultBlock placed)
      emitCases emit scrutinee defaultBlock endBlock placed
      emitArm emit defaultBlock body endBlock
      Builder.positionAtEnd endBlock
  | none =>
      let endBlock ← Builder.appendBlock s!"switch.end.{id}"
      Builder.branch (firstTest endBlock placed)
      emitCases emit scrutinee endBlock endBlock placed
      Builder.positionAtEnd endBlock

/-- `(switch %x :cases [(case <int> [..])..] :default [..]?)` -/
def emitSwitch (emit : FormEmitter) (items : List Form) : Handler Unit := do
  let shape := "(switch %x :cases [(case <int> [..])..] :default [..]?)"
  if items.length < 2 then throw (.malformed shape)
  let arguments ← KeywordArguments.follow items 2 shape
  let caseForms ← orFail (.malformed shape) (arguments.vector? "cases")
  let cases ← orFail (.malformed shape) (caseForms.mapM switchCase?)
  let scrutinee ← valueOf (← itemAt items 1 shape)
  if !(← types).isInt scrutinee.type then
    let spelled ← spelling scrutinee.type
    throw (.typeMismatch s!"switch on {spelled}")
  emitSwitchBlocks emit scrutinee cases (arguments.vector? "default")

/-! ## Blocks -/

/-- Reads `(local T %n)`. -/
def readLocal (shape : String) (form : Form) : Handler (String × TypeId) := do
  match form.list? with
  | some [head, typeForm, nameForm] =>
      if head.symbol? ≠ some "local" then throw (.malformed shape)
      let name ← orFail (.malformed shape) (localName? nameForm)
      pure (name, ← typeOf typeForm)
  | _ => throw (.malformed shape)

/-- The locals and the body that a block form names. -/
def keyedBlockParts (items : List Form) (shape : String) :
    Except ProblemCause (List Form × List Form) := do
  let arguments ← KeywordArguments.follow items 1 shape
  match arguments.vector? "body" with
  | some body => pure ((arguments.vector? "locals").getD [], body)
  | none => throw (.malformed shape)

theorem keyedBlockParts_eq_ok {items locals body : List Form}
    {shape : String}
    (read : keyedBlockParts items shape = .ok (locals, body)) :
    let arguments := KeywordArguments.ofItems items.tail
    arguments.vector? "body" = some body ∧
      locals = (arguments.vector? "locals").getD [] := by
  unfold keyedBlockParts at read
  cases found : KeywordArguments.follow items 1 shape with
  | error cause =>
      rw [found] at read
      cases read
  | ok arguments =>
      rw [found] at read
      obtain rfl := KeywordArguments.follow_eq_ok found
      rw [List.drop_one] at read
      change (match (KeywordArguments.ofItems items.tail).vector? "body" with
        | some body => _
        | none => _) = _ at read
      split at read
      · next given =>
          cases read
          exact ⟨given, rfl⟩
      · cases read

/-- The locals and the body of a block form. -/
def blockParts (items : List Form) (shape : String) :
    Except ProblemCause (List Form × List Form) :=
  match items with
  | [_, form] =>
      match form.vector? with
      | some body => .ok ([], body)
      | none => keyedBlockParts items shape
  | _ => keyedBlockParts items shape

/-- Runs an emission in a scope of its own. -/
def inScope (emission : Emission Unit) : Emission Unit := do
  let depth := (← context).depth
  modifyContext (·.enterScope)
  emission
  modifyContext (·.unwindTo depth)

/-- `(block [body])` or `(block :locals [(local T %n)..] :body [..])` -/
def emitBlock (emit : FormEmitter) (items : List Form) : Handler Unit := do
  let shape := "(block :locals [(local T %n)..] :body [..])"
  let (locals, body) ← blockParts items shape
  let declared ← locals.mapM (readLocal shape)
  (inScope do
    declared.forM fun (name, type) => do
      let _ ← declareSlot name type
    emitSequence emit body : Emission Unit)

end FormCompiler
