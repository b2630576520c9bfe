import FormCompiler.Emit.Resolution

/-!
# Phis

A phi stands at the start of its block as soon as it is met, so that what
follows can use it.  Its edges name blocks that may not be there yet; they
are added when the whole body is emitted.
-/

namespace FormCompiler

open Ir

/-- Places a phi without edges and remembers its edges. -/
def placePhi (block : BlockId) (destination : String) (type : TypeId)
    (incoming : List (EdgeSource × String)) : Emission Value := do
  let phi ← Builder.phiAtStart block type destination
  modify fun state =>
    { state with
      pendingPhis := state.pendingPhis ++
        [⟨destination, type, phi, incoming⟩] }
  pure phi

/-- Reads `(%v label)`.  A name is resolved later, a literal now. -/
def readEdge (type : TypeId) (shape : String) (form : Form) :
    Handler (EdgeSource × String) := do
  match form.list? with
  | some [valueForm, labelForm] =>
      let label ← orFail (.malformed shape) labelForm.name?
      match (localName? valueForm).filter fun _ =>
          isLocalReference valueForm with
      | some name => pure (.named name, label)
      | none => pure (.value (← operand valueForm type), label)
  | _ => throw (.malformed shape)

/-- `(phi %dst T [(%v label)..])` -/
def emitPhi (items : List Form) : Handler Unit := do
  let shape := "(phi %dst T [(%v label)..])"
  expectLength items 4 shape
  let destination ← nameAt items 1 shape
  let type ← typeOf (← itemAt items 2 shape)
  let edges ← vectorAt items 3 shape
  let incoming ← edges.mapM (readEdge type shape)
  let block ← orFail (.unresolved destination) (← currentBlock?)
  let phi ← placePhi block destination type incoming
  define destination phi type

/-- The value of an edge, read at the end of the block it comes from. -/
def edgeValue (pending : PendingPhi) (source : EdgeSource)
    (block : BlockId) : Handler Value := do
  let value ←
    match source with
    | .value value => pure value
    | .named name =>
        let point ← Builder.save
        Builder.positionBeforeTerminator block
        let value ← getValue name
        Builder.restore point
        orFail (.unresolved name) value
  let destination := pending.destination
  expectType s!"phi `{destination}`" pending.type value.type
  pure value

/-- Adds an edge to a phi.  An edge from a block that is not there is left
out, and a value that cannot be found is undefined. -/
def addEdge (pending : PendingPhi) (edge : EdgeSource × String) :
    Emission Unit := do
  match (← get).builder.findBlock? edge.2 with
  | none => pure ()
  | some block =>
      let value ←
        match ← (edgeValue pending edge.1 block).run with
        | .ok value => pure value
        | .error cause => do
            report "phi" cause
            Builder.constantUndef pending.type
      Builder.addIncoming pending.phi value block

/-- Adds the edges of all phis. -/
def completePhis : Emission Unit := do
  let pending := (← get).pendingPhis
  modify fun state => { state with pendingPhis := [] }
  pending.forM fun phi => phi.incoming.forM (addEdge phi)

end FormCompiler
