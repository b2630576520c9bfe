import FormCompiler.Proofs.ByteReader
import FormCompiler.Proofs.PlacedForms

/-!
# Readers make progress

A reader never goes back and never runs past the end of its text.  Every turn
that does not leave its loop takes a byte, and so does every form, at least one
for each of its nodes.  So the bytes that are left bound the turns of a loop
and the depth of a nest: with more turns than that, a reading has an outcome,
which does not depend on how many more.
-/

namespace FormCompiler

theorem Tree.length_nodesList_reverse {Note : Type}
    (trees : List (Tree Note)) :
    (nodesList trees.reverse).length = (nodesList trees).length := by
  rw [nodesList_eq_flatMap, nodesList_eq_flatMap, List.length_flatMap,
    List.length_flatMap, List.map_reverse, List.sum_reverse]

theorem Tree.length_nodes_pos {Note : Type} (tree : Tree Note) :
    0 < tree.nodes.length :=
  List.length_pos_of_mem tree.mem_nodes_self

namespace ByteReader

open Reading

variable {State Result Other : Type} {reader middle later : ByteReader}
  {spare : Nat} {good : Result → ByteReader → Prop}

/-! ## Going on -/

/-- How many bytes are left. -/
def left (reader : ByteReader) : Nat := reader.source.length - reader.offset

/-- A reader goes on in its text, and not past its end. -/
structure Passes (reader later : ByteReader) : Prop where
  source : later.source = reader.source
  offset : reader.offset ≤ later.offset
  within : reader.offset < later.offset →
    later.offset ≤ later.source.length

namespace Passes

theorem refl (reader : ByteReader) : reader.Passes reader :=
  ⟨rfl, Nat.le_refl _, fun less => absurd less (Nat.lt_irrefl _)⟩

theorem trans (first : reader.Passes middle) (second : middle.Passes later) :
    reader.Passes later := by
  refine ⟨second.source.trans first.source,
    first.offset.trans second.offset, fun more => ?_⟩
  by_cases moved : middle.offset < later.offset
  · exact second.within moved
  · have same : later.offset = middle.offset :=
      Nat.le_antisymm (Nat.le_of_not_lt moved) second.offset
    rw [same] at more ⊢
    rw [second.source]
    exact first.within more

theorem left_eq (passes : reader.Passes later) :
    later.left = reader.left - (later.offset - reader.offset) := by
  have offset := passes.offset
  unfold left
  rw [passes.source]
  omega

theorem taken_le (passes : reader.Passes later) :
    later.offset - reader.offset ≤ reader.left := by
  by_cases more : reader.offset < later.offset
  · have within := passes.within more
    rw [passes.source] at within
    unfold left
    omega
  · omega

theorem left_lt (passes : reader.Passes later)
    (more : reader.offset < later.offset) : later.left < reader.left := by
  have within := passes.within more
  rw [passes.source] at within
  unfold left
  rw [passes.source]
  omega

end Passes

theorem lt_length_of_next? {byte : UInt8} (found : reader.next? = some byte) :
    reader.offset < reader.source.length :=
  (List.getElem?_eq_some_iff.mp found).1

theorem passes_after {byte : UInt8} (found : reader.next? = some byte) :
    reader.Passes (reader.after byte) :=
  ⟨rfl, Nat.le_succ _, fun _ => lt_length_of_next? found⟩

/-! ## Outcomes -/

theorem bind_eq (first : Reading Other) (second : Other → Reading Result)
    (reader : ByteReader) :
    (first >>= second) reader =
      match (first reader :
          Option (Except ReadError (Other × ByteReader))) with
      | none => none
      | some (.error error) => some (.error error)
      | some (.ok (result, later)) => second result later := by
  show (first reader :
    Option (Except ReadError (Other × ByteReader))).bind _ = _
  rcases (first reader : Option (Except ReadError (Other × ByteReader))) with
    _ | _ | _ <;> rfl

/-- Looking at the reader first. -/
theorem reading_get_bind (next : ByteReader → Reading Result)
    (reader : ByteReader) : (get >>= next) reader = next reader reader := rfl

theorem take?_of_none (ended : reader.next? = none) :
    take? reader = some (.ok (none, reader)) := by
  unfold take?
  rw [reading_get_bind, ended]
  rfl

theorem take?_of_some {byte : UInt8} (found : reader.next? = some byte) :
    take? reader = some (.ok (some byte, reader.after byte)) := by
  unfold take?
  rw [reading_get_bind, found]
  rfl

/-- With enough turns a reading has an outcome, which more turns do not change.
Where it succeeds, the reader has gone on, and what it comes to is good. -/
structure SettlesAt (reader : ByteReader) (spare : Nat)
    (reading : (turns : Nat) → Reading Result)
    (good : Result → ByteReader → Prop) : Prop where
  settles : ∃ outcome, ∀ turns, reader.left < turns + spare →
    reading turns reader = some outcome
  takes : ∀ turns result later,
    reading turns reader = some (.ok (result, later)) →
    reader.Passes later ∧ good result later

namespace SettlesAt

variable {reading : (turns : Nat) → Reading Result}
  {weaker : Result → ByteReader → Prop}

theorem imp (settles : SettlesAt reader spare reading good)
    (implies : ∀ result later, reader.Passes later → good result later →
      weaker result later) :
    SettlesAt reader spare reading weaker := by
  refine ⟨settles.settles, fun turns result later read => ?_⟩
  obtain ⟨passes, holds⟩ := settles.takes turns result later read
  exact ⟨passes, implies result later passes holds⟩

theorem mono {less : Nat} (settles : SettlesAt reader spare reading good)
    (fewer : less ≤ spare) : SettlesAt reader less reading good := by
  obtain ⟨outcome, read⟩ := settles.settles
  exact ⟨⟨outcome, fun turns enough => read turns (by omega)⟩, settles.takes⟩

/-- A reading that fails has not taken anything. -/
theorem fault (error : ReadError) :
    SettlesAt reader spare
      (fun _ => (throw error : Reading Result)) good :=
  ⟨⟨.error error, fun _ _ => rfl⟩, nofun⟩

theorem pure {result : Result} (holds : good result reader) :
    SettlesAt reader spare (fun _ => (Pure.pure result : Reading Result))
      good := by
  refine ⟨⟨.ok (result, reader), fun _ _ => rfl⟩, ?_⟩
  rintro turns result' later ⟨⟩
  exact ⟨.refl reader, holds⟩

/-- The first reading has an outcome, and the second one where the first one
leads. -/
theorem bind {first : (turns : Nat) → Reading Other}
    {between : Other → ByteReader → Prop}
    {second : Other → (turns : Nat) → Reading Result}
    (before : SettlesAt reader spare first between)
    (behind : ∀ result middle, reader.Passes middle → between result middle →
      SettlesAt middle (spare - (middle.offset - reader.offset))
        (second result) good) :
    SettlesAt reader spare
      (fun turns => first turns >>= fun result => second result turns)
      good := by
  constructor
  · obtain ⟨outcome, read⟩ := before.settles
    cases outcome with
    | error error =>
        refine ⟨.error error, fun turns enough => ?_⟩
        rw [bind_eq, read turns enough]
    | ok reached =>
        obtain ⟨result, middle⟩ := reached
        obtain ⟨passes, holds⟩ := before.takes (reader.left + 1) result middle
          (read _ (by omega))
        obtain ⟨outcome, further⟩ := (behind result middle passes holds).settles
        refine ⟨outcome, fun turns enough => ?_⟩
        rw [bind_eq, read turns enough]
        refine further turns ?_
        have taken := passes.taken_le
        rw [passes.left_eq]
        omega
  · intro turns result later read
    rw [bind_eq] at read
    cases outcome : first turns reader with
    | none => rw [outcome] at read; cases read
    | some reached =>
        rw [outcome] at read
        cases reached with
        | error error => cases read
        | ok reached =>
            obtain ⟨found, middle⟩ := reached
            obtain ⟨passes, holds⟩ := before.takes turns found middle outcome
            obtain ⟨further, good⟩ :=
              (behind found middle passes holds).takes turns result later read
            exact ⟨passes.trans further, good⟩

/-- What looks at the reader first. -/
theorem look {second : ByteReader → (turns : Nat) → Reading Result}
    (behind : SettlesAt reader spare (second reader) good) :
    SettlesAt reader spare
      (fun turns => get >>= fun reader => second reader turns) good :=
  ⟨behind.settles, behind.takes⟩

/-- A byte is taken that is there. -/
theorem takeByte {byte : UInt8} {second : (turns : Nat) → Reading Result}
    (found : reader.next? = some byte)
    (behind : SettlesAt (reader.after byte) (spare - 1) second good) :
    SettlesAt reader spare (fun turns => take >>= fun _ => second turns)
      good := by
  have taken : SettlesAt reader spare (fun _ => take)
      fun _ later => later = reader.after byte := by
    have run : take reader = some (.ok ((), reader.after byte)) := by
      unfold take
      rw [bind_eq, take?_of_some found]
      rfl
    refine ⟨⟨_, fun _ _ => run⟩, fun _ result later read => ?_⟩
    rw [run] at read
    cases read
    exact ⟨passes_after found, rfl⟩
  refine taken.bind fun _ later _ same => ?_
  subst same
  exact behind.mono (by simp [after])

/-- The next byte is taken, if there is one. -/
theorem takeNext {second : Option UInt8 → (turns : Nat) → Reading Result}
    (ended : reader.next? = none →
      SettlesAt reader spare (second none) good)
    (behind : ∀ byte, reader.next? = some byte →
      SettlesAt (reader.after byte) (spare - 1) (second (some byte)) good) :
    SettlesAt reader spare
      (fun turns => take? >>= fun byte => second byte turns) good := by
  cases found : reader.next? with
  | none =>
      have taken : SettlesAt reader spare (fun _ => take?)
          fun result later => result = none ∧ later = reader := by
        refine ⟨⟨_, fun _ _ => take?_of_none found⟩,
          fun _ result later read => ?_⟩
        rw [take?_of_none found] at read
        cases read
        exact ⟨.refl reader, rfl, rfl⟩
      refine taken.bind fun result later _ same => ?_
      obtain ⟨rfl, rfl⟩ := same
      exact (ended found).mono (by simp)
  | some byte =>
      have taken : SettlesAt reader spare (fun _ => take?)
          fun result later =>
            result = some byte ∧ later = reader.after byte := by
        refine ⟨⟨_, fun _ _ => take?_of_some found⟩,
          fun _ result later read => ?_⟩
        rw [take?_of_some found] at read
        cases read
        exact ⟨passes_after found, rfl, rfl⟩
      refine taken.bind fun result later _ same => ?_
      obtain ⟨rfl, rfl⟩ := same
      exact (behind byte found).mono (by simp [after])

/-- A loop has an outcome where each of its turns has one, and every turn that
does not leave it takes a byte. -/
theorem loop {turn : (turns : Nat) → State → Reading (Turn State Result)}
    (holds : State → ByteReader → Prop) {extra : Nat} {state : State}
    (enough : spare ≤ extra) (start : holds state reader)
    (each : ∀ state reader, holds state reader →
      SettlesAt reader spare (fun turns => turn turns state)
        fun reached later =>
          match reached with
          | .again next => reader.offset < later.offset ∧ holds next later
          | .leave result => good result later) :
    SettlesAt reader spare
      (fun turns => Reading.loop (turn turns) (turns + extra) state) good := by
  constructor
  · suffices ∃ outcome, ∀ turns bound, reader.left < turns + spare →
        reader.left < bound →
        Reading.loop (turn turns) bound state reader = some outcome by
      obtain ⟨outcome, read⟩ := this
      exact ⟨outcome, fun turns more => read turns _ more (by omega)⟩
    induction bytes : reader.left using Nat.strong_induction_on
      generalizing reader state with
    | _ bytes' ih =>
        subst bytes
        have settled := each state reader start
        obtain ⟨outcome, read⟩ := settled.settles
        -- The turn is the same whatever the bound, so it is looked at once.
        rcases outcome with error | ⟨_ | result, later⟩
        · refine ⟨.error error, fun turns bound more within => ?_⟩
          obtain ⟨bound, rfl⟩ := Nat.exists_eq_succ_of_ne_zero
            (Nat.ne_zero_of_lt within)
          rw [Reading.loop, bind_eq, read turns more]
        · next next =>
          obtain ⟨passes, more, holds⟩ :=
            settled.takes (reader.left + 1) _ _ (read _ (by omega))
          have fewer := passes.left_lt more
          obtain ⟨outcome, further⟩ := ih later.left fewer holds rfl
          refine ⟨outcome, fun turns bound more within => ?_⟩
          obtain ⟨bound, rfl⟩ := Nat.exists_eq_succ_of_ne_zero
            (Nat.ne_zero_of_lt within)
          rw [Reading.loop, bind_eq, read turns more]
          exact further turns bound (by omega) (by omega)
        · refine ⟨.ok (result, later), fun turns bound more within => ?_⟩
          obtain ⟨bound, rfl⟩ := Nat.exists_eq_succ_of_ne_zero
            (Nat.ne_zero_of_lt within)
          rw [Reading.loop, bind_eq, read turns more]
          rfl
  · intro turns
    generalize turns + extra = bound
    induction bound generalizing reader state with
    | zero => exact fun result later read => nomatch read
    | succ bound ih =>
        intro result later read
        rw [Reading.loop, bind_eq] at read
        cases turned : turn turns state reader with
        | none => rw [turned] at read; cases read
        | some outcome =>
            have taken := (each state reader start).takes turns
            rw [turned] at read
            rcases outcome with error | ⟨_ | result, middle⟩
            · cases read
            · obtain ⟨passes, -, holds⟩ := taken _ _ turned
              obtain ⟨further, good⟩ := ih holds result later read
              exact ⟨passes.trans further, good⟩
            · cases read
              exact taken _ _ turned

end SettlesAt

/-! ## Turns that take bytes -/

/-- A byte is taken, unless the loop is left for a reason. -/
def TakesUnless (leaves : Prop) (reader : ByteReader)
    (reached : Turn State Result) (later : ByteReader) : Prop :=
  match reached with
  | .again _ => reader.offset < later.offset
  | .leave _ => leaves ∨ reader.offset < later.offset

/-- A loop takes a byte, unless its first turn leaves it. -/
theorem SettlesAt.loopTakes
    {turn : (turns : Nat) → State → Reading (Turn State Result)}
    {leaves : ByteReader → Prop} {extra : Nat} {state : State}
    (enough : spare ≤ extra)
    (each : ∀ state reader,
      SettlesAt reader spare (fun turns => turn turns state)
        (TakesUnless (leaves reader) reader)) :
    SettlesAt reader spare
      (fun turns => Reading.loop (turn turns) (turns + extra) state)
      fun _ later => leaves reader ∨ reader.offset < later.offset := by
  refine .loop (fun _ middle =>
    middle = reader ∨ reader.offset < middle.offset) enough (.inl rfl)
    fun state middle begun => ?_
  refine (each state middle).imp fun reached later passes taken => ?_
  cases reached with
  | again =>
      refine ⟨taken, .inr ?_⟩
      rcases begun with rfl | begun
      · exact taken
      · exact begun.trans taken
  | leave =>
      rcases begun with rfl | begun
      · exact taken
      · exact .inr (begun.trans_le passes.offset)

theorem settlesAt_commentTurn (reader : ByteReader) (state : Unit) :
    SettlesAt reader spare (fun _ => commentTurn state)
      (TakesUnless (reader.next? = none) reader) := by
  unfold commentTurn
  refine .takeNext (fun ended => .pure (.inl ended)) fun byte found => ?_
  dsimp only
  split
  · exact .pure (.inr (Nat.lt_succ_self _))
  · exact .pure (Nat.lt_succ_self _)

theorem settlesAt_skipTurn {extra : Nat} (enough : spare ≤ extra)
    (reader : ByteReader) (state : Unit) :
    SettlesAt reader spare (fun turns => skipTurn (turns + extra) state)
      (TakesUnless True reader) := by
  unfold skipTurn
  refine .look ?_
  cases found : reader.next? with
  | none => exact .pure (.inl trivial)
  | some byte =>
      dsimp only
      split
      · exact .takeByte found (.pure (Nat.lt_succ_self _))
      · split
        · -- The semicolon is the first byte that the comment takes.
          have comment : SettlesAt reader spare (fun turns =>
              loop commentTurn (turns + extra) ()) _ :=
            .loopTakes enough fun state reader =>
              settlesAt_commentTurn reader state
          refine comment.bind fun _ later _ taken => .pure ?_
          exact taken.resolve_left (by simp [found])
        · exact .pure (.inl trivial)

theorem settlesAt_skip (extra : Nat) (enough : spare ≤ extra)
    (reader : ByteReader) :
    SettlesAt reader spare (fun turns => skip (turns + extra))
      fun _ _ => True :=
  (SettlesAt.loopTakes enough fun state reader =>
    settlesAt_skipTurn enough reader state).imp fun _ _ _ _ => trivial

/-- The next byte is there and belongs to a kind. -/
def NextIs (kind : Char → Bool) (reader : ByteReader) : Prop :=
  ∃ byte, reader.next? = some byte ∧ kind (byteChar byte) = true

theorem settlesAt_wordTurn (reader : ByteReader) (state : Unit) :
    SettlesAt reader spare (fun _ => wordTurn state)
      (TakesUnless (¬reader.NextIs isWordChar) reader) := by
  unfold wordTurn
  refine .look ?_
  cases found : reader.next? with
  | none => exact .pure (.inl (by simp [NextIs, found]))
  | some byte =>
      dsimp only
      split
      · exact .takeByte found (.pure (Nat.lt_succ_self _))
      · next other =>
          exact .pure (.inl (by simpa [NextIs, found] using other))

theorem settlesAt_takeWord {extra : Nat} (enough : spare ≤ extra)
    (reader : ByteReader) :
    SettlesAt reader spare (fun turns => takeWord (turns + extra))
      fun _ later => ¬reader.NextIs isWordChar ∨
        reader.offset < later.offset := by
  unfold takeWord
  refine .look (.bind (SettlesAt.loopTakes enough fun state reader =>
    settlesAt_wordTurn reader state) fun _ later _ taken => ?_)
  exact .look (.pure taken)

theorem settlesAt_takeName {extra : Nat} (enough : spare ≤ extra)
    (reader : ByteReader) :
    SettlesAt reader spare (fun turns => takeName (turns + extra))
      fun _ _ => True := by
  unfold takeName
  refine (settlesAt_takeWord enough reader).bind fun name later _ _ => ?_
  split
  · exact .look (.fault _)
  · exact .pure trivial

/-! ## Atoms -/

/-- As many bytes were taken since an offset as a form has nodes. -/
def Sized (start : Nat) (form : Form) (later : ByteReader) : Prop :=
  start + form.nodes.length ≤ later.offset

theorem settlesAt_finish {start : Position} {make : Metadata → Form}
    {offset : Nat} (sized : ∀ note, Sized offset (make note) reader) :
    SettlesAt reader spare (fun _ => finish start make) (Sized offset) := by
  unfold finish
  exact .look (.pure (sized _))

theorem sized_atom {offset : Nat} (value : Atom) (note : Metadata)
    (taken : offset < reader.offset) :
    Sized offset (.atom note value) reader := taken

theorem settlesAt_stringTurn (reader : ByteReader)
    (reversedContents : List UInt8) :
    SettlesAt reader spare (fun _ => stringTurn reversedContents)
      (TakesUnless False reader) := by
  unfold stringTurn
  refine .takeNext (fun _ => .look (.fault _)) fun byte found => ?_
  dsimp only
  split
  · exact .pure (.inr (Nat.lt_succ_self _))
  · split
    · refine .takeNext (fun _ => .look (.fault _)) fun escaped _ => .pure ?_
      show reader.offset < reader.offset + 1 + 1
      omega
    · exact .pure (Nat.lt_succ_self _)

theorem settlesAt_readString {extra : Nat} {byte : UInt8}
    (enough : spare ≤ extra) (found : reader.next? = some byte)
    (start : Position) :
    SettlesAt reader spare (fun turns => readString (turns + extra) start)
      (Sized reader.offset) := by
  unfold readString
  refine .takeByte found (.bind (SettlesAt.loopTakes
    ((Nat.sub_le _ _).trans enough) fun state reader =>
      settlesAt_stringTurn reader state) fun contents later passes _ => ?_)
  exact settlesAt_finish fun note =>
    sized_atom _ note (Nat.lt_of_succ_le passes.offset)

/-- A byte of a number goes on with it. -/
theorem settlesAt_numberTurn (reader : ByteReader) (isFloat : Bool) :
    SettlesAt reader spare (fun _ => numberTurn isFloat)
      (TakesUnless (¬reader.NextIs Char.isDigit) reader) := by
  unfold numberTurn
  refine .look ?_
  cases found : reader.next? with
  | none => exact .pure (.inl (by simp [NextIs, found]))
  | some byte =>
      dsimp only
      split
      · exact .takeByte found (.pure (Nat.lt_succ_self _))
      · next notDigit =>
        split
        · exact .takeByte found (.pure (Nat.lt_succ_self _))
        · split
          · split
            · next sign =>
                -- The mark is taken first, and the sign is next then.
                cases behind : reader.second? with
                | none => simp [behind] at sign
                | some second =>
                    refine .takeByte found (.takeByte behind (.pure ?_))
                    show reader.offset < reader.offset + 1 + 1
                    omega
            · exact .takeByte found (.pure (Nat.lt_succ_self _))
          · split
            · exact .takeByte found (.pure (Nat.lt_succ_self _))
            · exact .pure (.inl (by simpa [NextIs, found] using notDigit))

theorem settlesAt_readNumber {extra : Nat} {byte : UInt8}
    (enough : spare ≤ extra) (found : reader.next? = some byte)
    (starts : startsNumber (byteChar byte) reader.second? = true)
    (start : Position) :
    SettlesAt reader spare (fun turns => readNumber (turns + extra) start)
      (Sized reader.offset) := by
  have rest {less : Nat} {begun : ByteReader} (fewer : less ≤ extra)
      (passes : reader.Passes begun)
      (moves : reader.offset < begun.offset ∨ begun.NextIs Char.isDigit) :
      SettlesAt begun less
        (fun turns => numberRest (turns + extra) reader.offset start)
        (Sized reader.offset) := by
    unfold numberRest
    refine .bind (SettlesAt.loopTakes fewer fun state reader =>
      settlesAt_numberTurn reader state) fun isFloat later further taken => ?_
    refine .look ?_
    dsimp only
    split
    · exact .fault _
    · refine settlesAt_finish fun note => sized_atom _ note ?_
      have before := passes.offset
      have behind := further.offset
      rcases moves with moved | digit
      · exact moved.trans_le behind
      · exact before.trans_lt (taken.resolve_left (not_not_intro digit))
  unfold readNumber
  refine .look ?_
  split
  · refine .takeByte found (rest ?_ (passes_after found) (.inl ?_))
    · omega
    · exact Nat.lt_succ_self _
  · next noSign =>
      refine rest enough (.refl reader) (.inr ⟨byte, found, ?_⟩)
      simpa [startsNumber, found] using
        (Bool.or_eq_true_iff.mp starts).resolve_right
          (by simp_all [Option.any])

theorem settlesAt_readWord {extra : Nat} {byte : UInt8}
    (enough : spare ≤ extra) (found : reader.next? = some byte)
    (start : Position) :
    SettlesAt reader spare
      (fun turns => readWord (turns + extra) start (byteChar byte))
      (Sized reader.offset) := by
  unfold readWord
  refine .look ?_
  split
  · next starts => exact settlesAt_readNumber enough found starts _
  · split
    · next symbol =>
        refine .bind (settlesAt_takeWord enough _)
          fun name later passes word => ?_
        refine settlesAt_finish fun note => sized_atom _ note ?_
        refine word.resolve_left (not_not_intro ⟨byte, found, ?_⟩)
        simp only [isSymbolStart, Bool.and_eq_true] at symbol
        exact symbol.1.1.1
    · exact .fault _

/-! ## Forms -/

/-- Forms inside have an outcome wherever the reader has taken a byte. -/
def SettlesBehind (reader : ByteReader)
    (form : (turns : Nat) → Reading Form) : Prop :=
  ∀ later, reader.Passes later → reader.offset < later.offset →
    SettlesAt later 0 form (Sized later.offset)

theorem settlesAt_itemsTurn {form : (turns : Nat) → Reading Form}
    (extra : Nat) (close : Char) (reader : ByteReader) (items : List Form)
    (inside : ∀ later, reader.Passes later →
      SettlesAt later 0 form (Sized later.offset)) :
    SettlesAt reader 0
      (fun turns => itemsTurn (form turns) (turns + extra) close items)
      fun reached later =>
        match reached with
        | .again next => ∃ item, next = item :: items ∧
            Sized reader.offset item later
        | .leave result => result = items.reverse ∧
            reader.offset < later.offset := by
  unfold itemsTurn
  refine (settlesAt_skip _ (Nat.zero_le _) reader).bind
    fun _ skipped passes _ => .look ?_
  rw [Nat.zero_sub]
  cases found : skipped.next? with
  | none => exact .fault _
  | some byte =>
      dsimp only
      split
      · exact .takeByte found
          (.pure ⟨rfl, Nat.lt_succ_of_le passes.offset⟩)
      · refine (inside skipped passes).bind
          fun item later _ sized => .pure ⟨item, rfl, ?_⟩
        exact (Nat.add_le_add_right passes.offset _).trans sized

theorem settlesAt_readGroup {form : (turns : Nat) → Reading Form}
    (extra : Nat) {opened : ByteReader} (inside : opened.SettlesBehind form)
    (passes : opened.Passes reader) (taken : opened.offset < reader.offset)
    (bracket : Bracket) (start : Position) :
    SettlesAt reader 0
      (fun turns => readGroup (form turns) (turns + extra) bracket start)
      (Sized opened.offset) := by
  have items : SettlesAt reader 0
      (fun turns => loop
        (itemsTurn (form turns) (turns + extra) bracket.closeChar)
        (turns + extra) [])
      fun items later =>
        opened.offset + 1 + (Tree.nodesList items).length ≤ later.offset := by
    refine .loop (fun items middle => opened.Passes middle ∧
        opened.offset + 1 + (Tree.nodesList items).length ≤ middle.offset)
      (Nat.zero_le _) ⟨passes, taken⟩ fun items middle open_ => ?_
    obtain ⟨before, sized⟩ := open_
    have moved : opened.offset < middle.offset := by omega
    refine (settlesAt_itemsTurn extra _ middle items fun later further =>
      inside later (before.trans further)
        (moved.trans_le further.offset)).imp fun reached later further turn => ?_
    cases reached with
    | again =>
        obtain ⟨item, rfl, more⟩ := turn
        have some := item.length_nodes_pos
        unfold Sized at more
        refine ⟨by omega, before.trans further, ?_⟩
        rw [Tree.nodesList, List.length_append]
        omega
    | leave =>
        obtain ⟨rfl, more⟩ := turn
        have same := Tree.length_nodesList_reverse items
        dsimp only
        omega
  unfold readGroup
  refine items.bind fun items later _ sized => ?_
  split
  · exact .fault _
  · refine settlesAt_finish fun note => ?_
    show opened.offset + ((Tree.nodesList items).length + 1) ≤ later.offset
    omega

theorem settlesAt_readDispatch {form : (turns : Nat) → Reading Form}
    {byte : UInt8} (found : reader.next? = some byte)
    (inside : reader.SettlesBehind form) (start : Position) :
    SettlesAt reader 1
      (fun turns => readDispatch (form turns) (turns + 1) start)
      (Sized reader.offset) := by
  have hash : reader.offset < (reader.after byte).offset :=
    Nat.lt_succ_self _
  unfold readDispatch
  refine .takeByte found (.look ?_)
  split
  · next brace =>
      obtain ⟨second, behind, -⟩ := Option.map_eq_some_iff.mp brace
      refine .takeByte behind (settlesAt_readGroup 1 inside
        ((passes_after found).trans (passes_after behind))
        (hash.trans (Nat.lt_succ_self _)) .set start)
  · refine (settlesAt_takeName (Nat.zero_le 1) _).bind
      fun tag named toName _ => ?_
    rw [Nat.zero_sub]
    have moved := hash.trans_le toName.offset
    refine (inside named ((passes_after found).trans toName) moved).bind
      fun value later _ sized => settlesAt_finish fun note => ?_
    show reader.offset + (value.nodes.length + 1) ≤ later.offset
    unfold Sized at sized
    omega

theorem settlesAt_readFrom {form : (turns : Nat) → Reading Form}
    {byte : UInt8} (found : reader.next? = some byte)
    (inside : reader.SettlesBehind form) :
    SettlesAt reader 1
      (fun turns => readFrom (form turns) (turns + 1) byte)
      (Sized reader.offset) := by
  have after := passes_after found
  have taken : reader.offset < (reader.after byte).offset :=
    Nat.lt_succ_self _
  have group (bracket : Bracket) (start : Position) :=
    settlesAt_readGroup 1 inside after taken bracket start
  unfold readFrom
  refine .look ?_
  dsimp only
  split
  · exact .takeByte found (group .list _)
  · exact .takeByte found (group .vector _)
  · exact .takeByte found (group .map _)
  · exact settlesAt_readDispatch found inside _
  · exact .fault _
  · exact .fault _
  · exact .fault _
  · exact settlesAt_readString (Nat.le_refl _) found _
  · refine .takeByte found (.bind
      (settlesAt_takeName (Nat.zero_le 1) _) fun name later passes _ => ?_)
    exact settlesAt_finish fun note =>
      sized_atom _ note (taken.trans_le passes.offset)
  · exact settlesAt_readWord (Nat.le_refl _) found _

theorem settlesAt_readForm (reader : ByteReader) :
    SettlesAt reader 0 readForm (Sized reader.offset) := by
  induction bytes : reader.left using Nat.strong_induction_on
    generalizing reader with
  | _ bytes' ih =>
      subst bytes
      have inside {middle : ByteReader} (passes : reader.Passes middle) :
          middle.SettlesBehind readForm := by
        intro later further moved
        have fewer := (passes.trans further).left_lt
          (passes.offset.trans_lt moved)
        exact ih later.left fewer later rfl
      have body : SettlesAt reader 1 (fun turns => readForm (turns + 1))
          (Sized reader.offset) := by
        refine (settlesAt_skip _ (Nat.le_refl 1) reader).bind
          fun _ skipped passes _ => .look ?_
        refine SettlesAt.mono ?_ (Nat.sub_le 1 _)
        cases found : skipped.next? with
        | none => exact .fault _
        | some byte =>
            refine (settlesAt_readFrom found (inside passes)).imp
              fun form later _ sized => ?_
            exact (Nat.add_le_add_right passes.offset _).trans sized
      -- A reading with no turns at all has no outcome.
      constructor
      · obtain ⟨outcome, read⟩ := body.settles
        refine ⟨outcome, fun turns enough => ?_⟩
        cases turns with
        | zero => exact absurd enough (Nat.not_lt_zero _)
        | succ turns => exact read turns enough
      · intro turns form later read
        cases turns with
        | zero => cases read
        | succ turns => exact body.takes turns form later read

/-! ## Texts -/

theorem settlesAt_formsTurn (reader : ByteReader) (forms : List Form) :
    SettlesAt reader 0 (fun turns => formsTurn turns forms)
      fun reached later =>
        match reached with
        | .again next => ∃ form, next = form :: forms ∧
            Sized reader.offset form later
        | .leave result => result = forms.reverse := by
  unfold formsTurn
  refine (settlesAt_skip 0 (Nat.le_refl 0) reader).bind
    fun _ skipped passes _ => .look ?_
  rw [Nat.zero_sub]
  split
  · exact .pure rfl
  · refine (settlesAt_readForm skipped).bind
      fun form later _ sized => .pure ⟨form, rfl, ?_⟩
    exact (Nat.add_le_add_right passes.offset _).trans sized

theorem settlesAt_readAll (reader : ByteReader) :
    SettlesAt reader 0 readAll fun forms later =>
      reader.offset + (Tree.nodesList forms).length ≤ later.offset := by
  show SettlesAt reader 0
    (fun turns => loop (formsTurn turns) (turns + 0) []) _
  refine .loop (fun forms middle =>
    reader.offset + (Tree.nodesList forms).length ≤ middle.offset)
    (Nat.le_refl 0) (Nat.le_refl _) fun forms middle sized => ?_
  refine (settlesAt_formsTurn middle forms).imp fun reached later passes turn => ?_
  cases reached with
  | again =>
      obtain ⟨form, rfl, more⟩ := turn
      have some := form.length_nodes_pos
      unfold Sized at more
      refine ⟨by omega, ?_⟩
      rw [Tree.nodesList, List.length_append]
      omega
  | leave =>
      subst turn
      have same := Tree.length_nodesList_reverse forms
      have offset := passes.offset
      dsimp only
      omega

theorem settlesAt_readFirst (reader : ByteReader) :
    SettlesAt reader 0 readFirst (Sized reader.offset) := by
  refine (settlesAt_skip 0 (Nat.le_refl 0) reader).bind
    fun _ skipped passes _ => .look ?_
  rw [Nat.zero_sub]
  split
  · exact .fault _
  · refine (settlesAt_readForm skipped).imp fun form later _ sized => ?_
    exact (Nat.add_le_add_right passes.offset _).trans sized

end ByteReader

end FormCompiler
