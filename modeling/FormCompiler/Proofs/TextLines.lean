import FormCompiler.Proofs.MovedForms
import FormCompiler.Proofs.WrittenText

/-!
# Texts in lines

A text that was read without a fault can be followed by any other text on a new
line.  At the line end nothing of the first text is left over: no bracket or
tag waits for more, and no word, string or comment runs on across it.  So the
second text is read as it is read by itself, only further down.

Reading a text further down changes no columns and no forms, but the lines of
all positions.
-/

namespace FormCompiler

/-! ## Moving down -/

namespace Position

/-- The same column, a number of lines further down. -/
def movedDown (position : Position) (lines : Nat) : Position :=
  ⟨position.line + lines, position.column⟩

theorem after_movedDown (position : Position) (lines : Nat)
    (character : Char) :
    (position.movedDown lines).after character =
      (position.after character).movedDown lines := by
  unfold after movedDown
  split
  · rw [Nat.add_right_comm]
  · rfl

theorem advance_movedDown (position : Position) (lines : Nat)
    (characters : List Char) :
    (position.movedDown lines).advance characters =
      (position.advance characters).movedDown lines := by
  induction characters generalizing position with
  | nil => rfl
  | cons character characters ih =>
      rw [advance_cons, advance_cons, after_movedDown, ih]

/-- The line of a position counts the line ends before it. -/
theorem line_advance (position : Position) (characters : List Char) :
    (position.advance characters).line =
      position.line + characters.count '\n' := by
  induction characters generalizing position with
  | nil => rfl
  | cons character characters ih =>
      rw [advance_cons, ih, List.count_cons, after]
      by_cases lineEnd : character = '\n'
      · simp [lineEnd]
        omega
      · simp [lineEnd]

/-- A line end leads to the start of the next line. -/
theorem after_lineEnd_advance (characters : List Char) :
    (origin.advance characters).after '\n' =
      origin.movedDown (characters.count '\n' + 1) := by
  rw [after, if_pos rfl, line_advance]
  simp only [movedDown, origin]
  rw [Nat.add_assoc]

end Position

def Span.movedDown (span : Span) (lines : Nat) : Span :=
  ⟨span.start.movedDown lines, span.last.movedDown lines⟩

/-- An integer is increased; nothing else changes. -/
def Datum.increased (amount : Nat) : Datum → Datum
  | .atom () (.int value) => .int (value + Int64.ofNat amount)
  | other => other

namespace Metadata

/-- The entry names of lines. -/
def lineKeys : List String := ["line", "end-line"]

/-- The same entries, with all lines increased. -/
def movedDown (metadata : Metadata) (lines : Nat) : Metadata :=
  ⟨metadata.entries.map fun entry =>
    (entry.1, if lineKeys.contains entry.1 then entry.2.increased lines
      else entry.2)⟩

theorem ofSpan_entries (span : Span) :
    (ofSpan span).entries =
      [("col", .int (Int64.ofNat span.start.column)),
        ("end-col", .int (Int64.ofNat span.last.column)),
        ("end-line", .int (Int64.ofNat span.last.line)),
        ("line", .int (Int64.ofNat span.start.line))] := by
  have colFirst : "col" ≠ "line" ∧ "col" < "line" := by decide
  have lineEnd : "end-line" ≠ "line" ∧ "end-line" < "line" := by decide
  have lineEndLater : "end-line" ≠ "col" ∧ ¬ "end-line" < "col" := by decide
  have colEnd : "end-col" ≠ "end-line" ∧ "end-col" < "end-line" := by decide
  have colEndLater : "end-col" ≠ "col" ∧ ¬ "end-col" < "col" := by decide
  unfold ofSpan
  dsimp only [insert, empty, insertEntry]
  rw [if_neg colFirst.1, if_pos colFirst.2]
  dsimp only [insertEntry]
  rw [if_neg lineEndLater.1, if_neg lineEndLater.2, if_neg lineEnd.1,
    if_pos lineEnd.2]
  dsimp only [insertEntry]
  rw [if_neg colEndLater.1, if_neg colEndLater.2, if_neg colEnd.1,
    if_pos colEnd.2]

theorem movedDown_ofSpan (span : Span) (lines : Nat) :
    (ofSpan span).movedDown lines = ofSpan (span.movedDown lines) := by
  have entries : ((ofSpan span).movedDown lines).entries =
      (ofSpan (span.movedDown lines)).entries := by
    unfold movedDown
    simp [ofSpan_entries, lineKeys, Datum.increased, Datum.int,
      Span.movedDown, Position.movedDown, Int64.ofNat_add]
  exact congrArg Metadata.mk entries

end Metadata

/-- The same form, with the lines of all nodes increased. -/
def Form.movedDown (lines : Nat) (form : Form) : Form :=
  form.mapNotes (·.movedDown lines)

def ReadError.movedDown (error : ReadError) (lines : Nat) : ReadError :=
  ⟨error.fault, error.position.movedDown lines⟩

/-! ## What is read further down -/

def Frame.movedDown (lines : Nat) : Frame → Frame
  | .group bracket start reversedItems =>
      .group bracket (start.movedDown lines)
        (reversedItems.map (Form.movedDown lines))
  | .tag name start => .tag name (start.movedDown lines)

theorem Form.movedDown_group (lines : Nat) (span : Span) (bracket : Bracket)
    (items : List Form) :
    Form.movedDown lines (.group (.ofSpan span) bracket items) =
      .group (.ofSpan (span.movedDown lines)) bracket
        (items.map (Form.movedDown lines)) := by
  rw [Form.movedDown, Tree.mapNotes, Metadata.movedDown_ofSpan,
    Tree.mapNotesList_eq_map]
  rfl

namespace ReadState

/-- The same state, reached a number of lines further down and behind earlier
forms, the latest first. -/
def behind (earlier : List Form) (lines : Nat) (state : ReadState) :
    ReadState :=
  ⟨state.frames.map (Frame.movedDown lines),
    state.reversedForms.map (Form.movedDown lines) ++ earlier⟩

variable (earlier : List Form) (lines : Nat)

theorem deliver_behind (form : Form) (last : Position)
    (reversedForms : List Form) (frames : List Frame) :
    deliver (form.movedDown lines) (last.movedDown lines)
        (reversedForms.map (Form.movedDown lines) ++ earlier)
        (frames.map (Frame.movedDown lines)) =
      (deliver form last reversedForms frames).behind earlier lines := by
  induction frames generalizing form with
  | nil => rfl
  | cons frame frames ih =>
      cases frame with
      | group bracket start items => rfl
      | tag name start =>
          have tagged : Form.movedDown lines
              (.tagged (.ofSpan ⟨start, last⟩) name form) =
                .tagged (.ofSpan ⟨start.movedDown lines,
                  last.movedDown lines⟩) name (form.movedDown lines) :=
            congrArg (Tree.tagged · name (form.movedDown lines))
              (Metadata.movedDown_ofSpan ⟨start, last⟩ lines)
          rw [List.map_cons, Frame.movedDown, deliver, deliver, ← tagged, ih]

/-- What becomes of a step further down. -/
def stepBehind :
    Except ReadError ReadState → Except ReadError ReadState
  | .ok state => .ok (state.behind earlier lines)
  | .error error => .error (error.movedDown lines)

theorem close_behind (character : Char) (span : Span) (state : ReadState) :
    (state.behind earlier lines).close character (span.movedDown lines) =
      stepBehind earlier lines (state.close character span) := by
  obtain ⟨frames, reversedForms⟩ := state
  cases frames with
  | nil => rfl
  | cons frame frames =>
      cases frame with
      | tag name start => rfl
      | group bracket start items =>
          simp only [close, behind, List.map_cons, Frame.movedDown,
            List.length_map]
          by_cases other : bracket.closeChar ≠ character
          · rw [if_pos other, if_pos other]
            rfl
          · rw [if_neg other, if_neg other]
            by_cases odd : bracket = .map ∧ items.length % 2 ≠ 0
            · rw [if_pos odd, if_pos odd]
              rfl
            · rw [if_neg odd, if_neg odd, ← List.map_reverse]
              refine congrArg Except.ok ?_
              rw [← deliver_behind, Form.movedDown_group]
              rfl

/-- A token further down is taken as it is taken here. -/
theorem step_behind (token : Token) (span : Span) (state : ReadState) :
    (state.behind earlier lines).step ⟨token, span.movedDown lines⟩ =
      stepBehind earlier lines (state.step ⟨token, span⟩) := by
  cases token with
  | opening bracket => rfl
  | closing character => exact close_behind earlier lines character span state
  | atom value =>
      have atom : Form.movedDown lines (.atom (.ofSpan span) value) =
          .atom (.ofSpan (span.movedDown lines)) value :=
        congrArg (Tree.atom · value) (Metadata.movedDown_ofSpan span lines)
      simp only [step, stepBehind]
      rw [← deliver_behind, atom]
      rfl
  | tag name => rfl

end ReadState

/-- The outcome of reading further down, behind earlier forms, by the outcome
of reading here. -/
def outcomeBehind (earlier : List Form) (lines : Nat) :
    Except ReadError (List Form) → Except ReadError (List Form)
  | .ok forms => .ok (earlier ++ forms.map (Form.movedDown lines))
  | .error error => .error (error.movedDown lines)

theorem lastPosition_movedDown (position : Position) (lines : Nat)
    (text : List Char) :
    lastPosition (position.movedDown lines) text =
      (lastPosition position text).movedDown lines := by
  unfold lastPosition
  simp only [Position.advance_movedDown]
  cases text.getLast? with
  | none => rfl
  | some character =>
      simp only
      split <;> rfl

/-- Every text is empty, or starts with a blank, a comment, a token or a
fault. -/
@[elab_as_elim]
theorem textInduction {motive : List Char → Prop} (nil : motive [])
    (blank : ∀ character rest, isBlank character = true → motive rest →
      motive (character :: rest))
    (comment : ∀ text rest, '\n' ∉ text →
      (∀ next ∈ rest.head?, next = '\n') → motive rest →
      motive (';' :: (text ++ rest)))
    (token : ∀ (token : Token) (text rest : List Char),
      token.WrittenAs text rest → motive rest → motive (text ++ rest))
    (fault : ∀ (first : Char) (rest : List Char) (fault : LexicalFault),
      isBlank first = false → first ≠ ';' →
      lexeme first rest = .error fault → motive (first :: rest)) :
    ∀ characters, motive characters := by
  intro characters
  induction left : characters.length using Nat.strong_induction_on
    generalizing characters with
  | _ left' ih =>
      subst left
      cases characters with
      | nil => exact nil
      | cons first rest =>
          have shorter (length : Nat) : motive (rest.drop length) :=
            ih _ (by rw [List.length_drop, List.length_cons]; omega) _ rfl
          by_cases isBlank : isBlank first = true
          · exact blank first rest isBlank (shorter 0)
          · by_cases isComment : first = ';'
            · subst isComment
              obtain ⟨-, dropped⟩ := take_length_takeWhile (· ≠ '\n') rest
              have inside : '\n' ∉ rest.takeWhile (· ≠ '\n') := by
                intro member
                simpa using List.all_eq_true.mp List.all_takeWhile _ member
              have ends := List.head?_dropWhile_not (· ≠ '\n') rest
              have behind := comment _ (rest.dropWhile (· ≠ '\n')) inside
                (by
                  intro next first
                  rw [first] at ends
                  simpa using ends)
                (dropped ▸ shorter _)
              rwa [List.takeWhile_append_dropWhile] at behind
            · rw [Bool.not_eq_true] at isBlank
              cases read : lexeme first rest with
              | error found =>
                  exact fault first rest found isBlank isComment read
              | ok lexed =>
                  have behind := token _ _ _ (writtenAs_of_lexeme read)
                    (shorter _)
                  rwa [List.cons_append, List.take_append_drop] at behind

/-- A text is read further down, behind earlier forms, as it is read here. -/
theorem readOn_behind (earlier : List Form) (lines : Nat)
    (characters : List Char) (state : ReadState) (position : Position) :
    readOn (state.behind earlier lines) (position.movedDown lines)
        characters =
      outcomeBehind earlier.reverse lines
        (readOn state position characters) := by
  induction characters using textInduction generalizing state position with
  | nil =>
      rw [readOn_nil, readOn_nil]
      obtain ⟨frames, reversedForms⟩ := state
      cases frames with
      | nil => simp [ReadState.finish, ReadState.behind, outcomeBehind]
      | cons frame frames => rfl
  | blank character rest skipped ih =>
      rw [readOn_blank _ _ _ skipped, readOn_blank _ _ _ skipped,
        Position.after_movedDown, ih]
  | comment text rest inside ends ih =>
      rw [readOn_comment, readOn_comment, takeWhile_comment inside ends,
        List.drop_left, Position.after_movedDown, Position.advance_movedDown,
        ih]
  | token token text rest written ih =>
      rw [readOn_token _ _ written, readOn_token _ _ written,
        lastPosition_movedDown, Position.advance_movedDown]
      have stepped := ReadState.step_behind earlier lines token
        ⟨position, lastPosition position text⟩ state
      rw [Span.movedDown] at stepped
      rw [stepped]
      cases state.step ⟨token, position, lastPosition position text⟩ with
      | error error => rfl
      | ok next => exact ih next _
  | fault first rest fault notBlank notComment read =>
      rw [readOn_fault _ _ notBlank notComment read,
        readOn_fault _ _ notBlank notComment read,
        Position.advance_movedDown]
      rfl

/-! ## Reading across a line end -/

theorem Delimited.lineEnd {after : List Char} (delimited : Delimited after)
    (rest : List Char) : Delimited (after ++ '\n' :: rest) := by
  cases after with
  | nil => exact delimited_cons (by decide)
  | cons next after =>
      unfold Delimited at delimited ⊢
      rw [List.cons_append]
      rw [List.takeWhile_cons] at delimited ⊢
      split at delimited
      · cases delimited
      · next outside => rw [if_neg outside]

/-- A token is the same token when its text goes on behind a line end. -/
theorem Token.WrittenAs.lineEnd {token : Token} {text after : List Char}
    (written : token.WrittenAs text after) (rest : List Char) :
    token.WrittenAs text (after ++ '\n' :: rest) := by
  cases written with
  | opening bracket => exact .opening bracket _
  | closing bracket => exact .closing bracket _
  | tag named delimited => exact .tag named (delimited.lineEnd rest)
  | string spells => exact .string spells _
  | keyword named delimited => exact .keyword named (delimited.lineEnd rest)
  | word starts inside read delimited =>
      exact .word starts inside read (delimited.lineEnd rest)

/-- Behind a text that is read as forms, reading goes on at a line end with
nothing open. -/
theorem readOn_lineEnd {state : ReadState} {position : Position}
    {characters : List Char} {forms : List Form}
    (read : readOn state position characters = .ok forms)
    (rest : List Char) :
    readOn state position (characters ++ '\n' :: rest) =
      readOn ⟨[], forms.reverse⟩
        ((position.advance characters).after '\n') rest := by
  induction characters using textInduction generalizing state position with
  | nil =>
      rw [readOn_nil] at read
      obtain ⟨frames, reversedForms⟩ := state
      cases frames with
      | nil =>
          cases read
          rw [List.nil_append, readOn_blank _ _ _ (by decide),
            List.reverse_reverse]
          rfl
      | cons frame frames => cases read
  | blank character more skipped ih =>
      rw [readOn_blank _ _ _ skipped] at read
      rw [List.cons_append, readOn_blank _ _ _ skipped, ih read]
      rfl
  | comment text more inside ends ih =>
      have endsToo : ∀ next ∈ (more ++ '\n' :: rest).head?,
          next = '\n' := by
        cases more with
        | nil => simp
        | cons first more => simpa using ends
      rw [readOn_comment, takeWhile_comment inside ends, List.drop_left]
        at read
      rw [List.cons_append, List.append_assoc, readOn_comment,
        takeWhile_comment inside endsToo, List.drop_left, ih read,
        Position.advance_cons, Position.advance_append]
  | token token text more written ih =>
      rw [readOn_token _ _ written] at read
      rw [List.append_assoc, readOn_token _ _ (written.lineEnd rest),
        Position.advance_append]
      generalize state.step _ = stepped at read ⊢
      cases stepped with
      | error error => cases read
      | ok next => exact ih read
  | fault first more fault notBlank notComment found =>
      rw [readOn_fault _ _ notBlank notComment found] at read
      cases read

/-- A text that is read as forms can be followed by any text on a new line.
The forms of the first text keep all they have.  The second text is read as it
is read by itself, only so many lines further down: each node of its forms has
its lines increased, and its fault is the same one, further down. -/
theorem readForms_append_line {before : String} {earlier : List Form}
    (read : readForms before = .ok earlier) (after : String) :
    readForms (before ++ "\n" ++ after) =
      match readForms after with
      | .ok forms => .ok (earlier ++
          forms.map (Form.movedDown (before.toList.count '\n' + 1)))
      | .error error =>
          .error (error.movedDown (before.toList.count '\n' + 1)) := by
  rw [readForms_eq_readOn] at read
  have text : (before ++ "\n" ++ after).toList =
      before.toList ++ '\n' :: after.toList := by
    simp
  have start := readOn_behind earlier.reverse
    (before.toList.count '\n' + 1) after.toList .initial .origin
  rw [readForms_eq_readOn, text, readOn_lineEnd read,
    Position.after_lineEnd_advance]
  refine start.trans ?_
  rw [List.reverse_reverse, ← readForms_eq_readOn]
  rfl

/-- A string on two lines, and an open comment. -/
def commentedString : String := "\"\n\";("

def commentedStringForm : Form :=
  .atom (.ofSpan ⟨⟨1, 1⟩, ⟨2, 1⟩⟩) (.string "\n")

theorem readForms_append_line_commentedString :
    readForms commentedString = .ok [commentedStringForm] ∧
    readForms (commentedString ++ "\n" ++ "\"\n\"") =
      .ok [commentedStringForm,
        .atom (.ofSpan ⟨⟨3, 1⟩, ⟨4, 1⟩⟩) (.string "\n")] ∧
    readForms (commentedString ++ "\n" ++ "[\n)") =
      .error ⟨.unmatchedClose ')', ⟨4, 1⟩⟩ := by
  have read : readForms commentedString = .ok [commentedStringForm] := by
    cbv
  have further : readForms "\"\n\"" = .ok [commentedStringForm] := by
    cbv
  have fault : readForms "[\n)" =
      .error ⟨.unmatchedClose ')', ⟨2, 1⟩⟩ := by
    cbv
  refine ⟨read, ?_, ?_⟩
  · rw [readForms_append_line read, further]
    rfl
  · rw [readForms_append_line read, fault]
    rfl

end FormCompiler
