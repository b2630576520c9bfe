import FormCompiler.Proofs.ByteWords

/-!
# Bytes and forms

A reader that goes down into a form where a bracket opens, and comes back where
it closes, hands over the same forms as a stack of open brackets, and finds the
same faults.

So the forms of a text are those that a reader of its bytes comes to.  A reader
takes a byte in every turn that goes on and one for every node it makes: it has
an outcome on every text, and no text has more nodes than bytes.
-/

namespace FormCompiler

/-- What every form of a scan comes to. -/
def ReadState.everyForm (state : ReadState) (scan : Scan) :
    Except ReadError (List Form) :=
  match readTokens state scan.tokens with
  | .error error => .error error
  | .ok state => state.finish scan.ending

/-- What the first form of a scan comes to, if none is finished yet. -/
def ReadState.firstForm (state : ReadState) (scan : Scan) :
    Except ReadError Form :=
  match state.reversedForms with
  | form :: _ => .ok form
  | [] => readFirst scan.ending state scan.tokens

namespace ByteReader

open Reading

variable {State Result Other : Type} {reader later : ByteReader}
  {position : Position} {first : Char} {characters rest : List Char}

/-! ## Scans -/

/-- The scan of a text that starts with a token. -/
theorem scanFrom_token {token : Token} {length : Nat}
    (solid : Solid (first :: rest))
    (read : lexeme first rest = .ok ⟨token, length⟩) :
    scanFrom position (first :: rest) =
      let text := first :: rest.take length
      let remaining :=
        scanFrom (position.advance text) (rest.drop length)
      ⟨⟨token, position, lastPosition position text⟩ :: remaining.tokens,
        remaining.ending⟩ := by
  obtain ⟨blank, comment⟩ := solid first rfl
  rw [scanFrom, if_neg (Bool.eq_false_iff.mp blank), if_neg comment, read]

theorem scanFrom_fault {fault : LexicalFault}
    (solid : Solid (first :: rest))
    (read : lexeme first rest = .error fault) :
    scanFrom position (first :: rest) =
      ⟨[], .error ⟨fault.fault,
        position.advance ((first :: rest).take fault.offset)⟩⟩ := by
  obtain ⟨blank, comment⟩ := solid first rfl
  rw [scanFrom, if_neg (Bool.eq_false_iff.mp blank), if_neg comment, read]

/-- A text that starts with a token or a fault has not ended. -/
theorem scanFrom_ne_ended (solid : Solid (first :: rest))
    (place : Position) :
    scanFrom position (first :: rest) ≠ ⟨[], .ok place⟩ := by
  cases read : lexeme first rest with
  | error fault =>
      rw [scanFrom_fault solid read]
      simp
  | ok found =>
      rw [scanFrom_token solid read]
      simp

/-- A closing bracket is written as itself. -/
theorem closing_of_lexeme {character : Char} {length : Nat}
    (read : lexeme first rest = .ok ⟨.closing character, length⟩) :
    first = character := by
  have written := writtenAs_of_lexeme read
  generalize wholeText : first :: rest.take length = text at written
  cases written
  exact (List.cons.inj wholeText).1

/-! ## Stacks of open brackets -/

/-- What is made of a scan with something open: tokens are taken one after the
other, and the first fault ends it. -/
structure Drives {Outcome : Type} (forms : List Form)
    (run : ReadState → Scan → Except ReadError Outcome) : Prop where
  token (frames : List Frame) (next : SpannedToken)
    (tokens : List SpannedToken) (ending : Except ReadError Position) :
    run ⟨frames, forms⟩ ⟨next :: tokens, ending⟩ =
      match ReadState.step ⟨frames, forms⟩ next with
      | .error error => .error error
      | .ok state => run state ⟨tokens, ending⟩
  fault (frames : List Frame) (error : ReadError) :
    run ⟨frames, forms⟩ ⟨[], .error error⟩ = .error error
  unfinished (frames : List Frame) (position : Position)
    (isOpen : frames ≠ []) :
    run ⟨frames, forms⟩ ⟨[], .ok position⟩ =
      .error ⟨.unexpectedEnd, position⟩

/-- Something open wants a form: the text has not ended, and the innermost
bracket does not close here. -/
inductive Wants : List Frame → Scan → Prop where
  | text {scan : Scan} (more : ∀ position, scan ≠ ⟨[], .ok position⟩) :
      Wants [] scan
  | tag {name : String} {start : Position} {frames : List Frame}
      {scan : Scan} : Wants (.tag name start :: frames) scan
  | group {bracket : Bracket} {start : Position} {items : List Form}
      {frames : List Frame} {scan : Scan}
      (more : ∀ next ∈ scan.tokens.head?,
        next.token ≠ .closing bracket.closeChar) :
      Wants (.group bracket start items :: frames) scan

/-- What wants a form is not closed. -/
theorem Wants.close_eq {frames : List Frame} {scan : Scan}
    (wants : Wants frames scan) {next : SpannedToken} {character : Char}
    (first : scan.tokens.head? = some next)
    (closing : next.token = .closing character) (span : Span)
    (forms : List Form) :
    ReadState.close character span ⟨frames, forms⟩ =
      .error ⟨.unmatchedClose character, span.start⟩ := by
  cases wants with
  | text => rfl
  | tag => rfl
  | group more =>
      refine if_pos fun same => more next first ?_
      rw [closing, same]

/-- Where a scan starts, a reader comes to the form that a stack of open
brackets is handed, or to the fault that it meets. -/
def Agrees {Outcome : Type} (forms : List Form)
    (run : ReadState → Scan → Except ReadError Outcome) (scan : Scan) :
    Except ReadError (Form × ByteReader) → Prop
  | .ok (form, later) => ∃ position characters,
      later.At position characters ∧
      ∀ frames, run ⟨frames, forms⟩ scan =
        run (.deliver form later.last forms frames)
          (scanFrom position characters)
  | .error error => ∀ frames, Wants frames scan →
      run ⟨frames, forms⟩ scan = .error error

section Drives

variable {Outcome : Type} {forms : List Form}
  {run : ReadState → Scan → Except ReadError Outcome}
  {outcome : Except ReadError (Form × ByteReader)}

/-- Atoms and faults are what the token makes of them. -/
theorem Lexes.agrees (drives : Drives forms run)
    (stands : reader.At position (first :: rest))
    (solid : Solid (first :: rest))
    (lexes : Lexes reader position first rest outcome) :
    Agrees forms run (scanFrom position (first :: rest)) outcome := by
  cases lexes with
  | fault read =>
      intro frames wants
      rw [scanFrom_fault solid read]
      exact drives.fault frames _
  | @closing character length read =>
      intro frames wants
      rw [scanFrom_token solid read] at wants ⊢
      have closed := wants.close_eq rfl rfl
      rw [drives.token]
      dsimp only [ReadState.step]
      rw [closed]
  | @atom atom length read =>
      have whole : reader.At position
          ((first :: rest.take length) ++ rest.drop length) := by
        rw [List.cons_append, List.take_append_drop]
        exact stands
      refine ⟨_, _, whole.afterAll, fun frames => ?_⟩
      rw [scanFrom_token solid read, drives.token,
        whole.last (List.cons_ne_nil _ _)]
      rfl

/-! ## Forms -/

/-- Wherever a reader stands, a form is the one of the scan. -/
def ReadsForms (forms : List Form)
    (run : ReadState → Scan → Except ReadError Outcome)
    (form : Reading Form) : Prop :=
  ∀ reader position characters, reader.At position characters →
    Yields form reader
      (Agrees forms run (scanFrom position characters))

/-- Inside a bracket, a reader comes to the items that the bracket is closed
with, or to the fault that is met. -/
def ItemsAgree (forms : List Form)
    (run : ReadState → Scan → Except ReadError Outcome) (bracket : Bracket)
    (start : Position) (items : List Form) (scan : Scan) :
    Except ReadError (List Form × ByteReader) → Prop
  | .ok (result, later) => ∃ place position characters,
      later.At position characters ∧
      ∀ frames,
        run ⟨.group bracket start items :: frames, forms⟩ scan =
        match ReadState.close bracket.closeChar ⟨place, later.last⟩
          ⟨.group bracket start result.reverse :: frames, forms⟩ with
        | .error error => .error error
        | .ok state => run state (scanFrom position characters)
  | .error error => ∀ frames,
      run ⟨.group bracket start items :: frames, forms⟩ scan = .error error

theorem lexeme_closeChar (bracket : Bracket) (rest : List Char) :
    lexeme bracket.closeChar rest =
      .ok ⟨.closing bracket.closeChar, 0⟩ := by
  cases bracket <;> rfl

theorem closeChar_lt (bracket : Bracket) :
    bracket.closeChar.toNat < 128 := by
  cases bracket <;> decide

/-- What a turn over the items comes to. -/
def TurnAgrees (forms : List Form)
    (run : ReadState → Scan → Except ReadError Outcome) (bracket : Bracket)
    (start : Position) (items : List Form) (scan : Scan) :
    Except ReadError (Turn (List Form) (List Form) × ByteReader) → Prop
  | .ok (.again next, later) => ∃ position characters,
      later.At position characters ∧
      ∀ frames, run ⟨.group bracket start items :: frames, forms⟩ scan =
        run ⟨.group bracket start next :: frames, forms⟩
          (scanFrom position characters)
  | .ok (.leave result, later) =>
      ItemsAgree forms run bracket start items scan (.ok (result, later))
  | .error error =>
      ItemsAgree forms run bracket start items scan (.error error)

theorem yields_itemsTurn {form : Reading Form} (drives : Drives forms run)
    (reads : ReadsForms forms run form) (inner : Nat) (bracket : Bracket)
    (start : Position) (items : List Form)
    (stands : reader.At position characters) :
    Yields (itemsTurn form inner bracket.closeChar items) reader
      (TurnAgrees forms run bracket start items
        (scanFrom position characters)) := by
  obtain ⟨skipped, behind, solid, stands, isSolid, same, skips⟩ :=
    comes_skip stands
  rw [same]
  refine .behind (skips inner inner) (.look ?_)
  cases solid with
  | nil =>
      rw [stands.next?_nil, stands.place]
      refine (Comes.throw _).yields fun frames => ?_
      rw [scanFrom]
      exact drives.unfinished _ _ (List.cons_ne_nil _ _)
  | cons first rest =>
      obtain ⟨byte, found, heads⟩ := stands.exists_next
      rw [found]
      dsimp only
      split
      · next closes =>
          have isClose := (heads.eq_iff (closeChar_lt bracket)).mp closes
          subst isClose
          cases heads with
          | wide wide =>
              exact absurd (closeChar_lt bracket) (Nat.not_lt.mpr wide)
          | alone encoded =>
              refine Comes.yields ((Comes.take found).bind (.pure _)) ?_
              refine ⟨behind, _, _, stands.afterByte encoded,
                fun frames => ?_⟩
              have ends : (skipped.after byte).last =
                  lastPosition behind [bracket.closeChar] := by
                rw [← stands.last_one, encoded]
                rfl
              rw [scanFrom_token isSolid (lexeme_closeChar bracket rest),
                drives.token, List.reverse_reverse, ends]
              rfl
      · next open_ =>
          have other : first ≠ bracket.closeChar :=
            mt (heads.eq_iff (closeChar_lt bracket)).mpr open_
          have wants (frames : List Frame) :
              Wants (.group bracket start items :: frames)
                (scanFrom behind (first :: rest)) := by
            refine .group fun next isNext closing => ?_
            cases read : lexeme first rest with
            | error fault =>
                rw [scanFrom_fault isSolid read] at isNext
                cases isNext
            | ok lexed =>
                rw [scanFrom_token isSolid read] at isNext
                cases isNext
                obtain ⟨token, length⟩ := lexed
                cases closing
                exact other (closing_of_lexeme read)
          refine .bind (reads _ _ _ stands) (fun error agrees frames =>
            agrees _ (wants frames)) fun item later agrees => ?_
          obtain ⟨place, left, at_, agree⟩ := agrees
          exact (Comes.pure _).yields ⟨place, left, at_, fun frames => agree _⟩

theorem yields_items {form : Reading Form} (drives : Drives forms run)
    (reads : ReadsForms forms run form) (inner : Nat) (bracket : Bracket)
    (start : Position) (turns : Nat) (items : List Form)
    (stands : reader.At position characters) :
    Yields (loop (itemsTurn form inner bracket.closeChar) turns items) reader
      (ItemsAgree forms run bracket start items
        (scanFrom position characters)) := by
  induction turns generalizing reader position characters items with
  | zero => exact nofun
  | succ turns ih =>
      refine .bind (yields_itemsTurn drives reads inner bracket start items
        stands) (fun error agrees => agrees) fun turn later agrees => ?_
      cases turn with
      | leave result => exact (Comes.pure _).yields agrees
      | again next =>
          obtain ⟨place, left, at_, agree⟩ := agrees
          refine (ih next at_).imp fun outcome further => ?_
          cases outcome with
          | error error =>
              intro frames
              rw [agree, further]
          | ok result =>
              obtain ⟨close, position, characters, at_, run⟩ := further
              refine ⟨close, position, characters, at_, fun frames => ?_⟩
              rw [agree, run]

/-- A group is delivered where its opening bracket was taken. -/
theorem yields_readGroup {form : Reading Form} (drives : Drives forms run)
    (reads : ReadsForms forms run form) (turns : Nat) (bracket : Bracket)
    (start : Position) (stands : reader.At position characters) {scan : Scan}
    (opens : ∀ frames, run ⟨frames, forms⟩ scan =
      run ⟨.group bracket start [] :: frames, forms⟩
        (scanFrom position characters)) :
    Yields (readGroup form turns bracket start) reader
      (Agrees forms run scan) := by
  refine .bind (yields_items drives reads turns bracket start turns [] stands)
    (fun error agrees frames _ => by rw [opens, agrees])
    fun items later agrees => ?_
  obtain ⟨place, position, characters, at_, agree⟩ := agrees
  split
  · next odd =>
      refine (Comes.throw _).yields fun frames _ => ?_
      rw [opens, agree]
      dsimp only [ReadState.close]
      rw [if_neg (not_not_intro rfl), List.length_reverse, if_pos odd]
  · next notOdd =>
      refine (Comes.finish _ _).yields
        ⟨position, characters, at_, fun frames => ?_⟩
      rw [opens, agree]
      dsimp only [ReadState.close]
      rw [if_neg (not_not_intro rfl), List.length_reverse, if_neg notOdd,
        List.reverse_reverse]

theorem yields_opening {form : Reading Form} (drives : Drives forms run)
    (reads : ReadsForms forms run form) (turns : Nat) {bracket : Bracket}
    (stands : reader.At position (first :: rest))
    (solid : Solid (first :: rest)) (ascii : first.toNat < 128)
    (read : lexeme first rest = .ok ⟨.opening bracket, 0⟩) :
    Yields (do
        take
        readGroup form turns bracket position) reader
      (Agrees forms run (scanFrom position (first :: rest))) := by
  obtain ⟨byte, found, heads⟩ := stands.exists_next
  cases heads with
  | wide wide => exact absurd ascii (Nat.not_lt.mpr wide)
  | alone encoded =>
      refine .behind (Comes.take found) (yields_readGroup drives reads turns
        bracket position (stands.afterByte encoded) fun frames => ?_)
      rw [scanFrom_token solid read, drives.token]
      rfl

/-- A tag waits for its value. -/
theorem yields_tagged {form : Reading Form}
    (reads : ReadsForms forms run form) (tag : String) (start : Position)
    (stands : reader.At position characters) {scan : Scan}
    (opens : ∀ frames, run ⟨frames, forms⟩ scan =
      run ⟨.tag tag start :: frames, forms⟩
        (scanFrom position characters)) :
    Yields (do
        let value ← form
        finish start (.tagged · tag value)) reader
      (Agrees forms run scan) := by
  refine .bind (reads _ _ _ stands)
    (fun error agrees frames _ => by rw [opens, agrees _ .tag])
    fun value later agrees => ?_
  obtain ⟨position, characters, at_, agree⟩ := agrees
  refine (Comes.finish _ _).yields
    ⟨position, characters, at_, fun frames => ?_⟩
  rw [opens, agree]
  rfl

theorem yields_readDispatch {form : Reading Form} (drives : Drives forms run)
    (reads : ReadsForms forms run form) (turns : Nat)
    (stands : reader.At position ('#' :: rest))
    (solid : Solid ('#' :: rest)) :
    Yields (readDispatch form turns position) reader
      (Agrees forms run (scanFrom position ('#' :: rest))) := by
  obtain ⟨hash, found, heads⟩ := stands.exists_next
  cases heads with
  | wide wide => exact absurd wide (by decide)
  | alone encoded =>
      have behind := stands.afterByte encoded
      refine .behind (Comes.take found) (.look ?_)
      by_cases brace : ∃ more, rest = '\x7b' :: more
      · obtain ⟨more, rfl⟩ := brace
        obtain ⟨second, next, heads⟩ := behind.exists_next
        cases heads with
        | wide wide => exact absurd wide (by decide)
        | alone alone same =>
            rw [next, Option.map_some, same, if_pos rfl]
            refine .behind (Comes.take next) (yields_readGroup drives reads
              turns .set position (behind.afterByte alone) fun frames => ?_)
            rw [scanFrom_token solid rfl, drives.token]
            rfl
      · have notBrace : ¬(reader.after hash).next?.map byteChar =
            some '\x7b' := by
          cases rest with
          | nil =>
              rw [behind.next?_nil]
              exact nofun
          | cons second more =>
              obtain ⟨byte, next, heads⟩ := behind.exists_next
              rw [next, Option.map_some, Option.some.injEq,
                heads.eq_iff (by decide)]
              rintro rfl
              exact brace ⟨more, rfl⟩
        have read : lexeme '#' rest = namedLexeme .tag rest := by
          rw [lexeme]
          exact fun more same => brace ⟨more, same⟩
        have takes := comes_nameBehind encoded stands turns
        rw [if_neg notBrace]
        by_cases empty : (rest.takeWhile isWordChar).isEmpty = true
        · rw [if_pos empty] at takes
          have fault : Lexes reader position '#' rest _ :=
            .fault (read.trans (if_pos empty))
          rw [offset_unexpectedAt] at fault
          exact takes.fail.yields (fault.agrees drives stands solid)
        · rw [if_neg empty] at takes
          have lexed := read.trans (if_neg empty)
          have whole := stands.word.afterAll
          refine .behind takes (yields_tagged reads _ _ whole
            fun frames => ?_)
          rw [scanFrom_token solid lexed, drives.token]
          dsimp only [ReadState.step]
          rw [(take_length_takeWhile isWordChar rest).1,
            (take_length_takeWhile isWordChar rest).2]

theorem yields_readFrom {form : Reading Form} (drives : Drives forms run)
    (reads : ReadsForms forms run form) (turns : Nat) {byte : UInt8}
    (stands : reader.At position (first :: rest))
    (solid : Solid (first :: rest)) (found : reader.next? = some byte)
    (heads : Heads byte first) :
    Yields (readFrom form turns byte) reader
      (Agrees forms run (scanFrom position (first :: rest))) := by
  have is {mark : Char} (ascii : mark.toNat < 128)
      (same : byteChar byte = mark) : first = mark :=
    (heads.eq_iff ascii).mp same
  have alone {outcome : Except ReadError (Form × ByteReader)}
      (lexes : Lexes reader position first rest outcome) :=
    lexes.agrees drives stands solid
  unfold readFrom
  refine .look ?_
  rw [stands.place]
  dsimp only
  split
  · next same =>
      cases is (by decide) same
      exact yields_opening drives reads turns stands solid (by decide) rfl
  · next same =>
      cases is (by decide) same
      exact yields_opening drives reads turns stands solid (by decide) rfl
  · next same =>
      cases is (by decide) same
      exact yields_opening drives reads turns stands solid (by decide) rfl
  · next same =>
      cases is (by decide) same
      exact yields_readDispatch drives reads turns stands solid
  · next same =>
      cases is (by decide) same
      exact (Comes.throw _).yields (alone (.closing rfl))
  · next same =>
      cases is (by decide) same
      exact (Comes.throw _).yields (alone (.closing rfl))
  · next same =>
      cases is (by decide) same
      exact (Comes.throw _).yields (alone (.closing rfl))
  · next same =>
      cases is (by decide) same
      exact (yields_readString stands turns).imp fun _ => alone
  · next same =>
      cases is (by decide) same
      exact (yields_keyword stands turns).imp fun _ => alone
  · next list vector map hash round square curly quote colon =>
      have other : IsOther (byteChar byte) := by
        simp only [IsOther, marks, List.mem_cons, List.not_mem_nil, or_false,
          not_or]
        exact ⟨list, vector, map, hash, round, square, curly, quote, colon⟩
      exact (yields_readWord turns stands found heads
        (heads.isOther other)).imp fun _ => alone

/-- Wherever a reader stands, the form it reads is the one of the scan. -/
theorem readsForms_readForm (drives : Drives forms run) (turns : Nat) :
    ReadsForms forms run (readForm turns) := by
  induction turns with
  | zero => exact fun _ _ _ _ _ read => nomatch read
  | succ turns ih =>
      intro reader position characters stands
      obtain ⟨skipped, behind, solid, stands, isSolid, same, skips⟩ :=
        comes_skip stands
      rw [same]
      refine .behind (skips _ _) (.look ?_)
      cases solid with
      | nil =>
          rw [stands.next?_nil, stands.place]
          refine (Comes.throw _).yields fun frames wants => ?_
          rw [scanFrom] at wants ⊢
          cases wants with
          | text more => exact absurd rfl (more behind)
          | tag => exact drives.unfinished _ _ (List.cons_ne_nil _ _)
          | group => exact drives.unfinished _ _ (List.cons_ne_nil _ _)
      | cons first rest =>
          obtain ⟨byte, found, heads⟩ := stands.exists_next
          rw [found]
          exact yields_readFrom drives ih _ stands isSolid found heads

end Drives

/-! ## Texts -/

theorem drives_everyForm (forms : List Form) :
    Drives forms ReadState.everyForm where
  token frames next tokens ending := by
    cases stepped : ReadState.step ⟨frames, forms⟩ next <;>
      simp only [ReadState.everyForm, readTokens, stepped]
  fault _ _ := rfl
  unfinished frames position isOpen :=
    if_neg (by rwa [List.isEmpty_iff])

theorem drives_firstForm : Drives [] ReadState.firstForm where
  token frames next tokens ending := by
    cases stepped : ReadState.step ⟨frames, []⟩ next with
    | error error =>
        simp only [ReadState.firstForm, FormCompiler.readFirst, stepped]
    | ok state =>
        cases formed : state.reversedForms <;>
          simp only [ReadState.firstForm, FormCompiler.readFirst, stepped,
            formed]
  fault _ _ := rfl
  unfinished frames position isOpen :=
    if_neg (by rwa [List.isEmpty_iff])

theorem At.isAtEnd_iff (stands : reader.At position characters) :
    reader.isAtEnd = true ↔ characters = [] := by
  rw [isAtEnd, decide_eq_true_iff, ← List.getElem?_eq_none_iff]
  cases characters with
  | nil => exact iff_of_true stands.next?_nil rfl
  | cons first rest =>
      obtain ⟨byte, found, heads⟩ := stands.exists_next
      refine iff_of_false ?_ (List.cons_ne_nil _ _)
      exact fun ended => nomatch found.symm.trans ended

/-- What a turn over the forms of a text comes to. -/
def FormsTurnAgrees (forms : List Form) (scan : Scan) :
    Except ReadError (Turn (List Form) (List Form) × ByteReader) → Prop
  | .ok (.again next, later) => ∃ position characters,
      later.At position characters ∧
      ReadState.everyForm ⟨[], forms⟩ scan =
        ReadState.everyForm ⟨[], next⟩ (scanFrom position characters)
  | .ok (.leave result, _) =>
      ReadState.everyForm ⟨[], forms⟩ scan = .ok result
  | .error error => ReadState.everyForm ⟨[], forms⟩ scan = .error error

theorem yields_formsTurn (turns : Nat) (forms : List Form)
    (stands : reader.At position characters) :
    Yields (formsTurn turns forms) reader
      (FormsTurnAgrees forms (scanFrom position characters)) := by
  obtain ⟨skipped, behind, solid, stands, isSolid, same, skips⟩ :=
    comes_skip stands
  rw [same]
  refine .behind (skips _ _) (.look ?_)
  by_cases ended : solid = []
  · rw [if_pos (stands.isAtEnd_iff.mpr ended), ended, scanFrom]
    exact (Comes.pure _).yields rfl
  · rw [if_neg (mt stands.isAtEnd_iff.mp ended)]
    obtain ⟨first, rest, rfl⟩ := List.exists_cons_of_ne_nil ended
    refine .bind
      (readsForms_readForm (drives_everyForm forms) turns _ _ _ stands)
      (fun error agrees => agrees [] (.text (scanFrom_ne_ended isSolid)))
      fun form later agrees => ?_
    obtain ⟨place, left, at_, agree⟩ := agrees
    exact (Comes.pure _).yields ⟨place, left, at_, agree []⟩

/-- Every form of a text is read. -/
theorem yields_forms (inner turns : Nat) (forms : List Form)
    (stands : reader.At position characters) :
    Yields (loop (formsTurn inner) turns forms) reader fun outcome =>
      ReadState.everyForm ⟨[], forms⟩ (scanFrom position characters) =
        outcome.map Prod.fst := by
  induction turns generalizing reader position characters forms with
  | zero => exact nofun
  | succ turns ih =>
      refine .bind (yields_formsTurn inner forms stands)
        (fun error agrees => agrees) fun turn later agrees => ?_
      cases turn with
      | leave result => exact (Comes.pure _).yields agrees
      | again next =>
          obtain ⟨place, left, at_, agree⟩ := agrees
          rw [agree]
          exact ih next at_

/-- The first form of a text is read. -/
theorem yields_readFirst (turns : Nat)
    (stands : reader.At position characters) :
    Yields (readFirst turns) reader fun outcome =>
      ReadState.firstForm .initial (scanFrom position characters) =
        outcome.map Prod.fst := by
  obtain ⟨skipped, behind, solid, stands, isSolid, same, skips⟩ :=
    comes_skip stands
  rw [same]
  refine .behind (skips _ _) (.look ?_)
  by_cases ended : solid = []
  · rw [if_pos (stands.isAtEnd_iff.mpr ended), stands.place, ended, scanFrom]
    exact (Comes.throw _).yields rfl
  · rw [if_neg (mt stands.isAtEnd_iff.mp ended)]
    obtain ⟨first, rest, rfl⟩ := List.exists_cons_of_ne_nil ended
    refine (readsForms_readForm drives_firstForm turns _ _ _ stands).imp
      fun outcome agrees => ?_
    cases outcome with
    | error error => exact agrees [] (.text (scanFrom_ne_ended isSolid))
    | ok found =>
        obtain ⟨place, left, at_, agree⟩ := agrees
        exact agree []

theorem at_ofText (text : String) :
    (ofText text).At .origin text.toList :=
  ⟨bytes_of_text text, rfl⟩

/-- What a settled reading of a text comes to, whatever bound its turns have. -/
theorem outcome_eq {reading : (turns : Nat) → Reading Result}
    {good : Result → ByteReader → Prop} {expected : Except ReadError Result}
    {text : String} (settled : SettlesAt (ofText text) 0 reading good)
    (known : ∀ turns, Yields (reading turns) (ofText text)
      fun found => expected = found.map Prod.fst)
    {turns : Nat} (enough : text.utf8ByteSize < turns) :
    outcome (reading turns) text = some expected := by
  obtain ⟨found, read⟩ := settled.settles
  have ran := read turns enough
  rw [outcome, ran, known turns found ran]
  rfl

/-- Enough turns read every form of a text, or find its fault. -/
theorem outcome_readAll (text : String) {turns : Nat}
    (enough : text.utf8ByteSize < turns) :
    outcome (readAll turns) text = some (readForms text) :=
  outcome_eq (settlesAt_readAll _)
    (fun turns => yields_forms turns turns [] (at_ofText text)) enough

theorem outcome_readFirst (text : String) {turns : Nat}
    (enough : text.utf8ByteSize < turns) :
    outcome (readFirst turns) text = some (FormCompiler.readForm text) :=
  outcome_eq (settlesAt_readFirst _)
    (fun turns => yields_readFirst turns (at_ofText text)) enough

/-! ## Progress -/

/-- Every turn that does not leave its loop takes a byte, wherever the reader
stands. -/
def Advances (turn : State → Reading (Turn State Result)) : Prop :=
  ∀ state reader next later,
    turn state reader = some (.ok (.again next, later)) →
    reader.offset < later.offset

theorem advances_of_settles {turn : State → Reading (Turn State Result)}
    {leaves : ByteReader → Prop}
    (settles : ∀ state reader, SettlesAt reader 0 (fun _ => turn state)
      (TakesUnless (leaves reader) reader)) :
    Advances turn := fun state reader next later read =>
  ((settles state reader).takes 0 (.again next) later read).2

theorem advances_skipTurn (turns : Nat) : Advances (skipTurn turns) :=
  fun state reader next later read =>
    ((settlesAt_skipTurn (Nat.le_refl 0) reader state).takes turns
      (.again next) later read).2

theorem advances_itemsTurn (turns : Nat) (close : Char) :
    Advances (itemsTurn (readForm turns) (turns + 1) close) := by
  intro items reader next later read
  have settles := settlesAt_itemsTurn 1 close reader items
    fun later _ => settlesAt_readForm later
  obtain ⟨item, -, sized⟩ := (settles.takes turns _ later read).2
  have some := item.length_nodes_pos
  unfold Sized at sized
  omega

theorem advances_formsTurn (turns : Nat) : Advances (formsTurn turns) := by
  intro forms reader next later read
  obtain ⟨form, -, sized⟩ :=
    ((settlesAt_formsTurn reader forms).takes turns _ later read).2
  have some := form.length_nodes_pos
  unfold Sized at sized
  omega

/-- A form takes at least one byte for each of its nodes, and none past the
end. -/
theorem readForm_advances {turns : Nat} {form : Form}
    (read : readForm turns reader = some (.ok (form, later))) :
    later.source = reader.source ∧ reader.offset < later.offset ∧
      later.offset ≤ reader.source.length ∧
      form.nodes.length ≤ later.offset - reader.offset := by
  obtain ⟨passes, sized⟩ :=
    (settlesAt_readForm reader).takes turns form later read
  have some := form.length_nodes_pos
  unfold Sized at sized
  have moved : reader.offset < later.offset := by omega
  have within := passes.within moved
  rw [passes.source] at within
  exact ⟨passes.source, moved, within, by omega⟩

/-- No text has more nodes than bytes. -/
theorem nodes_le_of_outcome {reading : Reading Result} {text : String}
    {result : Result} {size : Nat}
    (takes : ∀ later, reading (ofText text) = some (.ok (result, later)) →
      (ofText text).Passes later ∧ size ≤ later.offset)
    (read : outcome reading text = some (.ok result)) :
    size ≤ text.utf8ByteSize := by
  obtain ⟨found, ran, same⟩ := Option.map_eq_some_iff.mp read
  rcases found with error | ⟨result', later⟩
  · cases same
  · cases same
    obtain ⟨passes, sized⟩ := takes later ran
    have taken := passes.taken_le
    rw [← length_bytes_of_text]
    unfold left at taken
    exact sized.trans taken

end ByteReader

/-- The reader makes progress on every input.  Wherever it stands, a form takes
a byte for each of its nodes and none past the end, and every turn that does not
leave its loop takes one.  So every form, and every text, has an outcome that
more turns than bytes are left are enough for: the forms of the text, or its
fault.  No text has more nodes than bytes. -/
theorem reader_progresses :
    (∀ (turns : Nat) (reader later : ByteReader) (form : Form),
      ByteReader.readForm turns reader = some (.ok (form, later)) →
      later.source = reader.source ∧ reader.offset < later.offset ∧
        later.offset ≤ reader.source.length ∧
        form.nodes.length ≤ later.offset - reader.offset) ∧
    (∀ turns, ByteReader.Advances (ByteReader.formsTurn turns)) ∧
    (∀ turns close, ByteReader.Advances
      (ByteReader.itemsTurn (ByteReader.readForm turns) (turns + 1) close)) ∧
    (∀ turns, ByteReader.Advances (ByteReader.skipTurn turns)) ∧
    ByteReader.Advances ByteReader.commentTurn ∧
    ByteReader.Advances ByteReader.wordTurn ∧
    ByteReader.Advances ByteReader.stringTurn ∧
    ByteReader.Advances ByteReader.numberTurn ∧
    (∀ reader : ByteReader, ∃ outcome, ∀ turns, reader.left < turns →
      ByteReader.readForm turns reader = some outcome) ∧
    (∀ (text : String) (turns : Nat), text.utf8ByteSize < turns →
      ByteReader.outcome (ByteReader.readAll turns) text =
          some (readForms text) ∧
        ByteReader.outcome (ByteReader.readFirst turns) text =
          some (readForm text)) ∧
    (∀ (text : String) (forms : List Form), readForms text = .ok forms →
      (Tree.nodesList forms).length ≤ text.utf8ByteSize) ∧
    ∀ (text : String) (form : Form), readForm text = .ok form →
      form.nodes.length ≤ text.utf8ByteSize := by
  refine ⟨fun _ _ _ _ => ByteReader.readForm_advances,
    ByteReader.advances_formsTurn, ByteReader.advances_itemsTurn,
    ByteReader.advances_skipTurn,
    ByteReader.advances_of_settles fun state reader =>
      ByteReader.settlesAt_commentTurn reader state,
    ByteReader.advances_of_settles fun state reader =>
      ByteReader.settlesAt_wordTurn reader state,
    ByteReader.advances_of_settles fun contents reader =>
      ByteReader.settlesAt_stringTurn reader contents,
    ByteReader.advances_of_settles fun isFloat reader =>
      ByteReader.settlesAt_numberTurn reader isFloat,
    fun reader => (ByteReader.settlesAt_readForm reader).settles,
    fun text turns enough => ⟨ByteReader.outcome_readAll text enough,
      ByteReader.outcome_readFirst text enough⟩,
    fun text forms read => ?_, fun text form read => ?_⟩
  · have enough := Nat.lt_succ_self text.utf8ByteSize
    refine ByteReader.nodes_le_of_outcome (fun later ran => ?_)
      ((ByteReader.outcome_readAll text enough).trans (congrArg some read))
    have taken := (ByteReader.settlesAt_readAll _).takes _ _ later ran
    rwa [show (ByteReader.ofText text).offset = 0 from rfl,
      Nat.zero_add] at taken
  · have enough := Nat.lt_succ_self text.utf8ByteSize
    refine ByteReader.nodes_le_of_outcome (fun later ran => ?_)
      ((ByteReader.outcome_readFirst text enough).trans (congrArg some read))
    have taken := (ByteReader.settlesAt_readFirst _).takes _ _ later ran
    rwa [ByteReader.Sized, show (ByteReader.ofText text).offset = 0 from rfl,
      Nat.zero_add] at taken

end FormCompiler
