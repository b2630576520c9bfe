import FormCompiler.Proofs.PrintedForms

/-!
# Forms in a text

Tokens stand in a text with nothing but blanks and comments between them.  A
form stands where its tokens do: an atom is one token, a group is what stands
between its brackets, and a tag is followed by its value.  `Laid` says this of
a list of forms, with the offsets of every node in the text.

Whatever is laid out in a text is read from it, however it is spaced.
-/

namespace FormCompiler

/-! ## Tokens -/

/-- The contents of a string, with any of its characters escaped. -/
inductive Spells : (contents written : List Char) → Prop where
  | nil : Spells [] []
  | plain {character : Char} {contents written : List Char}
      (notQuote : character ≠ '"') (notEscape : character ≠ '\\')
      (rest : Spells contents written) :
      Spells (character :: contents) (character :: written)
  | escaped {letter : Char} {contents written : List Char}
      (rest : Spells contents written) :
      Spells (unescapeChar letter :: contents) ('\\' :: letter :: written)

/-- A token is written as a text, given what comes after the text: no word may
run on. -/
inductive Token.WrittenAs : Token → (text after : List Char) → Prop where
  | opening (bracket : Bracket) (after : List Char) :
      WrittenAs (.opening bracket) bracket.openChars after
  | closing (bracket : Bracket) (after : List Char) :
      WrittenAs (.closing bracket.closeChar) [bracket.closeChar] after
  | tag {name : String} {after : List Char} (named : isName name = true)
      (delimited : Delimited after) :
      WrittenAs (.tag name) ('#' :: name.toList) after
  | string {contents written : List Char} (spells : Spells contents written)
      (after : List Char) :
      WrittenAs (.atom (.string (String.ofList contents)))
        ('"' :: (written ++ ['"'])) after
  | keyword {name : String} {after : List Char} (named : isName name = true)
      (delimited : Delimited after) :
      WrittenAs (.atom (.keyword name)) (':' :: name.toList) after
  | word {first : Char} {more after : List Char} {atom : Atom}
      (starts : (isSymbolStart first || first.isDigit) = true)
      (inside : more.all isWordChar = true)
      (read : wordAtom (first :: more) = .ok atom)
      (delimited : Delimited after) :
      WrittenAs (.atom atom) (first :: more) after

theorem Spells.stringContents?_eq {contents written : List Char}
    (spells : Spells contents written) (after : List Char) :
    stringContents? (written ++ '"' :: after) =
      some (contents, written.length + 1) := by
  induction spells with
  | nil => rfl
  | plain notQuote notEscape _ ih =>
      rw [List.cons_append, stringContents?, ih, Option.map_some]
      · rfl
      all_goals simp [notQuote, notEscape]
  | escaped _ ih =>
      rw [List.cons_append, List.cons_append, stringContents?, ih,
        Option.map_some]
      rfl

theorem spells_of_stringContents? {characters contents : List Char}
    {length : Nat} (read : stringContents? characters =
      some (contents, length)) :
    ∃ written, Spells contents written ∧ length = written.length + 1 ∧
      characters = written ++ '"' :: characters.drop length := by
  fun_induction stringContents? characters generalizing contents length with
  | case1 => simp at read
  | case2 after =>
      cases read
      exact ⟨[], .nil, rfl, rfl⟩
  | case3 => simp at read
  | case4 letter rest ih =>
      obtain ⟨⟨inner, innerLength⟩, found, same⟩ :=
        Option.map_eq_some_iff.mp read
      cases same
      obtain ⟨written, spells, rfl, whole⟩ := ih found
      exact ⟨'\\' :: letter :: written, .escaped spells, rfl,
        congrArg (fun rest => '\\' :: letter :: rest) whole⟩
  | case5 character rest notQuote _ notEscape ih =>
      obtain ⟨⟨inner, innerLength⟩, found, same⟩ :=
        Option.map_eq_some_iff.mp read
      cases same
      obtain ⟨written, spells, rfl, whole⟩ := ih found
      refine ⟨character :: written, .plain ?_ ?_ spells, rfl,
        congrArg (List.cons character) whole⟩
      · rintro rfl
        exact notQuote rfl
      · rintro rfl
        cases rest with
        | nil => simp [stringContents?] at found
        | cons letter rest => exact notEscape letter rest rfl rfl

theorem isWordChar_of_starts {first : Char}
    (starts : (isSymbolStart first || first.isDigit) = true) :
    isWordChar first = true := by
  rcases Bool.or_eq_true_iff.mp starts with symbol | digit
  · simp only [isSymbolStart, Bool.and_eq_true] at symbol
    exact symbol.1.1.1
  · exact isWordChar_of_isDigit digit

/-- What is written as a token is split off as that token. -/
theorem Token.WrittenAs.lexeme_eq {token : Token} {text after : List Char}
    (written : token.WrittenAs text after) :
    ∃ first more, text = first :: more ∧ isBlank first = false ∧
      first ≠ ';' ∧ lexeme first (more ++ after) = .ok ⟨token, more.length⟩ := by
  cases written with
  | opening bracket =>
      cases bracket <;>
        exact ⟨_, _, rfl, by decide, by decide, rfl⟩
  | closing bracket =>
      cases bracket <;>
        exact ⟨_, _, rfl, by decide, by decide, rfl⟩
  | tag named delimited =>
      exact ⟨_, _, rfl, by decide, by decide, lexeme_tag named delimited⟩
  | string spells =>
      refine ⟨_, _, rfl, by decide, by decide, ?_⟩
      unfold lexeme
      simp only [List.append_assoc, List.cons_append, List.nil_append,
        spells.stringContents?_eq, List.length_append, List.length_cons,
        List.length_nil]
  | keyword named delimited =>
      exact ⟨_, _, rfl, by decide, by decide, lexeme_keyword named delimited⟩
  | @word first _ _ _ starts inside read delimited =>
      obtain ⟨blank, comment⟩ :=
        not_skipped_of_isWordChar (isWordChar_of_starts starts)
      exact ⟨_, _, rfl, blank, comment,
        lexeme_word starts inside delimited read⟩

theorem delimited_dropWhile (characters : List Char) :
    Delimited (characters.dropWhile isWordChar) := by
  unfold Delimited
  induction characters with
  | nil => rfl
  | cons character characters ih =>
      rw [List.dropWhile_cons]
      split
      · exact ih
      · next outside => rw [List.takeWhile_cons, if_neg outside]

theorem take_length_takeWhile (keep : Char → Bool) (characters : List Char) :
    characters.take (characters.takeWhile keep).length =
        characters.takeWhile keep ∧
      characters.drop (characters.takeWhile keep).length =
        characters.dropWhile keep := by
  have taken : characters.take (characters.takeWhile keep).length =
      characters.takeWhile keep :=
    (List.prefix_iff_eq_take.mp (List.takeWhile_prefix keep)).symm
  have whole := List.take_append_drop
    (characters.takeWhile keep).length characters
  rw [taken] at whole
  exact ⟨taken, List.append_cancel_left
    (whole.trans List.takeWhile_append_dropWhile.symm)⟩

/-- A name after a mark is written in full. -/
theorem writtenAs_of_namedLexeme {make : String → Token} {mark : Char}
    {rest : List Char} {token : Token} {length : Nat}
    (written : ∀ name, isName name = true → ∀ after, Delimited after →
      (make name).WrittenAs (mark :: name.toList) after)
    (read : namedLexeme make rest = .ok ⟨token, length⟩) :
    token.WrittenAs (mark :: rest.take length) (rest.drop length) := by
  unfold namedLexeme at read
  simp only at read
  split at read
  · cases read
  · next notEmpty =>
      cases read
      obtain ⟨taken, dropped⟩ := take_length_takeWhile isWordChar rest
      rw [taken, dropped]
      have named : isName (String.ofList (rest.takeWhile isWordChar)) =
          true := by
        rw [isName, String.toList_ofList, List.all_takeWhile]
        simpa using notEmpty
      simpa using written _ named _ (delimited_dropWhile rest)

/-- What is split off as a token is written as that token. -/
theorem writtenAs_of_lexeme {first : Char} {rest : List Char} {token : Token}
    {length : Nat} (read : lexeme first rest = .ok ⟨token, length⟩) :
    token.WrittenAs (first :: rest.take length) (rest.drop length) := by
  unfold lexeme at read
  split at read
  case h_1 => cases read; exact .opening .list _
  case h_2 => cases read; exact .opening .vector _
  case h_3 => cases read; exact .opening .map _
  case h_4 => cases read; exact .closing .list _
  case h_5 => cases read; exact .closing .vector _
  case h_6 => cases read; exact .closing .map _
  case h_7 =>
      split at read
      · cases read
        exact .opening .set _
      · apply writtenAs_of_namedLexeme _ read
        intro name named after delimited
        exact .tag named delimited
  case h_8 =>
      apply writtenAs_of_namedLexeme _ read
      intro name named after delimited
      exact .keyword named delimited
  case h_9 =>
      split at read
      · next contents stringLength found =>
          cases read
          obtain ⟨written, spells, rfl, whole⟩ :=
            spells_of_stringContents? found
          have taken : rest.take (written.length + 1) = written ++ ['"'] := by
            conv_lhs => rw [whole, List.append_cons]
            exact List.take_left' (by simp)
          rw [taken]
          exact .string spells _
      · cases read
  case h_10 =>
      simp only at read
      split at read
      · next starts =>
          split at read <;> cases read
          next word =>
            rw [List.length_cons, Nat.add_sub_cancel]
            obtain ⟨taken, dropped⟩ := take_length_takeWhile isWordChar rest
            rw [taken, dropped]
            exact .word starts List.all_takeWhile word
              (delimited_dropWhile rest)
      · cases read

/-! ## Places in a text -/

/-- Nothing but blanks and comments stands between two places of a text.  A
comment ends ahead of a line end, or with the text. -/
inductive Skips (source : List Char) : (start stop : Nat) → Prop where
  | done (place : Nat) : Skips source place place
  | blank {start stop : Nat} {character : Char} {after : List Char}
      (found : source.drop start = character :: after)
      (skipped : isBlank character = true)
      (rest : Skips source (start + 1) stop) : Skips source start stop
  | comment {start stop : Nat} {text after : List Char}
      (found : source.drop start = ';' :: (text ++ after))
      (inside : '\n' ∉ text) (ends : ∀ next ∈ after.head?, next = '\n')
      (rest : Skips source (start + 1 + text.length) stop) :
      Skips source start stop

/-- A token stands between two places of a text. -/
def Stands (source : List Char) (token : Token) (start stop : Nat) : Prop :=
  ∃ text after, source.drop start = text ++ after ∧
    stop = start + text.length ∧ token.WrittenAs text after

/-- Forms stand one after the other between two places of a text, the last one
up to the second place.  Every node is marked with where it starts and
stops. -/
inductive Laid {Note : Type} (source : List Char)
    (marked : Tree Note → (start stop : Nat) → Prop) :
    (start : Nat) → List (Tree Note) → (stop : Nat) → Prop where
  | nil (place : Nat) : Laid source marked place [] place
  | atom {note : Note} {value : Atom} {items : List (Tree Note)}
      {start first last stop : Nat}
      (skips : Skips source start first)
      (stands : Stands source (.atom value) first last)
      (mark : marked (.atom note value) first last)
      (rest : Laid source marked last items stop) :
      Laid source marked start (.atom note value :: items) stop
  | group {note : Note} {bracket : Bracket} {inner items : List (Tree Note)}
      {start first inside ending closing last stop : Nat}
      (skips : Skips source start first)
      (opens : Stands source (.opening bracket) first inside)
      (contents : Laid source marked inside inner ending)
      (further : Skips source ending closing)
      (closes : Stands source (.closing bracket.closeChar) closing last)
      (paired : bracket = .map → inner.length % 2 = 0)
      (mark : marked (.group note bracket inner) first last)
      (rest : Laid source marked last items stop) :
      Laid source marked start (.group note bracket inner :: items) stop
  | tagged {note : Note} {tag : String} {value : Tree Note}
      {items : List (Tree Note)} {start first inside last stop : Nat}
      (skips : Skips source start first)
      (marker : Stands source (.tag tag) first inside)
      (contents : Laid source marked inside [value] last)
      (mark : marked (.tagged note tag value) first last)
      (rest : Laid source marked last items stop) :
      Laid source marked start (.tagged note tag value :: items) stop

/-- Nothing is asked of where nodes stand. -/
abbrev Anywhere {Note : Type} (_ : Tree Note) (_ _ : Nat) : Prop :=
  True

theorem drop_of_drop_eq_append {source after : List Char} {start : Nat}
    (text : List Char) (found : source.drop start = text ++ after) :
    source.drop (start + text.length) = after := by
  rw [← List.drop_drop, found, List.drop_left]

theorem Stands.drop_eq {source : List Char} {token : Token}
    {start stop : Nat} (stands : Stands source token start stop) :
    ∃ text, source.drop start = text ++ source.drop stop ∧
      stop = start + text.length ∧
      token.WrittenAs text (source.drop stop) := by
  obtain ⟨text, after, found, rfl, written⟩ := stands
  rw [drop_of_drop_eq_append text found]
  exact ⟨text, found, rfl, written⟩

theorem Skips.trans {source : List Char} {start middle stop : Nat}
    (first : Skips source start middle) (second : Skips source middle stop) :
    Skips source start stop := by
  induction first with
  | done => exact second
  | blank found skipped _ ih => exact .blank found skipped (ih second)
  | comment found inside ends _ ih =>
      exact .comment found inside ends (ih second)

namespace Laid

variable {Note : Type} {source : List Char}
  {marked : Tree Note → (start stop : Nat) → Prop}

theorem skip {before start stop : Nat} {item : Tree Note}
    {items : List (Tree Note)} (skips : Skips source before start)
    (laid : Laid source marked start (item :: items) stop) :
    Laid source marked before (item :: items) stop := by
  cases laid with
  | atom more stands mark rest =>
      exact .atom (skips.trans more) stands mark rest
  | group more opens contents further closes paired mark rest =>
      exact .group (skips.trans more) opens contents further closes paired
        mark rest
  | tagged more marker contents mark rest =>
      exact .tagged (skips.trans more) marker contents mark rest

theorem append {start middle stop : Nat} {items others : List (Tree Note)}
    (first : Laid source marked start items middle)
    (second : Laid source marked middle others stop) :
    Laid source marked start (items ++ others) stop := by
  induction first with
  | nil => exact second
  | atom skips stands mark _ ih => exact .atom skips stands mark (ih second)
  | group skips opens contents further closes paired mark _ _ ih =>
      exact .group skips opens contents further closes paired mark (ih second)
  | tagged skips marker contents mark _ _ ih =>
      exact .tagged skips marker contents mark (ih second)

/-- Marks may say less. -/
theorem imp {weaker : Tree Note → (start stop : Nat) → Prop}
    (implies : ∀ tree start stop, marked tree start stop →
      weaker tree start stop)
    {start stop : Nat} {items : List (Tree Note)}
    (laid : Laid source marked start items stop) :
    Laid source weaker start items stop := by
  induction laid with
  | nil place => exact .nil place
  | atom skips stands mark _ ih =>
      exact .atom skips stands (implies _ _ _ mark) ih
  | group skips opens _ further closes paired mark _ contents ih =>
      exact .group skips opens contents further closes paired
        (implies _ _ _ mark) ih
  | tagged skips marker _ mark _ contents ih =>
      exact .tagged skips marker contents (implies _ _ _ mark) ih

end Laid

/-! ## Reading on -/

/-- Reads the rest of a text, which starts at `position`. -/
def readOn (state : ReadState) (position : Position)
    (characters : List Char) : Except ReadError (List Form) :=
  match readTokens state (scanFrom position characters).tokens with
  | .error error => .error error
  | .ok state => state.finish (scanFrom position characters).ending

theorem readForms_eq_readOn (source : String) :
    readForms source = readOn .initial .origin source.toList := rfl

theorem readOn_nil (state : ReadState) (position : Position) :
    readOn state position [] = state.finish (.ok position) := by
  rw [readOn, scanFrom]
  rfl

theorem readOn_blank (state : ReadState) (position : Position)
    {character : Char} (rest : List Char)
    (skipped : isBlank character = true) :
    readOn state position (character :: rest) =
      readOn state (position.after character) rest := by
  rw [readOn, scanFrom, if_pos skipped]
  rfl

theorem readOn_comment (state : ReadState) (position : Position)
    (rest : List Char) :
    readOn state position (';' :: rest) =
      readOn state
        ((position.after ';').advance (rest.takeWhile (· ≠ '\n')))
        (rest.drop (rest.takeWhile (· ≠ '\n')).length) := by
  rw [readOn, scanFrom, if_neg (by decide), if_pos rfl]
  rfl

theorem readOn_fault (state : ReadState) (position : Position) {first : Char}
    {rest : List Char} {fault : LexicalFault}
    (notBlank : isBlank first = false) (notComment : first ≠ ';')
    (read : lexeme first rest = .error fault) :
    readOn state position (first :: rest) =
      .error ⟨fault.fault,
        position.advance ((first :: rest).take fault.offset)⟩ := by
  rw [readOn, scanFrom, if_neg (by simp [notBlank]), if_neg notComment, read]
  rfl

/-- The state takes a token, and reading goes on behind it. -/
theorem readOn_token (state : ReadState) (position : Position)
    {token : Token} {text after : List Char}
    (written : token.WrittenAs text after) :
    readOn state position (text ++ after) =
      match state.step ⟨token, position, lastPosition position text⟩ with
      | .error error => .error error
      | .ok state => readOn state (position.advance text) after := by
  obtain ⟨first, more, rfl, notBlank, notComment, read⟩ := written.lexeme_eq
  rw [List.cons_append, readOn, scanFrom, if_neg (by simp [notBlank]),
    if_neg notComment, read]
  simp only [List.take_left, List.drop_left, readTokens]
  cases state.step
    ⟨token, position, lastPosition position (first :: more)⟩ <;> rfl

theorem takeWhile_comment {text after : List Char} (inside : '\n' ∉ text)
    (ends : ∀ next ∈ after.head?, next = '\n') :
    (text ++ after).takeWhile (· ≠ '\n') = text := by
  have all : ∀ character ∈ text, decide (character ≠ '\n') = true := by
    intro character member
    exact decide_eq_true fun same => inside (same ▸ member)
  rw [List.takeWhile_append_of_pos all]
  cases after with
  | nil => rw [List.takeWhile_nil, List.append_nil]
  | cons next after =>
      rw [ends next rfl, List.takeWhile_cons_of_neg (by simp),
        List.append_nil]

/-- Blanks and comments are passed over. -/
theorem Skips.readOn {source : List Char} {start stop : Nat}
    (skips : Skips source start stop) (position : Position) :
    ∃ later, ∀ state, readOn state position (source.drop start) =
      readOn state later (source.drop stop) := by
  induction skips generalizing position with
  | done => exact ⟨position, fun _ => rfl⟩
  | @blank start _ character after found skipped _ ih =>
      have behind : source.drop (start + 1) = after :=
        drop_of_drop_eq_append [character] found
      obtain ⟨later, run⟩ := ih (position.after character)
      refine ⟨later, fun state => ?_⟩
      rw [found, readOn_blank state position after skipped, ← behind, run]
  | @comment start _ text after found inside ends _ ih =>
      have behind : source.drop (start + 1 + text.length) = after := by
        rw [Nat.add_assoc, Nat.add_comm 1]
        exact drop_of_drop_eq_append (';' :: text) found
      obtain ⟨later, run⟩ := ih ((position.after ';').advance text)
      refine ⟨later, fun state => ?_⟩
      rw [found, readOn_comment, takeWhile_comment inside ends,
        List.drop_left, ← behind, run]

/-! ## Reading what is laid out -/

namespace ReadState

/-- Delivers forms one after the other, with the positions of their ends. -/
def deliverAll (state : ReadState) : List (Form × Position) → ReadState
  | [] => state
  | (form, last) :: read =>
      deliverAll (deliver form last state.reversedForms state.frames) read

/-- An open bracket takes all forms. -/
theorem deliverAll_group (read : List (Form × Position)) (bracket : Bracket)
    (start : Position) (items : List Form) (frames : List Frame)
    (reversedForms : List Form) :
    deliverAll ⟨.group bracket start items :: frames, reversedForms⟩ read =
      ⟨.group bracket start ((read.map Prod.fst).reverse ++ items) :: frames,
        reversedForms⟩ := by
  induction read generalizing items with
  | nil => rfl
  | cons next read ih =>
      rw [deliverAll, deliver, ih, List.map_cons, List.reverse_cons,
        List.append_assoc]
      rfl

theorem deliverAll_top (read : List (Form × Position))
    (reversedForms : List Form) :
    deliverAll ⟨[], reversedForms⟩ read =
      ⟨[], (read.map Prod.fst).reverse ++ reversedForms⟩ := by
  induction read generalizing reversedForms with
  | nil => rfl
  | cons next read ih =>
      rw [deliverAll, deliver, ih, List.map_cons, List.reverse_cons,
        List.append_assoc]
      rfl

end ReadState

/-- The state takes the token, and reading goes on behind it. -/
theorem Stands.readOn {source : List Char} {token : Token}
    {start stop : Nat} (stands : Stands source token start stop)
    (position : Position) :
    ∃ span later, ∀ state,
      readOn state position (source.drop start) =
        match ReadState.step state ⟨token, span⟩ with
        | .error error => .error error
        | .ok state => readOn state later (source.drop stop) := by
  obtain ⟨text, found, -, written⟩ := stands.drop_eq
  refine ⟨⟨position, lastPosition position text⟩, position.advance text, ?_⟩
  intro state
  rw [found]
  exact readOn_token state position written

/-- Forms that are laid out are delivered one after the other, whatever is open
around them. -/
theorem Laid.readOn {Note : Type} {source : List Char}
    {marked : Tree Note → (start stop : Nat) → Prop} {start stop : Nat}
    {trees : List (Tree Note)} (laid : Laid source marked start trees stop)
    (position : Position) :
    ∃ (read : List (Form × Position)) (later : Position),
      read.map (Tree.datum ∘ Prod.fst) = trees.map Tree.datum ∧
      ∀ state, readOn state position (source.drop start) =
        readOn (state.deliverAll read) later (source.drop stop) := by
  induction laid generalizing position with
  | nil => exact ⟨[], position, rfl, fun _ => rfl⟩
  | @atom note value items _ _ _ _ skips stands _ _ ih =>
      obtain ⟨there, skipped⟩ := skips.readOn position
      obtain ⟨span, behind, taken⟩ := stands.readOn there
      obtain ⟨read, later, data, run⟩ := ih behind
      refine ⟨(.atom (.ofSpan span) value, span.last) :: read, later, ?_, ?_⟩
      · rw [List.map_cons, List.map_cons, data]
        rfl
      · intro state
        rw [skipped, taken]
        exact run _
  | @group note bracket inner items _ _ _ _ _ _ _ skips opens _ further
      closes paired _ _ contentsIh ih =>
      obtain ⟨there, skipped⟩ := skips.readOn position
      obtain ⟨opening, inside, opened⟩ := opens.readOn there
      obtain ⟨innerRead, ending, innerData, innerRun⟩ := contentsIh inside
      obtain ⟨closingPlace, passed⟩ := further.readOn ending
      obtain ⟨closing, behind, closed⟩ := closes.readOn closingPlace
      obtain ⟨read, later, data, run⟩ := ih behind
      have forms : (innerRead.map Prod.fst).map Tree.datum =
          inner.map Tree.datum := by
        rw [List.map_map, innerData]
      have length : (innerRead.map Prod.fst).length = inner.length := by
        simpa using congrArg List.length forms
      refine ⟨(.group (.ofSpan ⟨opening.start, closing.last⟩) bracket
        (innerRead.map Prod.fst), closing.last) :: read, later, ?_, ?_⟩
      · rw [List.map_cons, List.map_cons, data, Function.comp_apply,
          datum_group, datum_group, forms]
      · intro state
        rw [skipped, opened]
        simp only [ReadState.step]
        rw [innerRun, passed, ReadState.deliverAll_group, List.append_nil,
          closed]
        have even : ¬(bracket = .map ∧
            (innerRead.map Prod.fst).reverse.length % 2 ≠ 0) := by
          rw [List.length_reverse, length]
          exact fun both => both.2 (paired both.1)
        simp only [ReadState.step, ReadState.close, ne_eq,
          not_true_eq_false, if_false]
        rw [if_neg even, List.reverse_reverse]
        exact run _
  | @tagged note tag value items _ _ _ _ _ skips marker _ _ _ contentsIh ih =>
      obtain ⟨there, skipped⟩ := skips.readOn position
      obtain ⟨span, inside, marked⟩ := marker.readOn there
      obtain ⟨innerRead, ending, innerData, innerRun⟩ := contentsIh inside
      obtain ⟨read, later, data, run⟩ := ih ending
      obtain ⟨⟨form, last⟩, rfl, datum⟩ :=
        List.map_eq_singleton_iff.mp innerData
      refine ⟨(.tagged (.ofSpan ⟨span.start, last⟩) tag form, last) :: read,
        later, ?_, ?_⟩
      · rw [List.map_cons, List.map_cons, data]
        exact congrArg (Tree.tagged () tag · :: _) datum
      · intro state
        rw [skipped, marked]
        simp only [ReadState.step]
        rw [innerRun]
        exact run _

/-- A text in which forms are laid out from one end to the other is read as
these forms. -/
theorem readForms_of_laid {Note : Type} {source : String}
    {marked : Tree Note → (start stop : Nat) → Prop} {stop : Nat}
    {trees : List (Tree Note)}
    (laid : Laid source.toList marked 0 trees stop)
    (skips : Skips source.toList stop source.toList.length) :
    ∃ forms, readForms source = .ok forms ∧
      forms.map Tree.datum = trees.map Tree.datum := by
  obtain ⟨read, later, data, run⟩ := laid.readOn .origin
  obtain ⟨ending, passed⟩ := skips.readOn later
  refine ⟨read.map Prod.fst, ?_, by rw [List.map_map, data]⟩
  rw [readForms_eq_readOn, ← source.toList.drop_zero, run, passed,
    List.drop_length, readOn_nil, ReadState.initial, ReadState.deliverAll_top,
    List.append_nil]
  simp [ReadState.finish]

end FormCompiler
