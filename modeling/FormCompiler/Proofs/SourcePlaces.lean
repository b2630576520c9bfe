import FormCompiler.Proofs.WrittenText

/-!
# Places of forms in their source

A reader keeps what is open in step with the text: a bracket or a tag that is
open started where its frame says, and the forms inside stand behind it.  So
when a text is read, its forms are laid out in it, and every form is noted with
the places of its first and of its last character.  When a text is not read,
the place of the fault is where the fault shows.

The place of a character leads back to its offset.
-/

namespace FormCompiler

/-! ## Places and offsets -/

/-- The position of a character of a text. -/
def place (source : List Char) (offset : Nat) : Position :=
  Position.origin.advance (source.take offset)

/-- The position that is recorded for the end of a token. -/
def endPlace (source : List Char) (offset : Nat) : Position :=
  lastPosition .origin (source.take offset)

theorem take_add_of_drop_eq_append {source text after : List Char}
    {start : Nat} (found : source.drop start = text ++ after) :
    source.take (start + text.length) = source.take start ++ text := by
  rw [List.take_add, found, List.take_left]

theorem place_add {source text after : List Char} {start : Nat}
    (found : source.drop start = text ++ after) :
    place source (start + text.length) = (place source start).advance text := by
  rw [place, take_add_of_drop_eq_append found, Position.advance_append]
  rfl

/-- The end of a token is recorded in the same way for the token and for the
text up to it. -/
theorem endPlace_add {source text after : List Char} {start : Nat}
    (found : source.drop start = text ++ after) (some : text ≠ []) :
    endPlace source (start + text.length) =
      lastPosition (place source start) text := by
  have last : (source.take start ++ text).getLast? = text.getLast? := by
    rw [List.getLast?_append]
    cases text with
    | nil => exact absurd rfl some
    | cons character text => simp [List.getLast?_cons]
  unfold endPlace lastPosition
  rw [take_add_of_drop_eq_append found, last,
    List.dropLast_append_of_ne_nil some, Position.advance_append]
  rw [List.getLast?_eq_some_getLast some]
  rfl

theorem sourceLines_line {line rest : List Char} (inside : '\n' ∉ line) :
    sourceLines (line ++ '\n' :: rest) =
      (line ++ ['\n']) :: sourceLines rest := by
  induction line with
  | nil => rfl
  | cons character line ih =>
      rw [List.mem_cons, not_or] at inside
      rw [List.cons_append, sourceLines, if_neg (Ne.symm inside.1),
        ih inside.2]
      rfl

/-- A line that is not ended goes on with what follows. -/
theorem sourceLines_append {line rest : List Char} (inside : '\n' ∉ line)
    (some : line ++ rest ≠ []) :
    ∃ more lines, sourceLines (line ++ rest) = (line ++ more) :: lines := by
  induction line with
  | nil =>
      cases rest with
      | nil => exact absurd rfl some
      | cons character rest =>
          rw [List.nil_append, sourceLines]
          by_cases lineEnd : character = '\n'
          · rw [if_pos lineEnd]
            exact ⟨_, _, rfl⟩
          · rw [if_neg lineEnd]
            split <;> exact ⟨_, _, rfl⟩
  | cons character line ih =>
      rw [List.mem_cons, not_or] at inside
      rw [List.cons_append, sourceLines, if_neg (Ne.symm inside.1)]
      by_cases empty : line ++ rest = []
      · rw [empty]
        obtain ⟨rfl, -⟩ := List.append_eq_nil_iff.mp empty
        exact ⟨[], [], rfl⟩
      · obtain ⟨more, lines, found⟩ := ih inside.2 empty
        rw [found]
        exact ⟨more, lines, rfl⟩

theorem advance_of_notMem {line : List Char} (inside : '\n' ∉ line)
    (position : Position) :
    position.advance line =
      ⟨position.line, position.column + line.length⟩ := by
  induction line generalizing position with
  | nil => rfl
  | cons character line ih =>
      rw [List.mem_cons, not_or] at inside
      rw [Position.advance_cons, ih inside.2, Position.after,
        if_neg (Ne.symm inside.1), List.length_cons]
      exact congrArg (Position.mk _) (Nat.add_right_comm _ _ _)

theorem line_le_advance (position : Position) (characters : List Char) :
    position.line ≤ (position.advance characters).line := by
  induction characters generalizing position with
  | nil => exact Nat.le_refl _
  | cons character characters ih =>
      rw [Position.advance_cons]
      refine Nat.le_trans ?_ (ih _)
      rw [Position.after]
      split
      · exact Nat.le_succ _
      · exact Nat.le_refl _

/-- A text is one unended line, or starts with a line. -/
theorem exists_line (characters : List Char) :
    '\n' ∉ characters ∨ ∃ line rest, '\n' ∉ line ∧
      characters = line ++ '\n' :: rest := by
  by_cases inside : '\n' ∈ characters
  · right
    obtain ⟨line, rest, same, first⟩ := List.eq_append_cons_of_mem inside
    exact ⟨line, rest, first, same⟩
  · exact .inl inside

/-- The position behind the beginning of a text has the offset of its end. -/
theorem offsetInLines_advance (before after : List Char) (number : Nat) :
    offsetInLines ((Position.mk number 1).advance before) number
      (sourceLines (before ++ after)) = before.length := by
  induction length : before.length using Nat.strong_induction_on
    generalizing before number with
  | _ length' ih =>
      subst length
      rcases exists_line before with unended | ⟨line, rest, inside, rfl⟩
      · rw [advance_of_notMem unended]
        by_cases empty : before ++ after = []
        · obtain ⟨rfl, rfl⟩ := List.append_eq_nil_iff.mp empty
          rfl
        · obtain ⟨more, lines, found⟩ := sourceLines_append unended empty
          rw [found, offsetInLines, if_pos rfl]
          simp
      · have shorter : rest.length < (line ++ '\n' :: rest).length := by
          simp only [List.length_append, List.length_cons]
          omega
        have next := ih rest.length shorter rest (number + 1) rfl
        have later : ¬number =
            ((Position.mk (number + 1) 1).advance rest).line := by
          have := line_le_advance (Position.mk (number + 1) 1) rest
          simp only at this
          omega
        rw [Position.advance_append, Position.advance_cons,
          advance_of_notMem inside, Position.after, if_pos rfl,
          List.append_assoc, List.cons_append, sourceLines_line inside,
          offsetInLines, if_neg later, next]
        simp only [List.length_append, List.length_cons, List.length_nil]
        omega

/-- A place leads back to its offset. -/
theorem charOffset_place {source : String} {offset : Nat}
    (within : offset ≤ source.toList.length) :
    charOffset source (place source.toList offset) = offset := by
  have whole := offsetInLines_advance (source.toList.take offset)
    (source.toList.drop offset) 1
  rw [List.take_append_drop, List.length_take_of_le within] at whole
  exact whole

/-! ## Extents -/

theorem Token.WrittenAs.ne_nil {token : Token} {text after : List Char}
    (written : token.WrittenAs text after) : text ≠ [] := by
  obtain ⟨first, more, rfl, -⟩ := written.lexeme_eq
  exact List.cons_ne_nil first more

theorem length_of_drop_eq_append {source text after : List Char}
    {start : Nat} (found : source.drop start = text ++ after)
    (some : text ≠ []) : start + text.length ≤ source.length := by
  have length := congrArg List.length found
  have positive := List.length_pos_of_ne_nil some
  rw [List.length_drop, List.length_append] at length
  omega

theorem Stands.extent {source : List Char} {token : Token}
    {start stop : Nat} (stands : Stands source token start stop) :
    start < stop ∧ stop ≤ source.length := by
  obtain ⟨text, after, found, rfl, written⟩ := stands
  have positive := List.length_pos_of_ne_nil written.ne_nil
  exact ⟨by omega, length_of_drop_eq_append found written.ne_nil⟩

theorem Skips.extent {source : List Char} {start stop : Nat}
    (skips : Skips source start stop) :
    start ≤ stop ∧ (start ≤ source.length → stop ≤ source.length) := by
  induction skips with
  | done => exact ⟨Nat.le_refl _, id⟩
  | @blank start _ character after found _ _ ih =>
      have within := length_of_drop_eq_append
        (show source.drop start = [character] ++ after from found) (by simp)
      exact ⟨(Nat.le_succ _).trans ih.1, fun _ => ih.2 within⟩
  | @comment start _ text after found _ _ _ ih =>
      have within := length_of_drop_eq_append
        (show source.drop start = (';' :: text) ++ after from found) (by simp)
      rw [List.length_cons] at within
      exact ⟨by omega, fun _ => ih.2 (by omega)⟩

section

variable {Note : Type} {source : List Char}
  {marked : Tree Note → (start stop : Nat) → Prop}

theorem Laid.extent {start stop : Nat} {items : List (Tree Note)}
    (laid : Laid source marked start items stop) :
    start ≤ stop ∧ (start ≤ source.length → stop ≤ source.length) := by
  induction laid with
  | nil => exact ⟨Nat.le_refl _, id⟩
  | atom skips stands _ _ ih =>
      have after := stands.extent
      have before := skips.extent
      exact ⟨by omega, fun _ => ih.2 after.2⟩
  | group skips opens _ further closes _ _ _ contents ih =>
      have before := skips.extent
      have opening := opens.extent
      have gap := further.extent
      have closing := closes.extent
      exact ⟨by omega, fun _ => ih.2 closing.2⟩
  | tagged skips marker _ _ _ contents ih =>
      have before := skips.extent
      have tag := marker.extent
      exact ⟨by omega, fun _ => ih.2 (contents.2 tag.2)⟩

end

/-! ## What is open -/

/-- The note of a form says where it starts and ends. -/
def Noted (source : List Char) (form : Form) (start stop : Nat) : Prop :=
  form.note = .ofSpan ⟨place source start, endPlace source stop⟩

/-- What is open, and the forms that were read, make up a text up to an
offset. -/
inductive Pending (source : List Char) :
    List Frame → (reversedForms : List Form) → (offset : Nat) → Prop where
  | top {forms : List Form} {stop offset : Nat}
      (laid : Laid source (Noted source) 0 forms stop)
      (skips : Skips source stop offset) :
      Pending source [] forms.reverse offset
  | group {frames : List Frame} {reversedForms items : List Form}
      {bracket : Bracket} {start inside stop offset : Nat}
      (outer : Pending source frames reversedForms start)
      (opens : Stands source (.opening bracket) start inside)
      (laid : Laid source (Noted source) inside items stop)
      (skips : Skips source stop offset) :
      Pending source
        (.group bracket (place source start) items.reverse :: frames)
        reversedForms offset
  | tag {frames : List Frame} {reversedForms : List Form} {name : String}
      {start inside offset : Nat}
      (outer : Pending source frames reversedForms start)
      (marker : Stands source (.tag name) start inside)
      (skips : Skips source inside offset) :
      Pending source (.tag name (place source start) :: frames)
        reversedForms offset

theorem Pending.skip {source : List Char} {frames : List Frame}
    {reversedForms : List Form} {offset later : Nat}
    (pending : Pending source frames reversedForms offset)
    (skips : Skips source offset later) :
    Pending source frames reversedForms later := by
  cases pending with
  | top laid before => exact .top laid (before.trans skips)
  | group outer opens laid before =>
      exact .group outer opens laid (before.trans skips)
  | tag outer marker before => exact .tag outer marker (before.trans skips)

/-- A form that stands next goes to what is open, with the tags that wait for
it. -/
theorem Pending.deliver {source : List Char} {frames : List Frame}
    {reversedForms : List Form} {form : Form} {start stop : Nat}
    (pending : Pending source frames reversedForms start)
    (laid : Laid source (Noted source) start [form] stop) :
    let state := ReadState.deliver form (endPlace source stop) reversedForms
      frames
    Pending source state.frames state.reversedForms stop := by
  induction frames generalizing form start with
  | nil =>
      cases pending with
      | top before skips =>
          have whole := before.append (laid.skip skips)
          have pending := Pending.top whole (.done stop)
          rwa [List.reverse_append] at pending
  | cons frame frames ih =>
      cases pending with
      | group outer opens before skips =>
          have whole := before.append (laid.skip skips)
          have pending := Pending.group outer opens whole (.done stop)
          rwa [List.reverse_append] at pending
      | tag outer marker skips =>
          exact ih outer (.tagged (.done _) marker (laid.skip skips) rfl
            (.nil stop))

/-! ## Faults -/

/-- A map with a key that has no value starts at an offset. -/
def OddMap (source : List Char) (offset : Nat) : Prop :=
  ∃ inside items ending closing last,
    Stands source (.opening .map) offset inside ∧
      Laid source (Noted source) inside items ending ∧
      Skips source ending closing ∧
      Stands source (.closing Bracket.map.closeChar) closing last ∧
      items.length % 2 = 1

/-- A fault shows at an offset of a text. -/
def ShowsAt (source : List Char) : ReadFault → (offset : Nat) → Prop
  | .unexpectedEnd, offset => offset = source.length
  | .unexpectedChar character, offset => source[offset]? = some character
  | .unmatchedClose character, offset => source[offset]? = some character
  | .oddMapEntries, offset =>
      source[offset]? = some '\x7b' ∧ OddMap source offset
  | .invalidNumber text, offset =>
      ∃ after, source.drop offset = text.toList ++ after ∧ Delimited after
  | .empty, _ => False

/-- What reading comes to: forms that are laid out in the text, or a fault that
shows where it is located. -/
def Explains (source : List Char) : Except ReadError (List Form) → Prop
  | .ok forms => ∃ stop, Laid source (Noted source) 0 forms stop ∧
      Skips source stop source.length
  | .error error => ∃ offset, offset ≤ source.length ∧
      error.position = place source offset ∧
      ShowsAt source error.fault offset

theorem getElem?_of_drop_eq_cons {source rest : List Char} {start : Nat}
    {character : Char} (found : source.drop start = character :: rest) :
    source[start]? = some character := by
  rw [← List.head?_drop, found, List.head?_cons]

theorem unexpectedAt_shows {source rest : List Char} {start : Nat}
    {fault : LexicalFault} (found : source.drop (start + 1) = rest)
    (some : start < source.length)
    (same : unexpectedAt 1 rest = fault) :
    start + fault.offset ≤ source.length ∧
      ShowsAt source fault.fault (start + fault.offset) := by
  cases rest with
  | nil =>
      have ends := List.drop_eq_nil_iff.mp found
      subst same
      exact ⟨some, Nat.le_antisymm some ends⟩
  | cons character rest =>
      subst same
      exact ⟨some, getElem?_of_drop_eq_cons found⟩

/-- A fault ahead of a token shows where it is located. -/
theorem shows_of_lexeme {source rest : List Char} {start : Nat} {first : Char}
    {fault : LexicalFault} (found : source.drop start = first :: rest)
    (read : lexeme first rest = .error fault) :
    start + fault.offset ≤ source.length ∧
      ShowsAt source fault.fault (start + fault.offset) := by
  have some : start < source.length := by
    have within := length_of_drop_eq_append
      (show source.drop start = [first] ++ rest from found) (by simp)
    exact within
  have behind : source.drop (start + 1) = rest :=
    drop_of_drop_eq_append [first] found
  unfold lexeme at read
  split at read
  case h_7 =>
      split at read
      · cases read
      · unfold namedLexeme at read
        simp only at read
        split at read <;> cases read
        exact unexpectedAt_shows behind some rfl
  case h_8 =>
      unfold namedLexeme at read
      simp only at read
      split at read <;> cases read
      exact unexpectedAt_shows behind some rfl
  case h_9 =>
      split at read <;> cases read
      have length := congrArg List.length behind
      rw [List.length_drop] at length
      have stop : start + (rest.length + 1) = source.length := by omega
      exact ⟨stop.le, stop⟩
  case h_10 =>
      simp only at read
      split at read
      · split at read
        · cases read
        · next notAtom =>
            cases read
            refine ⟨some.le, ?_⟩
            unfold wordAtom at notAtom
            split at notAtom
            · split at notAtom <;> cases notAtom
              refine ⟨rest.dropWhile isWordChar, ?_, delimited_dropWhile rest⟩
              rw [String.toList_ofList, List.cons_append,
                List.takeWhile_append_dropWhile]
              exact found
            · split at notAtom <;> cases notAtom
      · cases read
        exact ⟨some.le, getElem?_of_drop_eq_cons found⟩
  all_goals cases read

theorem explains_fault {source : List Char} {fault : ReadFault}
    {offset : Nat} (within : offset ≤ source.length)
    (shows : ShowsAt source fault offset) :
    Explains source (.error ⟨fault, place source offset⟩) :=
  ⟨offset, within, rfl, shows⟩

/-! ## Reading on -/

/-- A closing bracket closes what is open, or shows a fault. -/
theorem Pending.close {source : List Char} {state : ReadState}
    {character : Char} {start stop : Nat}
    (pending : Pending source state.frames state.reversedForms start)
    (closes : Stands source (.closing character) start stop) :
    match state.close character ⟨place source start, endPlace source stop⟩ with
    | .error error => Explains source (.error error)
    | .ok next => Pending source next.frames next.reversedForms stop := by
  have within : start ≤ source.length :=
    closes.extent.1.le.trans closes.extent.2
  have unmatched : Explains source
      (.error ⟨.unmatchedClose character, place source start⟩) := by
    refine explains_fault within ?_
    obtain ⟨text, after, found, -, written⟩ := closes
    cases written
    exact getElem?_of_drop_eq_cons found
  obtain ⟨frames, reversedForms⟩ := state
  unfold ReadState.close
  cases pending with
  | top laid skips => exact unmatched
  | tag outer marker skips => exact unmatched
  | @group frames _ items bracket _ inside ending _ outer opens laid skips =>
      simp only
      by_cases other : bracket.closeChar ≠ character
      · rw [if_pos other]
        exact unmatched
      · rw [if_neg other]
        rw [not_not] at other
        subst other
        by_cases odd : bracket = .map ∧ items.reverse.length % 2 ≠ 0
        · rw [if_pos odd]
          obtain ⟨rfl, odd⟩ := odd
          rw [List.length_reverse] at odd
          refine explains_fault (opens.extent.1.le.trans opens.extent.2)
            ⟨?_, ?_⟩
          · obtain ⟨text, after, found, -, written⟩ := opens
            cases written
            exact getElem?_of_drop_eq_cons found
          · exact ⟨inside, items, ending, start, stop, opens, laid, skips,
              closes, by omega⟩
        · rw [if_neg odd, List.reverse_reverse]
          rw [List.length_reverse, not_and, not_not] at odd
          exact outer.deliver (.group (.done _) opens laid skips closes odd
            rfl (.nil stop))

/-- A token goes to what is open, or shows a fault. -/
theorem Pending.step {source : List Char} {state : ReadState} {token : Token}
    {start stop : Nat}
    (pending : Pending source state.frames state.reversedForms start)
    (stands : Stands source token start stop) :
    match state.step ⟨token, place source start, endPlace source stop⟩ with
    | .error error => Explains source (.error error)
    | .ok next => Pending source next.frames next.reversedForms stop := by
  unfold ReadState.step
  cases token with
  | opening bracket => exact .group pending stands (.nil stop) (.done stop)
  | closing character => exact pending.close stands
  | atom value =>
      exact pending.deliver (.atom (.done start) stands rfl (.nil stop))
  | tag name => exact .tag pending stands (.done stop)

/-- Reading on from what is open comes to forms that are laid out in the text,
or to a fault that shows in it. -/
theorem explains_readOn {source : List Char} {state : ReadState}
    {offset : Nat}
    (pending : Pending source state.frames state.reversedForms offset)
    (within : offset ≤ source.length) :
    Explains source
      (readOn state (place source offset) (source.drop offset)) := by
  induction left : source.length - offset using Nat.strong_induction_on
    generalizing state offset with
  | _ left' ih =>
      subst left
      have pass {text after : List Char} {next : ReadState}
          (found : source.drop offset = text ++ after) (some : text ≠ [])
          (pending : Pending source next.frames next.reversedForms
            (offset + text.length)) :
          Explains source
            (readOn next ((place source offset).advance text) after) := by
        have more := length_of_drop_eq_append found some
        have positive := List.length_pos_of_ne_nil some
        have run := ih _ (by omega) pending more rfl
        rwa [place_add found, drop_of_drop_eq_append text found] at run
      cases found : source.drop offset with
      | nil =>
          have ends := List.drop_eq_nil_iff.mp found
          have stop : offset = source.length := Nat.le_antisymm within ends
          obtain ⟨frames, reversedForms⟩ := state
          rw [readOn_nil]
          cases pending with
          | @top forms ending _ laid skips =>
              rw [stop] at skips
              refine ⟨ending, ?_, skips⟩
              rw [← List.reverse_reverse forms] at laid
              exact laid
          | group => exact explains_fault within stop
          | tag => exact explains_fault within stop
      | cons first rest =>
          by_cases blank : isBlank first = true
          · rw [readOn_blank _ _ _ blank]
            have alone : source.drop offset = [first] ++ rest := found
            exact pass alone (by simp)
              (pending.skip (.blank found blank (.done _)))
          · by_cases comment : first = ';'
            · subst comment
              rw [readOn_comment,
                (take_length_takeWhile (· ≠ '\n') rest).2]
              have inside : '\n' ∉ rest.takeWhile (· ≠ '\n') := by
                intro member
                simpa using List.all_eq_true.mp List.all_takeWhile _ member
              have ends := List.head?_dropWhile_not (· ≠ '\n') rest
              have text : source.drop offset =
                  (';' :: rest.takeWhile (· ≠ '\n')) ++
                    rest.dropWhile (· ≠ '\n') := by
                rw [List.cons_append, List.takeWhile_append_dropWhile]
                exact found
              refine pass text (List.cons_ne_nil _ _) (pending.skip
                (.comment text inside ?_ ?_))
              · intro next first
                rw [first] at ends
                simpa using ends
              · rw [List.length_cons, Nat.add_assoc, Nat.add_comm 1]
                exact .done _
            · rw [Bool.not_eq_true] at blank
              cases read : lexeme first rest with
              | error fault =>
                  obtain ⟨stop, shows⟩ := shows_of_lexeme found read
                  have length := congrArg List.length found
                  rw [List.length_drop] at length
                  have taken : ((first :: rest).take fault.offset).length =
                      fault.offset :=
                    List.length_take_of_le (by omega)
                  have text := found.trans
                    (List.take_append_drop fault.offset (first :: rest)).symm
                  rw [readOn_fault _ _ blank comment read, ← place_add text,
                    taken]
                  exact explains_fault stop shows
              | ok lexed =>
                  obtain ⟨token, length⟩ := lexed
                  have written := writtenAs_of_lexeme read
                  have text : source.drop offset =
                      (first :: rest.take length) ++ rest.drop length := by
                    rw [List.cons_append, List.take_append_drop]
                    exact found
                  have stepped := pending.step ⟨_, _, text, rfl, written⟩
                  rw [← List.take_append_drop length rest,
                    ← List.cons_append, readOn_token _ _ written,
                    ← endPlace_add text (List.cons_ne_nil _ _)]
                  generalize state.step _ = outcome at stepped ⊢
                  cases outcome with
                  | error error => exact stepped
                  | ok next =>
                      exact pass text (List.cons_ne_nil _ _) stepped

/-- Reading a text comes to forms that are laid out in it, or to a fault that
shows in it. -/
theorem explains_readForms (source : String) :
    Explains source.toList (readForms source) := by
  have nothing : Pending source.toList [] [] 0 := .top (.nil 0) (.done 0)
  exact @explains_readOn source.toList .initial 0 nothing (Nat.zero_le _)

end FormCompiler
