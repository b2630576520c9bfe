import FormCompiler.Proofs.LexicalForms

/-!
# Reading back printed trees

The text of a tree with admissible names is scanned into the tokens of the
tree, and these are folded into one form.  Its datum is the datum of the tree,
but for the floats that are not finite.
-/

namespace FormCompiler

namespace Tree

variable {Note : Type}

mutual

/-- The tokens that the text of a tree is split into. -/
def tokens : Tree Note → List Token
  | .atom _ value => [.atom value.reread]
  | .group _ bracket items =>
      .opening bracket :: (tokensList items ++ [.closing bracket.closeChar])
  | .tagged _ tag value => .tag tag :: tokens value

def tokensList : List (Tree Note) → List Token
  | [] => []
  | item :: items => tokens item ++ tokensList items

end

mutual

/-- The datum that the text of a tree stands for. -/
def reread : Tree Note → Datum
  | .atom _ value => .atom () value.reread
  | .group _ bracket items => .group () bracket (rereadList items)
  | .tagged _ tag value => .tagged () tag (reread value)

def rereadList : List (Tree Note) → List Datum
  | [] => []
  | item :: items => reread item :: rereadList items

end

end Tree

/-! ## Scanning -/

/-- A text is split into given tokens wherever it stands, ahead of `rest`. -/
def ScansTo (chars rest : List Char) (tokens : List Token) : Prop :=
  ∀ position, ∃ spanned : List SpannedToken,
    spanned.map SpannedToken.token = tokens ∧
    (scanFrom position (chars ++ rest)).tokens =
      spanned ++ (scanFrom (position.advance chars) rest).tokens ∧
    (scanFrom position (chars ++ rest)).ending =
      (scanFrom (position.advance chars) rest).ending

namespace ScansTo

theorem append {left right rest : List Char} {leftTokens rightTokens}
    (first : ScansTo left (right ++ rest) leftTokens)
    (second : ScansTo right rest rightTokens) :
    ScansTo (left ++ right) rest (leftTokens ++ rightTokens) := by
  intro position
  obtain ⟨spanned, tokensEq, scanned, ending⟩ := first position
  obtain ⟨later, laterEq, laterScanned, laterEnding⟩ :=
    second (position.advance left)
  refine ⟨spanned ++ later, ?_, ?_, ?_⟩
  · rw [List.map_append, tokensEq, laterEq]
  · rw [List.append_assoc, scanned, laterScanned, Position.advance_append,
      List.append_assoc]
  · rw [List.append_assoc, ending, laterEnding, Position.advance_append]

theorem blank {character : Char} {rest : List Char}
    (skipped : isBlank character = true) :
    ScansTo [character] rest [] := by
  intro position
  refine ⟨[], rfl, ?_, ?_⟩
  all_goals
    rw [List.cons_append, List.nil_append, scanFrom, if_pos skipped]
    rfl

theorem nil (rest : List Char) : ScansTo [] rest [] := by
  intro position
  exact ⟨[], rfl, rfl, rfl⟩

/-- A text that starts with one token and holds no more. -/
theorem single {first : Char} {more rest : List Char} {token : Token}
    (notBlank : isBlank first = false) (notComment : first ≠ ';')
    (read : lexeme first (more ++ rest) = .ok ⟨token, more.length⟩) :
    ScansTo (first :: more) rest [token] := by
  intro position
  have blank : ¬isBlank first = true := by simp [notBlank]
  refine ⟨[⟨token, position, lastPosition position (first :: more)⟩], rfl,
    ?_, ?_⟩
  all_goals
    rw [List.cons_append, scanFrom, if_neg blank, if_neg notComment, read]
    simp only [List.take_left, List.drop_left, List.cons_append,
      List.nil_append]

end ScansTo

theorem scansTo_opening (bracket : Bracket) (rest : List Char) :
    ScansTo bracket.openChars rest [.opening bracket] := by
  cases bracket <;> exact ScansTo.single (by decide) (by decide) rfl

theorem scansTo_closing (bracket : Bracket) (rest : List Char) :
    ScansTo [bracket.closeChar] rest [.closing bracket.closeChar] := by
  cases bracket <;> exact ScansTo.single (by decide) (by decide) rfl

theorem delimited_closeChar (bracket : Bracket) (rest : List Char) :
    Delimited (bracket.closeChar :: rest) := by
  cases bracket <;> exact delimited_cons (by decide)

theorem scansTo_atom {atom : Atom} {rest : List Char}
    (named : atom.isNamed = true) (delimited : Delimited rest) :
    ScansTo atom.chars rest [.atom atom.reread] := by
  obtain ⟨first, more, chars, notBlank, notComment, read⟩ :=
    lexesAs_atom named
  rw [chars]
  exact ScansTo.single notBlank notComment (read rest delimited)

private theorem delimited_space (rest : List Char) : Delimited (' ' :: rest) :=
  delimited_cons (by decide)

mutual

/-- The text of a tree with admissible names is split into its tokens. -/
theorem scansTo_tree {Note : Type} (tree : Tree Note) (rest : List Char)
    (named : tree.isBuiltFrom Atom.isNamed = true)
    (delimited : Delimited rest) :
    ScansTo tree.chars rest tree.tokens := by
  cases tree with
  | atom note value => exact scansTo_atom named delimited
  | group note bracket items =>
      simp only [Tree.isBuiltFrom, Bool.and_eq_true] at named
      rw [Tree.chars, Tree.tokens, List.append_assoc]
      apply (scansTo_opening bracket _).append
      apply ScansTo.append
      · exact scansTo_trees items _ named.1 (delimited_closeChar bracket rest)
      · exact scansTo_closing bracket rest
  | tagged note tag value =>
      simp only [Tree.isBuiltFrom, Bool.and_eq_true] at named
      rw [Tree.chars, Tree.tokens]
      have marker : ScansTo ('#' :: tag.toList) (' ' :: value.chars ++ rest)
          [.tag tag] :=
        ScansTo.single (by decide) (by decide)
          (lexeme_tag named.1 (delimited_space _))
      exact marker.append ((ScansTo.blank (by decide)).append
        (scansTo_tree value rest named.2 delimited))

theorem scansTo_trees {Note : Type} (items : List (Tree Note))
    (rest : List Char)
    (named : Tree.isBuiltFromList Atom.isNamed items = true)
    (delimited : Delimited rest) :
    ScansTo (Tree.charsList items) rest (Tree.tokensList items) := by
  cases items with
  | nil => exact ScansTo.nil rest
  | cons item items =>
      simp only [Tree.isBuiltFromList, Bool.and_eq_true] at named
      cases items with
      | nil =>
          rw [Tree.charsList, Tree.tokensList, Tree.tokensList,
            List.append_nil]
          exact scansTo_tree item rest named.1 delimited
      | cons next items =>
          rw [Tree.charsList, Tree.tokensList]
          · apply ScansTo.append
            · exact scansTo_tree item _ named.1 (delimited_space _)
            · exact (ScansTo.blank (by decide)).append
                (scansTo_trees (next :: items) rest named.2 delimited)
          · simp

end

/-! ## Folding tokens into forms -/

theorem datum_group {Note : Type} (note : Note) (bracket : Bracket)
    (items : List (Tree Note)) :
    (Tree.group note bracket items).datum =
      .group () bracket (items.map Tree.datum) := by
  rw [Tree.datum, Tree.mapNotes]
  congr 1
  induction items with
  | nil => rfl
  | cons item items ih => rw [Tree.mapNotesList, ih, List.map_cons, Tree.datum]

mutual

/-- Reading the tokens of a tree delivers one form for it. -/
theorem readTokens_tree {Note : Type} (tree : Tree Note)
    (named : tree.isBuiltFrom Atom.isNamed = true)
    (spanned : List SpannedToken)
    (tokensEq : spanned.map SpannedToken.token = tree.tokens)
    (frames : List Frame) (reversedForms : List Form) :
    ∃ (form : Form) (last : Position), form.datum = tree.reread ∧
      ∀ more, readTokens ⟨frames, reversedForms⟩ (spanned ++ more) =
        readTokens (ReadState.deliver form last reversedForms frames)
          more := by
  cases tree with
  | atom note value =>
      rw [Tree.tokens, List.map_eq_singleton_iff] at tokensEq
      obtain ⟨next, rfl, token⟩ := tokensEq
      refine ⟨.atom (.ofSpan next.span) value.reread, next.span.last, rfl, ?_⟩
      intro more
      rw [List.cons_append, List.nil_append, readTokens, ReadState.step, token]
  | group note bracket items =>
      simp only [Tree.isBuiltFrom, Bool.and_eq_true] at named
      rw [Tree.tokens, List.map_eq_cons_iff] at tokensEq
      obtain ⟨opening, inner, rfl, openingToken, innerEq⟩ := tokensEq
      obtain ⟨itemTokens, closings, rfl, itemsEq, closingEq⟩ :=
        List.map_eq_append_iff.mp innerEq
      obtain ⟨closing, rfl, closingToken⟩ :=
        List.map_eq_singleton_iff.mp closingEq
      obtain ⟨forms, data, length, run⟩ := readTokens_trees items named.1
        itemTokens itemsEq bracket opening.span.start [] frames reversedForms
      refine ⟨.group (.ofSpan ⟨opening.span.start, closing.span.last⟩) bracket
        forms, closing.span.last, ?_, ?_⟩
      · rw [Tree.reread, ← data, datum_group]
      · intro more
        have paired : ¬(bracket = .map ∧ forms.reverse.length % 2 ≠ 0) := by
          rw [List.length_reverse, length]
          simpa [imp_iff_not_or] using named.2
        rw [List.cons_append, readTokens, ReadState.step, openingToken,
          List.append_assoc]
        simp only
        rw [run, List.append_nil, List.cons_append, List.nil_append,
          readTokens, ReadState.step, closingToken]
        simp only [ReadState.close, ne_eq, not_true_eq_false, if_false]
        rw [if_neg paired, List.reverse_reverse]
  | tagged note tag value =>
      simp only [Tree.isBuiltFrom, Bool.and_eq_true] at named
      rw [Tree.tokens, List.map_eq_cons_iff] at tokensEq
      obtain ⟨marker, inner, rfl, markerToken, innerEq⟩ := tokensEq
      obtain ⟨form, last, datum, run⟩ := readTokens_tree value named.2 inner
        innerEq (.tag tag marker.span.start :: frames) reversedForms
      refine ⟨.tagged (.ofSpan ⟨marker.span.start, last⟩) tag form, last,
        ?_, ?_⟩
      · rw [Tree.reread, ← datum]
        rfl
      · intro more
        rw [List.cons_append, readTokens, ReadState.step, markerToken]
        exact run more

/-- Reading the tokens of trees puts one form for each of them into the
innermost bracket. -/
theorem readTokens_trees {Note : Type} (items : List (Tree Note))
    (named : Tree.isBuiltFromList Atom.isNamed items = true)
    (spanned : List SpannedToken)
    (tokensEq : spanned.map SpannedToken.token = Tree.tokensList items)
    (bracket : Bracket) (start : Position) (before : List Form)
    (frames : List Frame) (reversedForms : List Form) :
    ∃ forms : List Form,
      forms.map Tree.datum = Tree.rereadList items ∧
      forms.length = items.length ∧
      ∀ more, readTokens
          ⟨.group bracket start before :: frames, reversedForms⟩
          (spanned ++ more) =
        readTokens
          ⟨.group bracket start (forms.reverse ++ before) :: frames,
            reversedForms⟩ more := by
  cases items with
  | nil =>
      rw [Tree.tokensList, List.map_eq_nil_iff] at tokensEq
      subst tokensEq
      exact ⟨[], rfl, rfl, fun _ => rfl⟩
  | cons item items =>
      simp only [Tree.isBuiltFromList, Bool.and_eq_true] at named
      rw [Tree.tokensList] at tokensEq
      obtain ⟨first, later, rfl, firstEq, laterEq⟩ :=
        List.map_eq_append_iff.mp tokensEq
      obtain ⟨form, last, datum, run⟩ := readTokens_tree item named.1 first
        firstEq (.group bracket start before :: frames) reversedForms
      obtain ⟨forms, data, length, laterRun⟩ := readTokens_trees items named.2
        later laterEq bracket start (form :: before) frames reversedForms
      refine ⟨form :: forms, ?_, ?_, ?_⟩
      · rw [List.map_cons, datum, data, Tree.rereadList]
      · rw [List.length_cons, length, List.length_cons]
      · intro more
        rw [List.append_assoc, run, ReadState.deliver, laterRun,
          List.reverse_cons, List.append_assoc]
        rfl

end

/-- The text of a tree with admissible names holds one form, with the datum
that the text stands for. -/
theorem readForms_text {Note : Type} (tree : Tree Note)
    (named : tree.isBuiltFrom Atom.isNamed = true) :
    ∃ form : Form, readForms tree.text = .ok [form] ∧
      form.datum = tree.reread := by
  obtain ⟨spanned, tokensEq, scanned, ending⟩ :=
    scansTo_tree tree [] named rfl Position.origin
  obtain ⟨form, last, datum, run⟩ :=
    readTokens_tree tree named spanned tokensEq [] []
  refine ⟨form, ?_, datum⟩
  rw [List.append_nil] at scanned ending
  rw [scanFrom, List.append_nil] at scanned
  rw [scanFrom] at ending
  have finished : readTokens .initial spanned = .ok ⟨[], [form]⟩ := by
    have whole := run []
    rw [List.append_nil] at whole
    exact whole
  rw [readForms, scan, Tree.text, String.toList_ofList]
  simp only [scanned, ending, finished]
  rfl

end FormCompiler
