import FormCompiler.Proofs.PrintedForms

/-!
# Print and read round trip

Whatever is read has admissible names and paired maps: the scanner gives no
other tokens, and the stack of open frames keeps this while it grows and
shrinks.  Agreement of trees carries it over to the tree that was printed, so
a tree that comes back from its text was read in the one way that
`readForms_text` describes.  What is left is to compare a tree with its own
datum, which fails only at floats that are not finite.
-/

namespace FormCompiler

/-! ## Tokens that are read -/

def Token.isNamed : Token → Bool
  | .atom value => value.isNamed
  | .tag name => isName name
  | _ => true

/-- A word that is not a number is a constant or a symbol. -/
theorem isNamed_of_wordAtom {first : Char} {more : List Char} {atom : Atom}
    (starts : (isSymbolStart first || first.isDigit) = true)
    (inside : more.all isWordChar = true)
    (read : wordAtom (first :: more) = .ok atom) : atom.isNamed = true := by
  unfold wordAtom at read
  split at read
  · unfold numberAtom? at read
    split at read
    · next found =>
        cases read
        split at found
        · obtain ⟨value, -, rfl⟩ := Option.map_eq_some_iff.mp found
          rfl
        · obtain ⟨value, -, rfl⟩ := Option.map_eq_some_iff.mp found
          rfl
    · cases read
  · next notNumber =>
      split at read <;> cases read
      · rfl
      · rfl
      · rfl
      · next notNil notTrue notFalse =>
          have notDigit : first.isDigit = false := by
            by_contra digit
            apply notNumber
            cases more <;> simp_all [isNumberWord]
          rw [notDigit, Bool.or_false] at starts
          simp only [isSymbolStart, Bool.and_eq_true, bne_iff_ne] at starts
          obtain ⟨⟨⟨firstInside, notPoint⟩, notHash⟩, -⟩ := starts
          have notSigned : ((first == '+' || first == '-') &&
              more.head?.any Char.isDigit) = false := by
            cases more with
            | nil => simp
            | cons second more => simp_all [isNumberWord]
          have notConstant : ["nil", "true", "false"].contains
              (String.ofList (first :: more)) = false := by
            simp only [List.contains_cons, List.contains_nil, Bool.or_false,
              Bool.or_eq_false_iff, beq_eq_false_iff_ne]
            exact ⟨notNil, notTrue, notFalse⟩
          simp only [Atom.isNamed, isSymbolName, isName, String.toList_ofList]
          rw [notSigned, notDigit, notConstant]
          simp [firstInside, inside, notPoint, notHash]

theorem isNamed_of_namedLexeme {make : String → Token} {rest : List Char}
    {found : Lexeme}
    (named : ∀ name, isName name = true → (make name).isNamed = true)
    (read : namedLexeme make rest = .ok found) :
    found.token.isNamed = true := by
  unfold namedLexeme at read
  simp only at read
  split at read
  · cases read
  · next notEmpty =>
      cases read
      apply named
      rw [isName, String.toList_ofList, List.all_takeWhile]
      simpa using notEmpty

theorem isNamed_of_lexeme {first : Char} {rest : List Char} {found : Lexeme}
    (read : lexeme first rest = .ok found) : found.token.isNamed = true := by
  unfold lexeme at read
  split at read
  case h_7 =>
      split at read
      · cases read
        rfl
      · apply isNamed_of_namedLexeme _ read
        exact fun _ named => named
  case h_8 =>
      apply isNamed_of_namedLexeme _ read
      exact fun _ named => named
  case h_9 =>
      split at read <;> cases read
      rfl
  case h_10 =>
      simp only at read
      split at read
      · next starts =>
          split at read <;> cases read
          next word =>
            exact isNamed_of_wordAtom starts List.all_takeWhile word
      · cases read
  all_goals
    cases read
    rfl

/-- Every token of a text is named. -/
theorem isNamed_of_mem_scanFrom (position : Position)
    (characters : List Char) :
    ∀ spanned ∈ (scanFrom position characters).tokens,
      spanned.token.isNamed = true := by
  fun_induction scanFrom position characters with
  | case1 position => simp
  | case2 position first rest blank ih => exact ih
  | case3 position first rest comment ih => exact ih
  | case4 => simp
  | case5 position first rest _ _ found read text remaining ih =>
      intro spanned member
      rcases List.mem_cons.mp member with rfl | later
      · exact isNamed_of_lexeme read
      · exact ih spanned later

/-! ## Forms that are read -/

/-- Trees with admissible names and paired maps. -/
private abbrev Admissible {Note : Type} (tree : Tree Note) : Prop :=
  tree.isBuiltFrom Atom.isNamed = true

theorem isBuiltFromList_iff {Note : Type} (accepts : Atom → Bool)
    (items : List (Tree Note)) :
    Tree.isBuiltFromList accepts items = true ↔
      ∀ item ∈ items, item.isBuiltFrom accepts = true := by
  induction items with
  | nil => simp [Tree.isBuiltFromList]
  | cons item items ih => simp [Tree.isBuiltFromList, ih]

/-- What is open holds admissible forms, and tags that are names. -/
def Frame.IsAdmissible : Frame → Prop
  | .group _ _ reversedItems => ∀ item ∈ reversedItems, Admissible item
  | .tag name _ => isName name = true

structure ReadState.IsAdmissible (state : ReadState) : Prop where
  frames : ∀ frame ∈ state.frames, frame.IsAdmissible
  forms : ∀ form ∈ state.reversedForms, Admissible form

namespace ReadState

theorem isAdmissible_deliver {form : Form} (last : Position)
    {reversedForms : List Form} {frames : List Frame}
    (admissible : Admissible form)
    (forms : ∀ form ∈ reversedForms, Admissible form)
    (held : ∀ frame ∈ frames, frame.IsAdmissible) :
    (deliver form last reversedForms frames).IsAdmissible := by
  induction frames generalizing form with
  | nil =>
      refine ⟨by simp [deliver], ?_⟩
      simpa [deliver] using ⟨admissible, forms⟩
  | cons frame frames ih =>
      rw [List.forall_mem_cons] at held
      cases frame with
      | group bracket start items =>
          refine ⟨?_, forms⟩
          rw [deliver, List.forall_mem_cons]
          refine ⟨?_, held.2⟩
          rw [Frame.IsAdmissible, List.forall_mem_cons]
          exact ⟨admissible, held.1⟩
      | tag name start =>
          rw [deliver]
          apply ih _ held.2
          rw [Admissible, Tree.isBuiltFrom, Bool.and_eq_true]
          exact ⟨held.1, admissible⟩

/-- One token keeps the state admissible: a bracket is closed only around
admissible forms, and around pairs where it is a map. -/
theorem IsAdmissible.step {state next : ReadState} {spanned : SpannedToken}
    (admissible : state.IsAdmissible)
    (named : spanned.token.isNamed = true)
    (stepped : state.step spanned = .ok next) : next.IsAdmissible := by
  obtain ⟨frames, forms⟩ := admissible
  unfold ReadState.step at stepped
  split at stepped
  · cases stepped
    refine ⟨?_, forms⟩
    rw [List.forall_mem_cons]
    exact ⟨by simp [Frame.IsAdmissible], frames⟩
  · unfold close at stepped
    split at stepped
    · next bracket start items outer found =>
        rw [found, List.forall_mem_cons] at frames
        split at stepped
        · cases stepped
        · split at stepped
          · cases stepped
          · next paired =>
              cases stepped
              apply isAdmissible_deliver _ _ forms frames.2
              rw [Admissible, Tree.isBuiltFrom, Bool.and_eq_true,
                isBuiltFromList_iff]
              constructor
              · intro item member
                exact frames.1 item (List.mem_reverse.mp member)
              · rw [List.length_reverse]
                by_cases map : bracket = .map <;> simp_all
    · cases stepped
  · next value token =>
      cases stepped
      rw [token] at named
      exact isAdmissible_deliver _ named forms frames
  · next name token =>
      cases stepped
      rw [token] at named
      refine ⟨?_, forms⟩
      rw [List.forall_mem_cons]
      exact ⟨named, frames⟩

theorem IsAdmissible.readTokens {state final : ReadState}
    {tokens : List SpannedToken} (admissible : state.IsAdmissible)
    (named : ∀ spanned ∈ tokens, spanned.token.isNamed = true)
    (read : readTokens state tokens = .ok final) : final.IsAdmissible := by
  induction tokens generalizing state with
  | nil =>
      cases read
      exact admissible
  | cons token tokens ih =>
      rw [List.forall_mem_cons] at named
      unfold FormCompiler.readTokens at read
      split at read
      · cases read
      · next next stepped =>
          exact ih (admissible.step named.1 stepped) named.2 read

end ReadState

/-- Every form of a text has admissible names and paired maps. -/
theorem isBuiltFrom_of_readForms {source : String} {forms : List Form}
    (read : readForms source = .ok forms) :
    ∀ form ∈ forms, form.isBuiltFrom Atom.isNamed = true := by
  unfold readForms at read
  simp only at read
  split at read
  · cases read
  · next state tokens =>
      have initial : ReadState.initial.IsAdmissible :=
        ⟨by simp [ReadState.initial], by simp [ReadState.initial]⟩
      have admissible :=
        initial.readTokens (isNamed_of_mem_scanFrom _ _) tokens
      unfold ReadState.finish at read
      split at read
      · cases read
      · split at read <;> cases read
        intro form member
        exact admissible.forms form (List.mem_reverse.mp member)

/-! ## Agreement -/

theorem isNamed_of_agrees {left right : Atom}
    (agree : left.agrees right = true) : left.isNamed = right.isNamed := by
  unfold Atom.agrees at agree
  split at agree
  · rfl
  · rw [beq_iff_eq.mp agree]

theorem agreesList_length {Note Other : Type} {left : List (Tree Note)}
    {right : List (Tree Other)} (agree : Tree.agreesList left right = true) :
    left.length = right.length := by
  induction left generalizing right with
  | nil => cases right <;> simp_all [Tree.agreesList]
  | cons item left ih =>
      cases right with
      | nil => simp [Tree.agreesList] at agree
      | cons other right =>
          rw [Tree.agreesList, Bool.and_eq_true] at agree
          rw [List.length_cons, ih agree.2, List.length_cons]

mutual

/-- Trees that agree have the same names and the same pairs. -/
theorem isBuiltFrom_of_agrees {Note Other : Type} (left : Tree Note)
    (right : Tree Other) (agree : left.agrees right = true) :
    left.isBuiltFrom Atom.isNamed = right.isBuiltFrom Atom.isNamed := by
  cases left with
  | atom _ value =>
      cases right <;> simp only [Tree.agrees, Bool.false_eq_true] at agree
      exact isNamed_of_agrees agree
  | group _ bracket items =>
      cases right <;> simp only [Tree.agrees, Bool.false_eq_true] at agree
      rw [Bool.and_eq_true, beq_iff_eq] at agree
      obtain ⟨rfl, agree⟩ := agree
      rw [Tree.isBuiltFrom, Tree.isBuiltFrom,
        isBuiltFromList_of_agreesList items _ agree, agreesList_length agree]
  | tagged _ tag value =>
      cases right <;> simp only [Tree.agrees, Bool.false_eq_true] at agree
      rw [Bool.and_eq_true, beq_iff_eq] at agree
      obtain ⟨rfl, agree⟩ := agree
      rw [Tree.isBuiltFrom, Tree.isBuiltFrom,
        isBuiltFrom_of_agrees value _ agree]

theorem isBuiltFromList_of_agreesList {Note Other : Type}
    (left : List (Tree Note)) (right : List (Tree Other))
    (agree : Tree.agreesList left right = true) :
    Tree.isBuiltFromList Atom.isNamed left =
      Tree.isBuiltFromList Atom.isNamed right := by
  cases left with
  | nil => cases right <;> simp_all [Tree.agreesList, Tree.isBuiltFromList]
  | cons item left =>
      cases right with
      | nil => simp [Tree.agreesList] at agree
      | cons other right =>
          rw [Tree.agreesList, Bool.and_eq_true] at agree
          rw [Tree.isBuiltFromList, Tree.isBuiltFromList,
            isBuiltFrom_of_agrees item other agree.1,
            isBuiltFromList_of_agreesList left right agree.2]

end

/-! ## Trees and the data that their texts stand for -/

theorem agrees_reread_atom {atom : Atom} (named : atom.isNamed = true) :
    atom.reread.agrees atom = atom.isLexical := by
  cases atom with
  | float value =>
      cases finite : value.isFinite with
      | false => simp [Atom.reread, Atom.agrees, Atom.isLexical, finite]
      | true =>
          have notNan : value.isNan = false := by
            simp only [Double.isNan, Double.isFinite,
              UInt64.lt_iff_toNat_lt, decide_eq_true_eq,
              decide_eq_false_iff_not] at *
            omega
          simp [Atom.reread, Atom.agrees, Atom.isLexical, finite,
            Double.numericallyEqual, notNan]
  | nil => rfl
  | bool value => simp [Atom.reread, Atom.agrees, Atom.isLexical, named]
  | int value => simp [Atom.reread, Atom.agrees, Atom.isLexical, named]
  | string text => simp [Atom.reread, Atom.agrees, Atom.isLexical, named]
  | keyword name => simp [Atom.reread, Atom.agrees, Atom.isLexical, named]
  | symbol name => simp [Atom.reread, Atom.agrees, Atom.isLexical, named]

theorem isNamed_of_isLexical {atom : Atom}
    (lexical : atom.isLexical = true) : atom.isNamed = true := by
  cases atom with
  | float value => rfl
  | _ => exact lexical

mutual

/-- Comparing a tree with what its text stands for finds the floats that are
not finite. -/
theorem agrees_reread {Note : Type} (tree : Tree Note)
    (named : tree.isBuiltFrom Atom.isNamed = true) :
    tree.reread.agrees tree = tree.isLexical := by
  cases tree with
  | atom note value => exact agrees_reread_atom named
  | group note bracket items =>
      rw [Tree.isBuiltFrom, Bool.and_eq_true] at named
      rw [Tree.reread, Tree.agrees, Tree.isLexical, Tree.isBuiltFrom,
        agreesList_reread items named.1, named.2, beq_self_eq_true,
        Bool.true_and, Bool.and_true]
  | tagged note tag value =>
      rw [Tree.isBuiltFrom, Bool.and_eq_true] at named
      rw [Tree.reread, Tree.agrees, Tree.isLexical, Tree.isBuiltFrom,
        agrees_reread value named.2, named.1, beq_self_eq_true,
        Tree.isLexical]

theorem agreesList_reread {Note : Type} (items : List (Tree Note))
    (named : Tree.isBuiltFromList Atom.isNamed items = true) :
    Tree.agreesList (Tree.rereadList items) items =
      Tree.isBuiltFromList Atom.isLexical items := by
  cases items with
  | nil => rfl
  | cons item items =>
      rw [Tree.isBuiltFromList, Bool.and_eq_true] at named
      rw [Tree.rereadList, Tree.agreesList, agrees_reread item named.1,
        agreesList_reread items named.2, Tree.isBuiltFromList, Tree.isLexical]

end

mutual

/-- Lexically well-formed trees have admissible names. -/
theorem isBuiltFrom_of_isLexical {Note : Type} (tree : Tree Note)
    (lexical : tree.isBuiltFrom Atom.isLexical = true) :
    tree.isBuiltFrom Atom.isNamed = true := by
  cases tree with
  | atom note value => exact isNamed_of_isLexical lexical
  | group note bracket items =>
      rw [Tree.isBuiltFrom, Bool.and_eq_true] at lexical ⊢
      exact ⟨isBuiltFromList_of_isLexical items lexical.1, lexical.2⟩
  | tagged note tag value =>
      rw [Tree.isBuiltFrom, Bool.and_eq_true] at lexical ⊢
      exact ⟨lexical.1, isBuiltFrom_of_isLexical value lexical.2⟩

theorem isBuiltFromList_of_isLexical {Note : Type} (items : List (Tree Note))
    (lexical : Tree.isBuiltFromList Atom.isLexical items = true) :
    Tree.isBuiltFromList Atom.isNamed items = true := by
  cases items with
  | nil => rfl
  | cons item items =>
      rw [Tree.isBuiltFromList, Bool.and_eq_true] at lexical ⊢
      exact ⟨isBuiltFrom_of_isLexical item lexical.1,
        isBuiltFromList_of_isLexical items lexical.2⟩

end

mutual

theorem datum_agrees {Note Other : Type} (left : Tree Note)
    (right : Tree Other) : left.datum.agrees right = left.agrees right := by
  cases left with
  | atom note value => cases right <;> rfl
  | group note bracket items =>
      rw [datum_group]
      cases right with
      | group _ _ others =>
          rw [Tree.agrees, Tree.agrees, datumList_agrees items others]
      | _ => rfl
  | tagged note tag value =>
      cases right with
      | tagged _ _ other =>
          rw [Tree.agrees, ← datum_agrees value other]
          rfl
      | _ => rfl

theorem datumList_agrees {Note Other : Type} (left : List (Tree Note))
    (right : List (Tree Other)) :
    Tree.agreesList (left.map Tree.datum) right =
      Tree.agreesList left right := by
  cases left with
  | nil => cases right <;> rfl
  | cons item left =>
      cases right with
      | nil => rfl
      | cons other right =>
          rw [List.map_cons, Tree.agreesList, Tree.agreesList,
            datum_agrees item other, datumList_agrees left right]

end

/-- A tree is read back from its text, as the only form there and equal to
it, exactly when it is lexically well formed. -/
theorem readForms_text_agrees_iff {Note : Type} (tree : Tree Note) :
    (∃ form : Form, readForms tree.text = .ok [form] ∧
      form.agrees tree = true) ↔ tree.isLexical = true := by
  constructor
  · rintro ⟨form, read, agree⟩
    have named : tree.isBuiltFrom Atom.isNamed = true := by
      rw [← isBuiltFrom_of_agrees form tree agree]
      exact isBuiltFrom_of_readForms read form List.mem_cons_self
    obtain ⟨other, otherRead, datum⟩ := readForms_text tree named
    rw [read] at otherRead
    cases otherRead
    rw [← agrees_reread tree named, ← datum, datum_agrees, agree]
  · intro lexical
    have named := isBuiltFrom_of_isLexical tree lexical
    obtain ⟨form, read, datum⟩ := readForms_text tree named
    refine ⟨form, read, ?_⟩
    rw [← datum_agrees, datum, agrees_reread tree named, lexical]

end FormCompiler
