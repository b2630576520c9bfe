import FormCompiler.Proofs.RoundTrip
import FormCompiler.Proofs.WrittenText

/-!
# Spacing

A list of trees can be written out in many ways.  Any amount of blanks and
comments may stand behind an opening bracket, ahead of a closing one and around
the whole, and some must stand between neighbours and behind a tag.  A string
may have any of its characters escaped that can be, and a number may be any
word that stands for it.

However well-formed trees are written out, they are read back as they are.
-/

namespace FormCompiler

/-- Blanks, and comments with their line ends. -/
inductive Trivia : List Char → Prop where
  | nil : Trivia []
  | blank {character : Char} {rest : List Char}
      (skipped : isBlank character = true) (more : Trivia rest) :
      Trivia (character :: rest)
  | comment {text rest : List Char} (inside : '\n' ∉ text)
      (more : Trivia rest) : Trivia (';' :: (text ++ '\n' :: rest))

/-- The ways to write an atom. -/
inductive Atom.SpelledAs : Atom → List Char → Prop where
  | plain (atom : Atom) : SpelledAs atom atom.chars
  | word {first : Char} {more : List Char} {atom : Atom}
      (starts : (isSymbolStart first || first.isDigit) = true)
      (inside : more.all isWordChar = true)
      (read : wordAtom (first :: more) = .ok atom) :
      SpelledAs atom (first :: more)
  | string {text : String} {written : List Char}
      (spells : Spells text.toList written) :
      SpelledAs (.string text) ('"' :: (written ++ ['"']))

mutual

/-- The ways to write a tree. -/
inductive Spaced {Note : Type} : Tree Note → List Char → Prop where
  | atom (note : Note) {value : Atom} {chars : List Char}
      (spelled : value.SpelledAs chars) : Spaced (.atom note value) chars
  | group (note : Note) (bracket : Bracket) {items : List (Tree Note)}
      {inner : List Char} (contents : SpacedItems items inner) :
      Spaced (.group note bracket items)
        (bracket.openChars ++ (inner ++ [bracket.closeChar]))
  | tagged (note : Note) (tag : String) {value : Tree Note}
      {gap chars : List Char} (trivia : Trivia gap) (some : gap ≠ [])
      (contents : Spaced value chars) :
      Spaced (.tagged note tag value) ('#' :: tag.toList ++ (gap ++ chars))

/-- The ways to write trees in sequence. -/
inductive SpacedItems {Note : Type} : List (Tree Note) → List Char → Prop where
  | none {gap : List Char} (trivia : Trivia gap) : SpacedItems [] gap
  | last {item : Tree Note} {before chars behind : List Char}
      (leading : Trivia before) (contents : Spaced item chars)
      (trailing : Trivia behind) :
      SpacedItems [item] (before ++ (chars ++ behind))
  | more {item next : Tree Note} {items : List (Tree Note)}
      {before chars gap rest : List Char} (leading : Trivia before)
      (contents : Spaced item chars) (trivia : Trivia gap) (some : gap ≠ [])
      (others : SpacedItems (next :: items) rest) :
      SpacedItems (item :: next :: items)
        (before ++ (chars ++ (gap ++ rest)))

end

/-- The ways to write a text that holds trees: a last comment may end with the
text. -/
inductive SpacedText {Note : Type} (trees : List (Tree Note)) :
    List Char → Prop where
  | ended {chars : List Char} (items : SpacedItems trees chars) :
      SpacedText trees chars
  | commented {chars text : List Char} (items : SpacedItems trees chars)
      (inside : '\n' ∉ text) : SpacedText trees (chars ++ ';' :: text)

/-! ## Trivia in a text -/

theorem Trivia.skips {gap : List Char} (trivia : Trivia gap)
    {source after : List Char} {start : Nat}
    (found : source.drop start = gap ++ after) :
    Skips source start (start + gap.length) := by
  induction trivia generalizing start with
  | nil => exact .done start
  | @blank character rest skipped _ ih =>
      have behind : source.drop (start + 1) = rest ++ after :=
        drop_of_drop_eq_append [character] found
      have skips := ih behind
      rw [Nat.add_right_comm, Nat.add_assoc start] at skips
      exact .blank found skipped skips
  | @comment text rest inside _ ih =>
      have ahead : source.drop start =
          ';' :: (text ++ '\n' :: (rest ++ after)) := by
        rw [found]
        simp
      have lineEnd : source.drop (start + 1 + text.length) =
          '\n' :: (rest ++ after) := by
        rw [Nat.add_assoc, Nat.add_comm 1]
        exact drop_of_drop_eq_append (';' :: text) ahead
      have behind : source.drop (start + 1 + text.length + 1) =
          rest ++ after :=
        drop_of_drop_eq_append ['\n'] lineEnd
      have skips := ih behind
      have stop : start + 1 + text.length + 1 + rest.length =
          start + (';' :: (text ++ '\n' :: rest)).length := by
        simp only [List.length_cons, List.length_append]
        omega
      rw [stop] at skips
      exact .comment ahead inside (by simp)
        (.blank lineEnd (by decide) skips)

theorem Trivia.delimited {gap rest : List Char} (trivia : Trivia gap)
    (delimited : gap ≠ [] ∨ Delimited rest) : Delimited (gap ++ rest) := by
  cases trivia with
  | nil => exact delimited.resolve_left (by simp)
  | @blank character _ skipped _ =>
      apply delimited_cons
      by_contra inside
      rw [Bool.not_eq_false] at inside
      rw [(not_skipped_of_isWordChar inside).1] at skipped
      cases skipped
  | comment => exact delimited_cons (by decide)

/-! ## Trees in a text -/

theorem Atom.SpelledAs.writtenAs {atom : Atom} {chars after : List Char}
    (spelled : atom.SpelledAs chars) (lexical : atom.isLexical = true)
    (delimited : Delimited after) :
    (Token.atom atom).WrittenAs chars after := by
  cases spelled with
  | plain =>
      obtain ⟨first, more, same, -, -, read⟩ :=
        lexesAs_atom (isNamed_of_isLexical lexical)
      have written := writtenAs_of_lexeme (read after delimited)
      have finite : atom.reread = atom := by
        cases atom with
        | float value => exact if_pos lexical
        | _ => rfl
      rw [List.take_left, List.drop_left, finite] at written
      rw [same]
      exact written
  | word starts inside read => exact .word starts inside read delimited
  | @string text _ spells =>
      have written := Token.WrittenAs.string spells after
      rwa [String.ofList_toList] at written

mutual

/-- A tree that is written with any spacing is laid out. -/
theorem laid_of_spaced {Note : Type} (tree : Tree Note)
    {chars after source : List Char} {start : Nat}
    (spaced : Spaced tree chars)
    (lexical : tree.isBuiltFrom Atom.isLexical = true)
    (delimited : Delimited after)
    (found : source.drop start = chars ++ after) :
    Laid source Anywhere start [tree] (start + chars.length) := by
  cases tree with
  | atom note value =>
      cases spaced with
      | atom _ spelled =>
          exact .atom (.done start)
            ⟨chars, after, found, rfl, spelled.writtenAs lexical delimited⟩
            trivial (.nil _)
  | group note bracket items =>
      cases spaced with
      | @group _ _ _ inner contents =>
          rw [Tree.isBuiltFrom, Bool.and_eq_true] at lexical
          rw [List.append_assoc, List.append_assoc] at found
          have inside := drop_of_drop_eq_append _ found
          obtain ⟨ending, laid, further⟩ := laid_of_spacedItems items contents
            lexical.1 (delimited_closeChar bracket after) inside
          have closing := drop_of_drop_eq_append _ inside
          have closes : Stands source (.closing bracket.closeChar)
              (start + bracket.openChars.length + inner.length)
              (start + bracket.openChars.length + inner.length + 1) :=
            ⟨[bracket.closeChar], after, closing, rfl, .closing bracket after⟩
          have stop : start + bracket.openChars.length + inner.length + 1 =
              start + (bracket.openChars ++
                (inner ++ [bracket.closeChar])).length := by
            simp only [List.length_append, List.length_singleton]
            omega
          rw [stop] at closes
          refine .group (.done start)
            ⟨bracket.openChars, _, found, rfl, .opening bracket _⟩ laid
            further closes ?_ trivial (.nil _)
          simpa [imp_iff_not_or] using lexical.2
  | tagged note tag value =>
      cases spaced with
      | @tagged _ _ _ gap text trivia some contents =>
          rw [Tree.isBuiltFrom, Bool.and_eq_true] at lexical
          rw [List.append_assoc, List.append_assoc] at found
          have inside := drop_of_drop_eq_append _ found
          have skips := trivia.skips inside
          have there := drop_of_drop_eq_append _ inside
          have laid := laid_of_spaced value contents lexical.2 delimited there
          have stop : start + ('#' :: tag.toList).length + gap.length +
              text.length =
                start + ('#' :: tag.toList ++ (gap ++ text)).length := by
            simp only [List.length_append]
            omega
          rw [stop] at laid
          exact .tagged (.done start)
            ⟨'#' :: tag.toList, _, found, rfl,
              .tag lexical.1 (trivia.delimited (.inl some))⟩
            (laid.skip skips) trivial (.nil _)

/-- Trees that are written in sequence are laid out, up to trivia. -/
theorem laid_of_spacedItems {Note : Type} (items : List (Tree Note))
    {chars after source : List Char} {start : Nat}
    (spaced : SpacedItems items chars)
    (lexical : Tree.isBuiltFromList Atom.isLexical items = true)
    (delimited : Delimited after)
    (found : source.drop start = chars ++ after) :
    ∃ ending, Laid source Anywhere start items ending ∧
      Skips source ending (start + chars.length) := by
  cases items with
  | nil =>
      cases spaced with
      | none trivia => exact ⟨start, .nil start, trivia.skips found⟩
  | cons item items =>
      rw [Tree.isBuiltFromList, Bool.and_eq_true] at lexical
      cases spaced with
      | @last _ before text behind leading contents trailing =>
          rw [List.append_assoc, List.append_assoc] at found
          have there := drop_of_drop_eq_append _ found
          have laid := laid_of_spaced item contents lexical.1
            (trailing.delimited (.inr delimited)) there
          have skips := trailing.skips (drop_of_drop_eq_append _ there)
          refine ⟨_, laid.skip (leading.skips found), ?_⟩
          simpa only [List.length_append, Nat.add_assoc] using skips
      | @more _ next items before text gap rest leading contents trivia some
          others =>
          rw [List.append_assoc, List.append_assoc, List.append_assoc]
            at found
          have there := drop_of_drop_eq_append _ found
          have laid := laid_of_spaced item contents lexical.1
            (trivia.delimited (.inl some)) there
          have behind := drop_of_drop_eq_append _ there
          obtain ⟨ending, further, skips⟩ := laid_of_spacedItems
            (next :: items) others lexical.2 delimited
            (drop_of_drop_eq_append _ behind)
          refine ⟨ending, (laid.skip (leading.skips found)).append
            (further.skip (trivia.skips behind)), ?_⟩
          simpa only [List.length_append, Nat.add_assoc] using skips

end

/-- Well-formed trees are read from any text that holds them, whatever its
spacing and however its strings are escaped. -/
theorem readForms_of_spacedText {Note : Type} (trees : List (Tree Note))
    (lexical : ∀ tree ∈ trees, tree.isLexical = true) (source : String)
    (written : SpacedText trees source.toList) :
    ∃ forms, readForms source = .ok forms ∧
      forms.map Tree.datum = trees.map Tree.datum := by
  have accepted := (isBuiltFromList_iff Atom.isLexical trees).mpr lexical
  generalize chars : source.toList = text at written
  cases written with
  | ended items =>
      have found : text.drop 0 = text ++ [] := (List.append_nil _).symm
      have nothing : Delimited [] := rfl
      obtain ⟨ending, laid, skips⟩ :=
        laid_of_spacedItems trees items accepted nothing found
      rw [← chars] at laid skips
      rw [Nat.zero_add] at skips
      exact readForms_of_laid laid skips
  | @commented body comment items inside =>
      have found : (body ++ ';' :: comment).drop 0 =
          body ++ ';' :: comment := rfl
      obtain ⟨ending, laid, skips⟩ := laid_of_spacedItems trees items accepted
        (delimited_cons (by decide)) found
      have behind : (body ++ ';' :: comment).drop body.length =
          ';' :: (comment ++ []) := by
        rw [List.drop_left, List.append_nil]
      have last : Skips (body ++ ';' :: comment) body.length
          (body ++ ';' :: comment).length := by
        refine .comment behind inside (by simp) ?_
        rw [List.length_append, List.length_cons, Nat.add_assoc,
          Nat.add_comm 1]
        exact .done _
      rw [Nat.zero_add] at skips
      have whole := skips.trans last
      rw [← chars] at laid whole
      exact readForms_of_laid laid whole

/-- A vector with two items. -/
def looseVector : Datum :=
  .group () .vector [.tagged () "t" (.atom () (.string "a\n\n")),
    .atom () (.int 7)]

/-- The vector between comments, with a signed number and a string of which
two characters are escaped. -/
def looseText : String :=
  " ;)\"é\n[#t;x\n,\"\\a\\n\n\" +7],;end"

private theorem spaced_looseText :
    SpacedText [looseVector] looseText.toList := by
  have lineEnd : Spells ['\n'] ['\n'] :=
    .plain (by decide) (by decide) .nil
  have spelled : Spells (unescapeChar 'a' :: unescapeChar 'n' :: ['\n'])
      "\\a\\n\n".toList :=
    .escaped (.escaped lineEnd)
  have string : Spaced (.atom () (.string "a\n\n"))
      ('"' :: ("\\a\\n\n".toList ++ ['"'])) :=
    .atom () (.string spelled)
  have comment : Trivia ";x\n,".toList :=
    .comment (show '\n' ∉ ['x'] by decide) (.blank (by decide) .nil)
  have space : Trivia " ".toList := .blank (by decide) .nil
  have comma : Trivia ",".toList := .blank (by decide) .nil
  have leading : Trivia " ;)\"é\n".toList :=
    .blank (by decide)
      (.comment (show '\n' ∉ [')', '"', 'é'] by decide) .nil)
  have number : Spaced (.atom () (.int 7)) "+7".toList :=
    .atom () (.word (by decide) (by decide) rfl)
  have tagged := Spaced.tagged () "t" comment (by decide) string
  have items := SpacedItems.more .nil tagged space (by decide)
    (.last .nil number .nil)
  exact .commented (.last leading (.group () .vector items) comma)
    (show '\n' ∉ "end".toList by decide)

theorem readForms_of_spacedText_looseVector :
    SpacedText [looseVector] looseText.toList ∧
      ∃ forms, readForms looseText = .ok forms ∧
        forms.map Tree.datum = [looseVector] := by
  refine ⟨spaced_looseText, ?_⟩
  exact readForms_of_spacedText [looseVector]
    (List.forall_mem_singleton.mpr (by decide)) looseText spaced_looseText

end FormCompiler
